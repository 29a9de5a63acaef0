import Mathlib
import Templating.Proofs.Aborting
import Templating.Proofs.Directories

/-!
# Templates that are overwritten

Output goes beside its template, under another extension. If the template asks for the extension that it has
itself, that is its own path, and the output takes its place (`overwrites_iff`). Preprocessing never does
that.
-/

namespace Templating

/-! ## Paths of templates -/

namespace Path

variable {p goal : Path} {front : List Char} {name ext : String}

/-- The path's text ends in a name, which stands after this front. -/
structure Named (p : Path) (front : List Char) (name : String) : Prop where
  isFront : IsFront front
  isName : IsName name.toList
  text : p = ⟨String.ofList front ++ name⟩

theorem Named.endsIn (h : Named p front name) : EndsIn p front name := by
  rw [h.text]
  exact endsIn_append h.isFront h.isName

theorem Named.ne_empty (h : Named p front name) : name ≠ "" := by
  simpa using h.isName.ne_nil

theorem exists_named_of_tt (h : Text.endsWith ".tt" p.text) :
    ∃ front stem, Named p front (stem ++ ".tt") := by
  obtain ⟨a, ha⟩ := List.isSuffixOf_iff_suffix.1 h
  have hname {s : List Char} (hs : '/' ∉ s) : IsName (String.ofList s ++ ".tt").toList := by
    have hlong : 3 ≤ (String.ofList s ++ ".tt").toList.length := by simp
    refine ⟨?_, ?_, ?_, by simpa using hs⟩ <;> intro he <;> rw [he] at hlong <;> simp at hlong
  have hp : p = ⟨String.ofList a ++ ".tt"⟩ := by
    refine congrArg Path.mk ?_
    rw [← String.toList_inj, String.toList_append, String.toList_ofList, ha]
  by_cases hslash : '/' ∈ a
  · obtain ⟨b, s, rfl, hs⟩ := FileTree.exists_last_slash hslash
    refine ⟨b ++ ['/'], String.ofList s, .inr ⟨b, rfl⟩, hname hs, ?_⟩
    rw [hp, String.ofList_append, String.append_assoc]
  · refine ⟨[], String.ofList a, .inl rfl, hname hslash, ?_⟩
    rw [hp]
    simp

/-- The extension that a path has itself: an empty one, if it has none. -/
def ownExtension (p : Path) : String :=
  p.extension?.getD ""

theorem noSlash_ownExtension (p : Path) : '/' ∉ p.ownExtension.toList := by
  unfold ownExtension
  cases h : p.extension? with
  | none => exact List.not_mem_nil
  | some ext => exact noSlash_extension? h

theorem cutName_tt (stem : String) :
    cutName (stem ++ ".tt") = if stem = "" then (".tt", none) else (stem, some "tt") := by
  have hbare : cutName ".tt" = (".tt", none) := by cbv
  have htt : ".tt" = "." ++ "tt" := by decide
  by_cases hstem : stem = ""
  · simp [hstem, hbare]
  · rw [if_neg hstem, htt, ← String.append_assoc, cutName_append hstem (by decide)]

/-- Of all extensions, only its own leaves a path as it is. -/
theorem Named.withExtension?_eq_self_iff {stem : String} (h : Named p front (stem ++ ".tt"))
    (hext : '/' ∉ ext.toList) : p.withExtension? ext = some p ↔ ext = p.ownExtension := by
  have hown : p.withExtension? p.ownExtension = some p := by
    rw [h.endsIn.withExtension? p.noSlash_ownExtension, ownExtension, h.endsIn.extension?, cutName_tt]
    by_cases hstem : stem = ""
    · simp [hstem, h.text]
    · simp [hstem, h.text, String.append_assoc]
  constructor
  · intro he
    exact (h.endsIn.withExtension?_inj hext p.noSlash_ownExtension).1 (he.trans hown.symm)
  · rintro rfl
    exact hown

theorem Named.ownExtension_cases {stem : String} (h : Named p front (stem ++ ".tt")) :
    p.ownExtension = "" ∨ p.ownExtension = "tt" := by
  rw [ownExtension, h.endsIn.extension?, cutName_tt]
  by_cases hstem : stem = "" <;> simp [hstem]

end Path

/-! ## Beside a file -/

namespace FileTree

variable {t t' : FileTree} {p goal : Path} {front : List Char} {x y : String} {n m : List String}
  {place : Place} {bytes old new : ByteArray} {stamp stamp' : Nat}

theorem isAbsolute_front (hf : Path.IsFront front) (hx : '/' ∉ x.toList) :
    Path.isAbsolute ⟨String.ofList front ++ x⟩ = "/".toList.isPrefixOf front := by
  unfold Path.isAbsolute Text.startsWith
  rw [String.toList_append, String.toList_ofList]
  rcases hf with rfl | ⟨a, rfl⟩
  · cases hcs : x.toList with
    | nil => rfl
    | cons c cs =>
      have hc : '/' ≠ c := by
        rintro rfl
        exact hx (hcs ▸ List.mem_cons_self)
      simp [List.isPrefixOf, hc]
  · cases a <;> simp [List.isPrefixOf]

theorem steps_of_resolve (h : t.resolve p = .ok place) : steps p = .ok (Text.split p.text '/') := by
  obtain ⟨hempty, hzero, hlong, -⟩ := resolve_eq_ok_iff.1 h
  simp [steps, names, hempty, hzero, Nat.not_lt.2 hlong]

/-- What is written beside a file is that file just if the names are the same. -/
theorem Writes.beside (hp : p.Named front x) (hy : '/' ∉ y.toList)
    (hfile : t.resolve p = .ok (.entry n (.file old stamp)))
    (h : Writes t ⟨String.ofList front ++ y⟩ bytes m t') : m = n ↔ y = x := by
  obtain ⟨hf, hx, rfl⟩ := hp
  obtain ⟨-, hzero, -, hwalk⟩ := resolve_eq_ok_iff.1 hfile
  obtain ⟨ps, hsplit⟩ := split_of_front hf
  have hzero' : '\x00' ∉ x.toList := fun hmem => hzero (by simp [hmem])
  rw [hsplit x hx.noSlash] at hwalk
  obtain ⟨-, d, hd, rfl⟩ := walk_concat_file hx.noSlash hzero' hwalk
  have horigin : t.origin ⟨String.ofList front ++ y⟩ = t.origin ⟨String.ofList front ++ x⟩ := by
    simp only [origin, isAbsolute_front hf hx.noSlash, isAbsolute_front hf hy]
  rw [← horigin] at hd
  rw [h.of_split (hsplit y hy) hd]
  simp

theorem getLast?_split (hp : p.Named front x) : (Text.split p.text '/').getLast? ≠ some "" := by
  obtain ⟨ps, hsplit⟩ := split_of_front hp.isFront
  rw [hp.text, hsplit x hp.isName.noSlash]
  simpa using hp.ne_empty

theorem resolve_file (hp : p.Named front x) (hfile : t.resolve p = .ok (.entry n (.file old stamp)))
    (hdirs : KeepsDirectories t t') (hcwd : t'.workingDirectory = t.workingDirectory)
    (hn : t'.lookup n = some (.file new stamp')) : t'.resolve p = .ok (.entry n (.file new stamp')) := by
  obtain ⟨hempty, hzero, hlong, hwalk⟩ := resolve_eq_ok_iff.1 hfile
  refine resolve_eq_ok_iff.2 ⟨hempty, hzero, hlong, ?_⟩
  have horigin : t'.origin p = t.origin p := by
    unfold origin
    rw [hcwd]
  rw [horigin]
  exact walk_file hdirs hn (getLast?_split hp) rfl (.inr hwalk)

theorem write_over (hp : p.Named front x) (hfile : t.resolve p = .ok (.entry n (.file old stamp)))
    (bytes : ByteArray) : t.write p bytes = .ok (t.putFile n bytes) := by
  have hslash : t.slashError? p = none := by
    simp [slashError?, steps_of_resolve hfile, getLast?_split hp]
  apply write_of_opens
  rw [opens, hslash, hfile]

theorem getLast?_of_file (hf : Path.IsFront front) (hx : '/' ∉ x.toList)
    (h : t.resolve ⟨String.ofList front ++ x⟩ = .ok (.entry n (.file old stamp))) : n.getLast? = some x := by
  obtain ⟨-, hzero, -, hwalk⟩ := resolve_eq_ok_iff.1 h
  obtain ⟨ps, hsplit⟩ := split_of_front hf
  rw [hsplit x hx] at hwalk
  obtain ⟨-, d, -, rfl⟩ := walk_concat_file hx (fun hmem => hzero (by simp [hmem])) hwalk
  simp

section
variable {stem ext : String} (hp : p.Named front (stem ++ ".tt"))
  (hfile : t.resolve p = .ok (.entry n (.file old stamp))) (hgoal : p.withExtension? ext = some goal)
include hp hfile hgoal

/-- What is written beside a template is that template just if the extension is the template's own. -/
theorem Writes.ownExtension_iff (h : Writes t goal bytes m t') : m = n ↔ ext = p.ownExtension := by
  have hext := Path.noSlash_of_withExtension? hgoal
  rw [← hp.withExtension?_eq_self_iff hext, hp.endsIn.withExtension? hext]
  rw [hp.endsIn.withExtension? hext] at hgoal
  obtain rfl := Option.some.inj hgoal
  rw [String.append_assoc] at h ⊢
  have hslash : '/' ∉ ((Path.cutName (stem ++ ".tt")).1 ++ if ext = "" then "" else "." ++ ext).toList := by
    have hstem := Path.noSlash_stem hp.isName.noSlash
    by_cases hempty : ext = ""
    · simpa [hempty] using hstem
    · simpa [hempty, hext] using hstem
  rw [h.beside hp hslash hfile, Option.some.injEq, hp.text, Path.mk.injEq, String.append_right_inj]

theorem Writes.read_template (h : Writes t goal bytes m t') :
    t'.read p = .ok (if ext = p.ownExtension then bytes else old) := by
  have hm := h.ownExtension_iff hp hfile hgoal
  have hlookup := h.lookup n
  by_cases hown : ext = p.ownExtension
  · rw [if_pos (hm.2 hown).symm] at hlookup
    rw [if_pos hown]
    exact read_of_resolve (resolve_file hp hfile h.keepsDirectories h.workingDirectory hlookup)
  · rw [if_neg fun he => hown (hm.1 he.symm), lookup_of_resolve hfile] at hlookup
    rw [if_neg hown]
    exact read_of_resolve (resolve_file hp hfile h.keepsDirectories h.workingDirectory hlookup)

end

end FileTree

namespace Generation

variable {w w' : Generation} {compiler : Compiler} {fresh : Except FileError Unit} {template goal staging staged : Path}
  {front : List Char} {stem : String} {old : ByteArray}

/-! ## Processing and preprocessing -/

/-- A template that is processed is overwritten just if its output goes to its own extension and differs. -/
theorem process_overwrites_iff (hp : template.Named front (stem ++ ".tt"))
    (hold : w.files.read template = .ok old) :
    (w.process compiler template none fresh).2.files.read template ≠ .ok old ↔
      ∃ text out g, (w.start template).1 = some text ∧
        Gives (w.start template).2 ((w.start template).2.engineRun compiler fresh text) out g ∧
        g.extension = some template.ownExtension ∧ g.encoding.encode out ≠ old := by
  obtain ⟨n, stamp, hfile⟩ := FileTree.exists_of_read hold
  have hown : template.ownExtension ≠ defaultExtension := by
    rcases hp.ownExtension_cases with h | h <;> rw [h] <;> decide
  constructor
  · intro hchanged
    generalize hprocessed : w.process compiler template none fresh = processed at hchanged
    obtain ⟨x, w'⟩ := processed
    rcases process_files hprocessed with ⟨-, text, out, g, goal, hread, hgives, hgoal, -, hwritten⟩ | ⟨-, hsame⟩
    · refine ⟨text, out, g, hread, hgives, ?_⟩
      obtain ⟨m, hm⟩ := FileTree.writes_of_write hwritten
      have hafter := hm.read_template hp hfile hgoal
      by_cases hext : g.extension.getD defaultExtension = template.ownExtension
      · rw [hafter, if_pos hext] at hchanged
        refine ⟨?_, fun he => hchanged (congrArg _ he)⟩
        cases hasked : g.extension with
        | none => simp [hasked, hown.symm] at hext
        | some ext => simpa [hasked] using hext
      · rw [hafter, if_neg hext] at hchanged
        exact absurd rfl hchanged
    · exact absurd (hsame ▸ hold) hchanged
  · rintro ⟨text, out, g, hread, hgives, hext, hdiffers⟩
    have hgoal : outputPath? g template none = some template := by
      simpa [outputPath?, hext] using (hp.withExtension?_eq_self_iff template.noSlash_ownExtension).2 rfl
    have hwritten := FileTree.write_over hp hfile (g.encoding.encode out)
    have hafter : (w.process compiler template none fresh).2.files = w.files.putFile n (g.encoding.encode out) := by
      rw [process_of_read hread, hgives.absorbed, settle]
      dsimp only
      rw [hgoal]
      dsimp only
      rw [writeOutput, files_start, hwritten]
    obtain ⟨m, hm⟩ := FileTree.writes_of_write hwritten
    rw [hafter, FileTree.read_of_resolve hm.resolve]
    exact fun he => hdiffers (Except.ok.inj he)

theorem read_preprocess (hp : template.Named front (stem ++ ".tt")) (hold : w.files.read template = .ok old)
    (className namespace_ : String) :
    (w.preprocess template className namespace_ none).2.files.read template = .ok old := by
  obtain ⟨n, stamp, hfile⟩ := FileTree.exists_of_read hold
  have hgoal := template.withExtension?_plain (by decide : '/' ∉ sourceExtension.toList)
  have hown : sourceExtension ≠ template.ownExtension := by
    rcases hp.ownExtension_cases with h | h <;> rw [h] <;> decide
  have hnone : w.preprocess template className namespace_ none =
    w.preprocess template className namespace_ (some (template.withPlainExtension sourceExtension)) := rfl
  rw [hnone]
  generalize hpreprocessed : w.preprocess template className namespace_ _ = preprocessed
  obtain ⟨x, w'⟩ := preprocessed
  rcases preprocess_files hpreprocessed with ⟨-, text, m, g, -, -, -, hwritten⟩ | ⟨-, hsame⟩
  · obtain ⟨m, hm⟩ := FileTree.writes_of_write hwritten
    rw [hm.read_template hp hfile hgoal, if_neg hown]
  · exact hsame ▸ hold

/-! ## Runs -/

theorem not_sameContent_of_success (h : (w.deliver staged goal).1 = .success) :
    ¬ sameContent w.files goal staged := by
  intro hsame
  unfold deliver at h
  rw [if_pos hsame] at h
  cases h

section
variable {ext : String} {n k s : List String} {stamp : Nat} {bytes : ByteArray}
  (hp : template.Named front (stem ++ ".tt"))
include hp

/-- What is brought beside a template changes it just if it is brought to the template's own extension. -/
theorem lookup_deliver (hfile : w.files.resolve template = .ok (.entry n (.file old stamp)))
    (hgoal : template.withExtension? ext = some goal) {base : FileTree}
    (hw : base.Writes staged bytes k w.files) :
    ∃ new stamp', (w.deliver staged goal).2.files.lookup n = some (.file new stamp') ∧
      (new ≠ old ↔ (w.deliver staged goal).1 = .success ∧ ext = template.ownExtension) ∧
      w.files.KeepsDirectories (w.deliver staged goal).2.files ∧
      (w.deliver staged goal).2.files.workingDirectory = w.files.workingDirectory := by
  have hdiffers : (w.deliver staged goal).1 = .success → ¬ sameContent w.files goal staged :=
    not_sameContent_of_success
  have hdelivers := deliver_delivers w staged goal none
  generalize w.deliver staged goal = y at hdiffers hdelivers
  have hn := FileTree.lookup_of_resolve hfile
  cases hdelivers with
  | unchanged _ hfiles =>
    rw [hfiles]
    exact ⟨old, stamp, hn, by simp, fun _ h => h, rfl⟩
  | refused _ hmakes => exact ⟨old, stamp, hmakes.file hn, by simp, hmakes.keepsDirectories, hmakes.workingDirectory⟩
  | broken _ _ _ hbroken => exact absurd hbroken FileTree.not_breaksOff
  | @written w' made bytes' _ hmakes hread hwritten =>
    obtain ⟨m, hm⟩ := FileTree.writes_of_write hwritten
    have hfile' := FileTree.resolve_file hp hfile hmakes.keepsDirectories hmakes.workingDirectory (hmakes.file hn)
    have hiff := hm.ownExtension_iff hp hfile' hgoal
    have hkeeps : w.files.KeepsDirectories w'.files :=
      fun d hd => hm.keepsDirectories d (hmakes.keepsDirectories d hd)
    have hcwd := hm.workingDirectory.trans hmakes.workingDirectory
    have hlookup := hm.lookup n
    by_cases hown : ext = template.ownExtension
    · rw [if_pos (hiff.2 hown).symm] at hlookup
      refine ⟨bytes', made.clock, hlookup, iff_of_true ?_ ⟨rfl, hown⟩, hkeeps, hcwd⟩
      rintro rfl
      -- The same content would not have been brought anywhere.
      have hself := (hp.withExtension?_eq_self_iff (Path.noSlash_of_withExtension? hgoal)).2 hown
      obtain rfl := Option.some.inj (hgoal.symm.trans hself)
      have hstaged : made.resolve staged = .ok (.entry k (.file bytes base.clock)) := by
        apply hw.resolve_of_keeps _ (hmakes.workingDirectory.trans hw.workingDirectory) (hmakes.file _)
        · exact fun d hd => hmakes.keepsDirectories d (hw.keepsDirectories d hd)
        · rw [hw.lookup, if_pos rfl]
      obtain rfl := Except.ok.inj (hread.symm.trans (FileTree.read_of_resolve hstaged))
      exact hdiffers rfl (sameContent_iff.2 ⟨_, _, FileTree.read_of_resolve hfile,
        FileTree.read_of_resolve hw.resolve, rfl⟩)
    · rw [if_neg fun he => hown (hiff.1 he.symm)] at hlookup
      exact ⟨old, stamp, hlookup.trans (hmakes.file hn), by simp [hown], hkeeps, hcwd⟩

section
variable (hfile : w.files.resolve template = .ok (.entry n (.file old stamp)))
  (hs : w.files.resolve staging = .ok (.vacant s)) (hfree : ∀ m, s.isPrefixOf m → w.files.lookup m = none)
include hfile hs hfree

theorem read_unstage {w₂ : Generation} {new : ByteArray} {stamp' : Nat}
    (hdirs : (w.files.put s .directory).KeepsDirectories w₂.files)
    (hcwd : w₂.files.workingDirectory = w.files.workingDirectory)
    (hn : w₂.files.lookup n = some (.file new stamp')) : (w₂.unstage staging).files.read template = .ok new := by
  have hu := unstaged_of_keepsDirectories w₂ hs hdirs hcwd
  have hlookup {m : List String} (hm : w.files.lookup m ≠ none) :
      (w₂.unstage staging).files.lookup m = w₂.files.lookup m := by
    rw [hu.lookup, if_neg fun hbelow => hm (hfree m hbelow)]
  have hkept : w.files.KeepsDirectories (w₂.unstage staging).files := by
    intro d hd
    rw [hlookup (by simp [hd])]
    exact hdirs d ((makes_staging hs).keepsDirectories d hd)
  have hnew : (w₂.unstage staging).files.lookup n = some (.file new stamp') := by
    rw [hlookup (by simp [FileTree.lookup_of_resolve hfile]), hn]
  exact FileTree.read_of_resolve (FileTree.resolve_file hp hfile hkept (hu.workingDirectory.trans hcwd) hnew)

theorem read_delivered (w₁ : Generation) (hw : (w.files.put s .directory).Writes staged bytes k w₁.files)
    (hk : k ≠ n) (hgoal : template.withExtension? ext = some goal) :
    ∃ new, ((w₁.deliver staged goal).2.unstage staging).files.read template = .ok new ∧
      (new ≠ old ↔ (w₁.deliver staged goal).1 = .success ∧ ext = template.ownExtension) := by
  have hmakes := makes_staging hs
  have hn : w₁.files.lookup n = some (.file old stamp) := by
    rw [hw.lookup, if_neg hk.symm]
    exact hmakes.file (FileTree.lookup_of_resolve hfile)
  have hdirs : w.files.KeepsDirectories w₁.files :=
    fun d hd => hw.keepsDirectories d (hmakes.keepsDirectories d hd)
  have hcwd : w₁.files.workingDirectory = w.files.workingDirectory := hw.workingDirectory
  obtain ⟨new, stamp', hnew, hiff, hdirs', hcwd'⟩ :=
    lookup_deliver hp (FileTree.resolve_file hp hfile hdirs hcwd hn) hgoal hw
  refine ⟨new, ?_, hiff⟩
  apply read_unstage hp hfile hs hfree _ (hcwd'.trans hcwd) hnew
  exact fun d hd => hdirs' d (hw.keepsDirectories d hd)

end

end

theorem stagedStem_of_named (hp : template.Named front (stem ++ ".tt")) :
    stagedStem template = if stem = "" then ".tt" else stem := by
  rw [stagedStem, Path.stem?, hp.endsIn.name?, Option.map_some, Option.getD_some, Path.cutName_tt]
  by_cases hstem : stem = "" <;> simp [hstem]

/-- A text that is staged under the directory's own name is not staged over its template. -/
theorem writes_staged_dot {n : List String} {stamp : Nat} {asked : Option String} {bytes : ByteArray}
    {before files : FileTree} (hp : template.Named front (stem ++ ".tt")) (hdot : stagedStem template = ".")
    (hfile : w.files.resolve template = .ok (.entry n (.file old stamp)))
    (hasked : ∀ ext ∈ asked, '/' ∉ ext.toList) (hplain : ∀ name ∈ staging.name?, '.' ∉ name.toList)
    (h : before.write (stagedText staging template asked) bytes = .ok files) :
    ∃ k, before.Writes (stagedText staging template asked) bytes k files ∧ k ≠ n := by
  obtain ⟨m, hm⟩ := FileTree.writes_of_write h
  refine ⟨m, hm, ?_⟩
  rintro rfl
  obtain ⟨dots, name, ext, -, hf, hname, hnoDot, hslash, htext⟩ := exists_name_of_dot hdot hasked hplain h
  have hresolve := hm.resolve
  -- The one name begins with a dot, and the other has none at its front.
  rw [htext] at hresolve
  rw [hp.text] at hfile
  have hsame := (FileTree.getLast?_of_file hf hslash hresolve).symm.trans
    (FileTree.getLast?_of_file hp.isFront hp.isName.noSlash hfile)
  have hstem : stem = "." := by
    rw [stagedStem_of_named hp] at hdot
    by_cases hempty : stem = ""
    · simp [hempty] at hdot
    · rwa [if_neg hempty] at hdot
  obtain ⟨c, cs, hcs⟩ := List.exists_cons_of_ne_nil hname.ne_nil
  have hlists := congrArg String.toList (Option.some.inj hsame)
  rw [hstem, String.toList_append, hcs] at hlists
  have hc : c = '.' := by simpa using congrArg List.head? hlists
  exact hnoDot (by simp [hcs, hc])

/-- The text of a template is staged apart from it. -/
theorem writes_staged_text {n s : List String} {stamp : Nat} {asked : Option String} {bytes : ByteArray}
    {files : FileTree} (hp : template.Named front (stem ++ ".tt"))
    (hfile : w.files.resolve template = .ok (.entry n (.file old stamp)))
    (hs : w.files.resolve staging = .ok (.vacant s)) (hfree : ∀ m, s.isPrefixOf m → w.files.lookup m = none)
    (hasked : ∀ ext ∈ asked, '/' ∉ ext.toList) (hplain : ∀ name ∈ staging.name?, '.' ∉ name.toList)
    (h : (w.files.put s .directory).write (stagedText staging template asked) bytes = .ok files) :
    ∃ k, (w.files.put s .directory).Writes (stagedText staging template asked) bytes k files ∧ k ≠ n := by
  obtain ⟨-, hslash⟩ := stagedStem_plain template
  by_cases hdot : stagedStem template = "."
  · exact writes_staged_dot hp hdot hfile hasked hplain h
  · rw [stagedText_plain hdot hasked] at h ⊢
    refine ⟨_, writes_staged hs (noSlash_stagedName hslash hasked) h, ?_⟩
    rintro rfl
    have hbelow := hfree (s ++ [stagedName (stagedStem template) asked]) (by simp)
    simp [FileTree.lookup_of_resolve hfile] at hbelow

/-- The extension that a run for text reads off the file that it has staged. -/
def readBack (template : Path) (asked : Option String) : String :=
  (Path.cutName (stagedName (stagedStem template) asked)).2.getD defaultExtension

theorem changed_iff {files : FileTree} {P : Prop}
    (h : ∃ new, files.read template = .ok new ∧ (new ≠ old ↔ P)) : files.read template ≠ .ok old ↔ P := by
  obtain ⟨new, hnew, hiff⟩ := h
  rw [hnew, ← hiff]
  simp

section
variable {n s : List String} {stamp : Nat} {o : TemplateOptions} (hp : template.Named front (stem ++ ".tt"))
  (hfile : w.files.resolve template = .ok (.entry n (.file old stamp)))
  (hs : w.files.resolve staging = .ok (.vacant s)) (hfree : ∀ m, s.isPrefixOf m → w.files.lookup m = none)
include hp hfile hs hfree

theorem read_unstage_put (w₂ : Generation) (h : w₂.files = w.files.put s .directory) :
    (w₂.unstage staging).files.read template = .ok old := by
  have hn : w₂.files.lookup n = some (.file old stamp) := by
    rw [h]
    exact (makes_staging hs).file (FileTree.lookup_of_resolve hfile)
  refine read_unstage hp hfile hs hfree ?_ ?_ hn
  · rw [h]
    exact fun _ hd => hd
  · rw [h]
    rfl

variable (hpath : o.outputPath = none)
include hpath

theorem runText_overwrites_iff (hplain : ∀ name ∈ staging.name?, '.' ∉ name.toList) {y : Outcome RunStatus × Generation}
    (hy : runText ⟨w.generator, w.files.put s .directory⟩ compiler staging template o fresh = y) :
    (y.2.unstage staging).files.read template ≠ .ok old ↔
      y.1 = .value .success ∧ readBack template y.2.generator.extension = template.ownExtension := by
  unfold runText at hy
  generalize hprocessed : process ⟨w.generator, w.files.put s .directory⟩ compiler template
    (some (staging.join ⟨stagedStem template⟩)) fresh = processed at hy
  obtain ⟨x, w₁⟩ := processed
  rcases process_files hprocessed with ⟨rfl, text, out, g, staged, -, -, hstaged, hg, hwritten⟩ | ⟨hfailed, hsame⟩
  · obtain ⟨_, files⟩ := w₁
    subst hg
    obtain ⟨hasked, hat⟩ := outputPath?_staging_iff.1 hstaged
    rw [← hat] at hwritten
    obtain ⟨k, hw, hk⟩ := writes_staged_text hp hfile hs hfree hasked hplain hwritten
    have hext := extension?_stagedText hasked (fun _ => hplain) hwritten
    rw [hat] at hw hext
    dsimp only at hy
    rw [target, hpath] at hy
    have hslash : '/' ∉ (staged.extension?.getD defaultExtension).toList := by
      cases he : staged.extension? with
      | none => decide
      | some ext => exact Path.noSlash_extension? he
    have hread := read_delivered hp hfile hs hfree ⟨{ g with outputFile := some staged }, files⟩ hw hk
      (template.withExtension?_plain hslash)
    have hgenerator := @deliver_succeeded ⟨{ g with outputFile := some staged }, files⟩ staged
      (template.withPlainExtension (staged.extension?.getD defaultExtension)) none
    generalize deliver _ staged _ = delivered at hy hread hgenerator
    subst hy
    rw [changed_iff hread, hext]
    dsimp only
    rw [Outcome.value.injEq]
    refine and_congr_right fun hsuccess => ?_
    rw [hgenerator (by rw [hsuccess]; rfl), readBack]
  · have hunchanged := read_unstage_put hp hfile hs hfree w₁ hsame
    rcases x with (_ | _) | _
    · subst hy
      refine iff_of_false (not_not_intro hunchanged) fun h => not_succeeded_failureStatus w₁.generator ?_
      rw [Outcome.value.inj h.1]
      rfl
    · exact absurd rfl hfailed
    · subst hy
      exact iff_of_false (not_not_intro hunchanged) (by simp)

theorem read_runTextGenerator {y : Outcome RunStatus × Generation}
    (hy : runTextGenerator ⟨w.generator, w.files.put s .directory⟩ staging template o = y) :
    (y.2.unstage staging).files.read template = .ok old := by
  unfold runTextGenerator at hy
  dsimp only at hy
  generalize hpreprocessed : preprocess ⟨w.generator, w.files.put s .directory⟩ template
    (ClassName.ofTemplate template) "" (some (staging.join ⟨stagedStem template ++ "." ++ sourceExtension⟩)) =
      preprocessed at hy
  obtain ⟨x, w₁⟩ := preprocessed
  rcases preprocess_files hpreprocessed with ⟨rfl, text, m, g, -, -, -, hwritten⟩ | ⟨hfailed, hsame⟩
  · obtain ⟨-, hslash⟩ := stagedStem_plain template
    have hw := writes_staged hs (by simpa [sourceExtension] using hslash) hwritten
    dsimp only at hy
    rw [target, hpath] at hy
    have hk : s ++ [stagedStem template ++ "." ++ sourceExtension] ≠ n := by
      rintro rfl
      have hbelow := hfree (s ++ [stagedStem template ++ "." ++ sourceExtension]) (by simp)
      simp [FileTree.lookup_of_resolve hfile] at hbelow
    obtain ⟨new, hnew, hiff⟩ := read_delivered hp hfile hs hfree w₁ hw hk
      (template.withExtension?_plain (by decide : '/' ∉ sourceExtension.toList))
    have hown : sourceExtension ≠ template.ownExtension := by
      rcases hp.ownExtension_cases with h | h <;> rw [h] <;> decide
    subst hy
    rw [hnew, not_not.1 (mt hiff.1 fun h => hown h.2)]
  · have hunchanged := read_unstage_put hp hfile hs hfree w₁ hsame
    rcases x with (_ | _) | _
    · subst hy
      exact hunchanged
    · exact absurd rfl hfailed
    · subst hy
      exact hunchanged

end

/-- A run overwrites its template just if it succeeds with a text for the template's own extension. -/
theorem run_overwrites_iff (hp : template.Named front (stem ++ ".tt")) (hold : w.files.read template = .ok old)
    (hpath : (TemplateOptions.loadOrDefault w.files template).outputPath = none)
    (hplain : ∀ name ∈ staging.name?, '.' ∉ name.toList)
    (hfree : ∀ m, InStaging w.files staging m → w.files.lookup m = none) :
    (w.run compiler staging template fresh).2.files.read template ≠ .ok old ↔
      (w.run compiler staging template fresh).1 = .value .success ∧
        (TemplateOptions.loadOrDefault w.files template).outputKind = .text ∧
        readBack template (w.run compiler staging template fresh).2.generator.extension =
          template.ownExtension := by
  obtain ⟨n, stamp, hfile⟩ := FileTree.exists_of_read hold
  unfold run
  dsimp only
  cases hmade : w.files.makeDirectory staging with
  | error e => exact iff_of_false (not_not_intro hold) (by simp)
  | ok made =>
    obtain ⟨s, hs, rfl⟩ := FileTree.makeDirectory_eq_ok hmade
    have hfree' : ∀ m, s.isPrefixOf m → w.files.lookup m = none := fun m hm => hfree m ⟨s, hs, hm⟩
    dsimp only
    rw [generator_unstage]
    unfold runStaged
    cases hkind : (TemplateOptions.loadOrDefault w.files template).outputKind with
    | unknown => exact iff_of_false (not_not_intro (read_unstage_put hp hfile hs hfree' _ rfl)) (by simp)
    | text =>
      simp only [true_and]
      exact runText_overwrites_iff hp hfile hs hfree' hpath hplain rfl
    | textGenerator =>
      exact iff_of_false (not_not_intro (read_runTextGenerator hp hfile hs hfree' hpath rfl)) (by simp)

/-- **When a template is overwritten.** Processing puts its output in the template's place just if the template
asks for the extension that it has itself, and a run for text just if that is the extension of what it has
staged. Preprocessing never does. The staging directory is new, and its name holds no dot; no writing is
broken off. -/
theorem overwrites_iff (w : Generation) (compiler : Compiler) (fresh : Except FileError Unit)
    (htt : Text.endsWith ".tt" template.text) (hold : w.files.read template = .ok old) :
    ((w.process compiler template none fresh).2.files.read template ≠ .ok old ↔
      ∃ text out g, (w.start template).1 = some text ∧
        Gives (w.start template).2 ((w.start template).2.engineRun compiler fresh text) out g ∧
        g.extension = some template.ownExtension ∧ g.encoding.encode out ≠ old) ∧
    (∀ className namespace_,
      (w.preprocess template className namespace_ none).2.files.read template = .ok old) ∧
    ∀ staging, (TemplateOptions.loadOrDefault w.files template).outputPath = none →
      (∀ name ∈ staging.name?, '.' ∉ name.toList) →
      (∀ m, InStaging w.files staging m → w.files.lookup m = none) →
      ((w.run compiler staging template fresh).2.files.read template ≠ .ok old ↔
        (w.run compiler staging template fresh).1 = .value .success ∧
          (TemplateOptions.loadOrDefault w.files template).outputKind = .text ∧
          readBack template (w.run compiler staging template fresh).2.generator.extension =
            template.ownExtension) := by
  obtain ⟨front, stem, hp⟩ := Path.exists_named_of_tt htt
  exact ⟨process_overwrites_iff hp hold, read_preprocess hp hold,
    fun staging hpath hplain hfree => run_overwrites_iff hp hold hpath hplain hfree⟩

def selfNaming : Generation :=
  { generator := {}, files := { entries := [(["t.tt"], .file "<#@ output extension='tt' #>x".toUTF8 0)] } }

theorem overwrites_iff_selfNaming :
    selfNaming.files.read ⟨"/t.tt"⟩ = .ok "<#@ output extension='tt' #>x".toUTF8 ∧
    ((selfNaming.run .writing ⟨"/stage"⟩ ⟨"/t.tt"⟩).2.files.read ⟨"/t.tt"⟩ ≠
        .ok "<#@ output extension='tt' #>x".toUTF8 ↔
      (selfNaming.run .writing ⟨"/stage"⟩ ⟨"/t.tt"⟩).1 = .value .success ∧
        (TemplateOptions.loadOrDefault selfNaming.files ⟨"/t.tt"⟩).outputKind = .text ∧
        readBack ⟨"/t.tt"⟩ (selfNaming.run .writing ⟨"/stage"⟩ ⟨"/t.tt"⟩).2.generator.extension =
          Path.ownExtension ⟨"/t.tt"⟩) := by
  have hold : selfNaming.files.read ⟨"/t.tt"⟩ = .ok "<#@ output extension='tt' #>x".toUTF8 := rfl
  refine ⟨hold, (overwrites_iff selfNaming .writing (.ok ()) (by decide +kernel) hold).2.2 ⟨"/stage"⟩ rfl ?_ ?_⟩
  · have hname : Path.name? ⟨"/stage"⟩ = some "stage" := by cbv
    rw [hname]
    simp
  · rintro m ⟨s, hs, hm⟩
    have hstage : selfNaming.files.resolve ⟨"/stage"⟩ = .ok (.vacant ["stage"]) := rfl
    obtain rfl := FileTree.Place.vacant.inj (Except.ok.inj (hstage.symm.trans hs))
    obtain ⟨rest, rfl⟩ := List.isPrefixOf_iff_prefix.1 hm
    simp [FileTree.lookup, selfNaming]

/-- A template that asks for its own extension is lost. -/
example : (selfNaming.process .writing ⟨"/t.tt"⟩ none).2.files.read ⟨"/t.tt"⟩ ≠
    .ok "<#@ output extension='tt' #>x".toUTF8 := by
  have hold : selfNaming.files.read ⟨"/t.tt"⟩ = .ok "<#@ output extension='tt' #>x".toUTF8 := rfl
  have hread : selfNaming.files.readTemplate ⟨"/t.tt"⟩ = .ok "<#@ output extension='tt' #>x" :=
    FileTree.readTemplate_of_read hold rfl
  have hclear (files : FileTree) (host : Host) :
      Engine.earlyReport files host "<#@ output extension='tt' #>x" = [] := by cbv
  have hsettings (files : FileTree) (host : Host) : Engine.settingEffects (TemplateSettings.ofTemplate
      (Engine.parsed files host "<#@ output extension='tt' #>x")).1 = [.setExtension "tt"] := by cbv
  have hstart := start_of_read hread
  obtain ⟨r, habsorbed⟩ := absorb_writing (selfNaming.start ⟨"/t.tt"⟩).2 (.ok ()) "<#@ output extension='tt' #>x"
    (by rw [hstart]) (by rw [hstart]) (hclear _ _) (by rw [hstart]; rfl) (by rw [hstart]; rfl)
  rw [hsettings] at habsorbed
  obtain ⟨front, stem, hp⟩ := Path.exists_named_of_tt (p := ⟨"/t.tt"⟩) (by decide +kernel)
  rw [process_overwrites_iff hp hold]
  refine ⟨_, _, _, by rw [hstart], gives_of_absorb (congrArg Prod.fst habsorbed), ?_, ?_⟩
  · rw [habsorbed]
    have hown : Path.ownExtension ⟨"/t.tt"⟩ = "tt" := by cbv
    have hasked : String.ofList ((Text.trim "tt").toList.dropWhile (· = '.')) = "tt" := by cbv
    rw [hown]
    exact congrArg some hasked
  · rw [habsorbed, hstart]
    have hsize : (Encoding.utf8.encode "x").size ≠ "<#@ output extension='tt' #>x".toUTF8.size := by decide +kernel
    exact fun h => hsize (congrArg ByteArray.size h)

end Generation

end Templating
