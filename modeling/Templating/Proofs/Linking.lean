import Templating.Generator
import Templating.Proofs.ResponseFiles

/-!
# References and the files they stand for

A generator looks for the file of a reference from its own directory; a compiler gets what was found as a
text and looks it up from its workspace. There it leads to the same file just if it holds no equals sign
and begins at the root (`linked_iff`), but for what leads there by chance.
-/

namespace Templating

open FileTree

variable {files t : FileTree} {g : Generator} {reference text : String} {p : Path} {n : List String}
  {bytes : ByteArray} {stamp : Nat}

/-! ## What is found -/

namespace Generator

def candidates (g : Generator) (reference : String) : List Path :=
  let name := Text.trim reference
  if '=' ∈ name.toList then []
  else if (Path.mk name).isAbsolute then [⟨name⟩]
  else (g.referencePaths.flatMap fun dir => (referenceFileNames name).map fun file => dir.join ⟨file⟩) ++ [⟨name⟩]

/-- The first candidate that is a file is this one. -/
def Finds (g : Generator) (files : FileTree) (reference : String) (n : List String) : Prop :=
  ∃ p, (g.candidates reference).find? files.isFile = some p ∧
    ∃ bytes stamp, files.resolve p = .ok (.entry n (.file bytes stamp))

/-- What is handed on is the path that was found, or the canonical name of what it leads to. -/
theorem Finds.handed (h : g.Finds files reference n) : ∃ bytes stamp, files.lookup n = some (.file bytes stamp) ∧
    ∃ p, files.resolve p = .ok (.entry n (.file bytes stamp)) ∧
      (g.resolveReference files reference = p.text ∨ g.resolveReference files reference = (pathOf n).text) := by
  obtain ⟨p, hfind, bytes, stamp, hp⟩ := h
  refine ⟨bytes, stamp, lookup_of_resolve hp, p, hp, ?_⟩
  unfold candidates at hfind
  unfold resolveReference
  dsimp only at hfind ⊢
  split at hfind
  · cases hfind
  · rename_i hplain
    split at hfind
    · rename_i habsolute
      rw [if_pos (.inr habsolute)]
      exact .inl (congrArg Path.text (List.mem_singleton.1 (List.mem_of_find?_eq_some hfind))).symm
    · rename_i hrelative
      rw [if_neg (not_or.2 ⟨hplain, hrelative⟩)]
      rw [List.find?_append] at hfind
      split
      · rename_i q hq
        rw [hq] at hfind
        exact .inl (congrArg Path.text (Option.some.inj hfind))
      · rename_i hnone
        rw [hnone] at hfind
        have hfile := List.find?_some hfind
        obtain rfl := List.mem_singleton.1 (List.mem_of_find?_eq_some hfind)
        rw [if_pos hfile, canonicalOr, canonical?_of_resolve hp]
        exact .inr rfl

end Generator

/-- From the generator's directory a text that is not too long leads to what was found. -/
theorem resolve_handed (hcwd : Standing files files.workingDirectory .directory) (h : g.Finds files reference n)
    (hlong : (g.resolveReference files reference).utf8ByteSize ≤ 4095) :
    ∃ bytes stamp, files.resolve ⟨g.resolveReference files reference⟩ = .ok (.entry n (.file bytes stamp)) := by
  obtain ⟨bytes, stamp, hn, p, hp, htext | htext⟩ := h.handed
  · exact ⟨bytes, stamp, by rwa [htext]⟩
  · rw [htext] at hlong ⊢
    have hne : n ≠ [] := by
      rintro rfl
      cases hn
    exact ⟨bytes, stamp, ((hcwd.of_resolve hp).resolve_pathOf hne hlong).2⟩

/-! ## Workspaces -/

/-- A tree with a new directory for the compiler, which works in it and keeps nothing but files there. -/
structure Workspace (files t : FileTree) : Prop where
  vacant : ∀ m, t.workingDirectory <+: m → files.lookup m = none
  same : ∀ m, ¬ t.workingDirectory <+: m → t.lookup m = files.lookup m
  flat : ∀ m, t.workingDirectory <+: m → t.lookup m = some .directory → m = t.workingDirectory

theorem FileTree.lookup_of_mem_visits {names ps m : List String} {e e' : Entry}
    (h : t.walk names e ps = .ok (.entry m e')) : ∀ x ∈ t.visits names e ps, t.lookup x ≠ none := by
  fun_induction visits t names e ps with
  | case1 | case2 => exact fun x hx => absurd hx List.not_mem_nil
  | case3 names p ps hskip ih =>
    rw [walk, if_pos hskip] at h
    exact ih h
  | case4 names ps hskip ih =>
    rw [walk, if_neg hskip, if_pos rfl] at h
    exact ih h
  | case5 => exact fun x hx => absurd hx List.not_mem_nil
  | case6 names p ps hskip hup hlong child hchild ih =>
    rw [walk, if_neg hskip, if_neg hup, if_neg hlong, hchild] at h
    intro x hx
    rcases List.mem_cons.1 hx with rfl | hx
    · rw [hchild]
      exact Option.some_ne_none child
    · exact ih h x hx
  | case7 names p ps hskip hup hlong hnone =>
    rw [walk, if_neg hskip, if_neg hup, if_neg hlong, hnone] at h
    dsimp only at h
    split at h <;> cases h

/-- A path that goes up first. -/
def Path.Climbs (p : Path) : Prop :=
  (Text.split p.text '/').find? (fun s => s ≠ "" ∧ s ≠ ".") = some ".."

instance (p : Path) : Decidable p.Climbs :=
  inferInstanceAs (Decidable (_ = _))

namespace Workspace

variable (h : Workspace files t)
include h

theorem resolve_of_absolute {e : Entry} (habsolute : p.isAbsolute) (hp : files.resolve p = .ok (.entry n e)) :
    t.resolve p = .ok (.entry n e) := by
  obtain ⟨hne, hzero, hlong, hwalk⟩ := resolve_eq_ok_iff.1 hp
  refine resolve_eq_ok_iff.2 ⟨hne, hzero, hlong, ?_⟩
  rw [origin, if_pos habsolute] at hwalk ⊢
  rw [walk_congr fun x hx => h.same x fun hbelow => lookup_of_mem_visits hwalk x hx (h.vacant x hbelow)]
  exact hwalk

theorem outside (hn : files.lookup n = some (.file bytes stamp)) : ¬ t.workingDirectory <+: n := by
  intro hbelow
  rw [h.vacant n hbelow] at hn
  cases hn

/-- There is no way out of the workspace but up. -/
theorem walk_climbs (hout : ¬ t.workingDirectory <+: n) {ps : List String}
    (hwalk : t.walk t.workingDirectory .directory ps = .ok (.entry n (.file bytes stamp))) :
    ps.find? (fun s => s ≠ "" ∧ s ≠ ".") = some ".." := by
  induction ps with
  | nil => cases hwalk
  | cons s ps ih =>
    rw [walk] at hwalk
    split at hwalk
    · rename_i hskip
      rw [List.find?_cons_of_neg (by simpa [or_iff_not_imp_left] using hskip)]
      exact ih hwalk
    · rename_i hplain
      split at hwalk
      · rename_i hup
        subst hup
        rfl
      · split at hwalk
        · cases hwalk
        · have hbelow : t.workingDirectory <+: t.workingDirectory ++ [s] := List.prefix_append _ _
          split at hwalk
          · rename_i child hchild
            cases child with
            | directory =>
              have heq := h.flat _ hbelow hchild
              simp at heq
            | file =>
              -- Nothing comes after a file, so it is the one that the way leads to.
              cases ps with
              | nil =>
                obtain ⟨rfl, -⟩ := Place.entry.inj (Except.ok.inj hwalk)
                exact absurd hbelow hout
              | cons => cases hwalk
          · split at hwalk <;> cases hwalk

theorem climbs (hn : files.lookup n = some (.file bytes stamp)) {b : ByteArray} {k : Nat}
    (hp : t.resolve p = .ok (.entry n (.file b k))) (hrelative : ¬ p.isAbsolute) : p.Climbs := by
  obtain ⟨-, -, -, hwalk⟩ := resolve_eq_ok_iff.1 hp
  rw [origin, if_neg hrelative] at hwalk
  exact h.walk_climbs (h.outside hn) hwalk

theorem slash_mem (hn : files.lookup n = some (.file bytes stamp)) {b : ByteArray} {k : Nat}
    (hp : t.resolve p = .ok (.entry n (.file b k))) : '/' ∈ p.text.toList := by
  by_contra hslash
  have hrelative : ¬ p.isAbsolute := fun habs =>
    hslash ((List.isPrefixOf_iff_prefix.1 habs).mem (List.mem_singleton_self '/'))
  have hclimbs := h.climbs hn hp hrelative
  have hsplit : Text.split p.text '/' = [p.text] := by
    simp [Text.split, Text.pieces_of_not_mem hslash]
  obtain ⟨-, hzero, -, hwalk⟩ := resolve_eq_ok_iff.1 hp
  rw [hsplit] at hwalk
  rw [Path.Climbs, hsplit] at hclimbs
  have hup := List.mem_singleton.1 (List.mem_of_find?_eq_some hclimbs)
  rw [← List.nil_append [p.text]] at hwalk
  exact (walk_concat_file hslash hzero hwalk).1.ne_dots hup.symm

end Workspace

/-- The tree as a process sees it that works in this directory. -/
def FileTree.enter (t : FileTree) (d : List String) : FileTree :=
  { t with workingDirectory := d }

theorem FileTree.lookup_enter (t : FileTree) (d m : List String) : (t.enter d).lookup m = t.lookup m :=
  rfl

theorem workspace_put {d : List String} (hd : ∀ m, d <+: m → files.lookup m = none) :
    Workspace files ((files.put d .directory).enter d) := by
  have hput := files.lookup_put (ne_nil_of_vacant (hd d (List.prefix_refl d))) .directory
  refine ⟨hd, fun m hm => (hput m).trans (if_neg ?_), fun m hm hdir => ?_⟩
  · rintro rfl
    exact hm (List.prefix_refl m)
  · by_contra hne
    have hnone := (hput m).trans (if_neg hne)
    rw [hd m hm] at hnone
    cases hdir.symm.trans hnone

namespace ProcessCompiler

theorem directory_of_put {m : List String} (h : (put t p bytes).lookup m = some .directory) :
    t.lookup m = some .directory := by
  unfold put at h
  split at h
  · rename_i t' hwritten
    obtain ⟨k, hk⟩ := writes_of_write hwritten
    rw [hk.lookup] at h
    split at h
    · cases h
    · exact h
  · exact h

/-- A file that is put into the workspace leaves it one. -/
theorem workspace_of_put {workspace : Path} {d : List String} (hopen : Opened t workspace d)
    (h : Workspace files (t.enter d)) (name : String) (hslash : '/' ∉ name.toList) (bytes : ByteArray) :
    Opened (put t (workspace.join ⟨name⟩) bytes) workspace d ∧
      Workspace files ((put t (workspace.join ⟨name⟩) bytes).enter d) := by
  obtain ⟨hopen', hsame⟩ := hopen.put name hslash bytes
  refine ⟨hopen', h.vacant, fun m hm => ?_, fun m hm hdir => ?_⟩
  · rw [lookup_enter, ← h.same m hm, lookup_enter]
    refine hsame m ?_
    rintro rfl
    exact hm (List.prefix_append _ _)
  · rw [lookup_enter] at hdir
    exact h.flat m hm ((lookup_enter t d m).trans (directory_of_put hdir))

/-- The compiler starts in such a workspace. -/
theorem workspace_staged {workspace : Path} {d : List String} (h : Fresh files workspace d)
    (hd : ∀ m, d <+: m → files.lookup m = none) (source args : String) :
    Workspace files ((staged files workspace source args).enter d) := by
  have hmade : Workspace files ((files.makeDirectories workspace).1.enter d) := by
    rw [h.makeDirectories]
    exact workspace_put hd
  obtain ⟨hopen, hmade⟩ := workspace_of_put h.opened.1 hmade "unit.rs" (by decide) source.toUTF8
  obtain ⟨hopen, hmade⟩ := workspace_of_put hopen hmade "unit.args" (by decide) args.toUTF8
  obtain ⟨hopen, hmade⟩ := workspace_of_put hopen hmade "rustc.stdout" (by decide) .empty
  exact (workspace_of_put hopen hmade "rustc.stderr" (by decide) .empty).2

end ProcessCompiler

/-! ## What a text of a reference stands for -/

namespace Text

theorem cut_append {a b : String} (h : '=' ∉ a.toList) : cut (a ++ "=" ++ b) '=' = some (a, b) := by
  have hcut := cutChars_append h b.toList
  rw [cut, String.toList_append, String.toList_append, List.append_assoc]
  simp [hcut]

theorem exists_cut {s : String} {sep : Char} {a b : String} (h : cut s sep = some (a, b)) :
    s.toList = a.toList ++ sep :: b.toList ∧ sep ∉ a.toList := by
  obtain ⟨⟨a, b⟩, hcut, he⟩ := Option.map_eq_some_iff.1 h
  obtain ⟨rfl, rfl⟩ := Prod.mk.inj he
  rw [String.toList_ofList, String.toList_ofList]
  exact ⟨eq_of_cutChars hcut, not_mem_of_cutChars hcut⟩

theorem exists_append_of_mem {s : String} (h : '=' ∈ s.toList) :
    ∃ a b, s = a ++ "=" ++ b ∧ '=' ∉ a.toList := by
  obtain ⟨a, b, hs, ha⟩ := List.eq_append_cons_of_mem h
  refine ⟨String.ofList a, String.ofList b, ?_, by rwa [String.toList_ofList]⟩
  rw [← String.toList_inj, hs]
  simp

theorem mem_of_mem_dropPrefix {start s : String} {c : Char} (h : c ∈ ((dropPrefix? start s).getD s).toList) :
    c ∈ s.toList := by
  unfold dropPrefix? at h
  dsimp only at h
  split at h
  · rw [Option.getD_some, String.toList_ofList] at h
    exact List.mem_of_mem_drop h
  · exact h

end Text

namespace Reference

theorem mem_of_mem_nameOf {c : Char} (h : c ∈ (nameOf p).toList) : c ∈ p.text.toList := by
  have hstem : ∀ {c : Char}, c ∈ (p.stem?.getD "").toList → c ∈ p.text.toList := by
    intro c hc
    cases hname : p.name? with
    | none =>
      rw [Path.stem?, hname] at hc
      cases hc
    | some name =>
      rw [Path.stem?, hname] at hc
      obtain ⟨front, hends⟩ := Path.endsIn_of_name hname
      exact hends.text.mem (List.mem_append_right _ ((Path.stem_start name).mem hc))
  unfold nameOf at h
  dsimp only at h
  split at h
  · rename_i name rest hcut
    have hbare : c ∈ ((Text.dropPrefix? "lib" (p.stem?.getD "")).getD (p.stem?.getD "")).toList := by
      rw [(Text.exists_cut hcut).1]
      exact List.mem_append_left _ h
    exact hstem (Text.mem_of_mem_dropPrefix hbare)
  · exact hstem (Text.mem_of_mem_dropPrefix h)

theorem equals_not_mem_nameOf (h : '=' ∉ text.toList) : '=' ∉ (nameOf ⟨text⟩).toList :=
  fun hmem => h (mem_of_mem_nameOf (p := ⟨text⟩) hmem)

theorem ofText_equals {crate : String} (h : '=' ∉ crate.toList) (path : String) :
    ofText (crate ++ "=" ++ path) = ⟨Text.trim crate, some ⟨Text.trim path⟩⟩ := by
  rw [ofText, Text.cut_append h]

theorem ofText_plain (h : '=' ∉ text.toList) : ofText text =
    if 1 < (Path.mk text).components.length ∨ (Path.mk text).extension?.isSome then ⟨nameOf ⟨text⟩, some ⟨text⟩⟩
    else ⟨text, none⟩ := by
  rw [ofText, Text.cut, Text.cutChars_of_not_mem h]
  rfl

end Reference

namespace ProcessCompiler

/-! ## The directories -/

theorem mem_addDirectory {dirs : List Path} {r : Reference} {dir : Path} (h : dir ∈ dirs) :
    dir ∈ addDirectory dirs r := by
  unfold addDirectory
  split
  · exact h
  · split
    · exact h
    · exact List.mem_append_left _ h

theorem exists_same_addDirectory {r : Reference} {dir : Path} (h : r.path.bind Path.parent? = some dir)
    (hne : dir.text ≠ "") (dirs : List Path) : ∃ dir' ∈ addDirectory dirs r, dir'.same dir := by
  unfold addDirectory
  rw [h]
  dsimp only
  split
  · rename_i hthere
    rcases hthere with hempty | hany
    · exact absurd (by simpa using hempty) hne
    · exact List.any_eq_true.1 hany
  · exact ⟨dir, by simp, beq_self_eq_true _⟩

theorem exists_same_searched {ps : CompilerParameters} {dir : Path} (hmem : text ∈ ps.references)
    (h : (Reference.ofText text).path.bind Path.parent? = some dir) (hne : dir.text ≠ "") :
    ∃ dir' ∈ searched ps, dir'.same dir := by
  have hkeep : ∀ (rs : List Reference) (dirs : List Path), (∃ dir' ∈ dirs, dir'.same dir) →
      ∃ dir' ∈ rs.foldl addDirectory dirs, dir'.same dir := by
    intro rs
    induction rs with
    | nil => exact fun _ h => h
    | cons r rs ih =>
      rintro dirs ⟨dir', hdir', hsame⟩
      exact ih _ ⟨dir', mem_addDirectory hdir', hsame⟩
  obtain ⟨before, after, hsplit⟩ := List.append_of_mem hmem
  rw [searched, hsplit, List.map_append, List.map_cons, List.foldl_append, List.foldl_cons]
  exact hkeep _ _ (exists_same_addDirectory h hne _)

/-! ## What is linked -/

section
variable (o : CompilerOptions) (source output : Path) (ps : CompilerParameters) (before after : List String)

def ahead : List String :=
  ownArguments o source output ps ++ externs before

def behind : List String :=
  externs after ++ (searched ps).map (fun dir => "-Ldependency=" ++ dir.text) ++ listed o ++ ps.extraOptions

theorem arguments_around (h : ps.references = before ++ [text] ++ after) : arguments o source output ps =
    ahead o source output ps before ++ ["--extern", externValue (.ofText text)] ++ behind o ps after := by
  rw [arguments_eq, h]
  simp [externs, ahead, behind]

end

def LeadsTo (t : FileTree) (p : Path) (n : List String) : Prop :=
  ∃ bytes stamp, t.resolve p = .ok (.entry n (.file bytes stamp))

/-- Between two parts of the arguments stands one `--extern`, with a path that leads to this file, and
the second part has an option for the directory of the file. -/
def Linked (t : FileTree) (n args front back : List String) : Prop :=
  ∃ crate path, args = front ++ ["--extern", crate ++ "=" ++ path.text] ++ back ∧ '=' ∉ crate.toList ∧
    LeadsTo t path n ∧ ∃ parent, path.parent? = some parent ∧
      t.resolve parent = .ok (.entry n.dropLast .directory) ∧ ∃ dir : Path, dir.same parent ∧ "-Ldependency=" ++ dir.text ∈ back

/-- The text of a path that leads to the same place from every directory. -/
structure Straight (text : String) : Prop where
  noEquals : '=' ∉ text.toList
  absolute : (Path.mk text).isAbsolute
  short : text.utf8ByteSize ≤ 4095

/-- The path goes up from the workspace and comes to the file, or what stands behind an equals sign does. -/
def ByChance (t : FileTree) (n : List String) (text : String) : Prop :=
  '=' ∉ text.toList ∧ (Path.mk text).Climbs ∧ LeadsTo t ⟨text⟩ n ∨
    ∃ crate path, text = crate ++ "=" ++ path ∧ '=' ∉ crate.toList ∧ LeadsTo t ⟨Text.trim path⟩ n

section
variable {o : CompilerOptions} {source output : Path} {ps : CompilerParameters} {before after : List String}

theorem externValue_path (name : String) (p : Path) : externValue ⟨name, some p⟩ = name ++ "=" ++ p.text :=
  rfl

theorem linked_of_leadsTo (hspace : Workspace files t) (hn : files.lookup n = some (.file bytes stamp))
    (hps : ps.references = before ++ [text] ++ after) (hpath : (Reference.ofText text).path = some p)
    (hcrate : '=' ∉ (Reference.ofText text).name.toList) (hp : LeadsTo t p n) :
    Linked t n (arguments o source output ps) (ahead o source output ps before) (behind o ps after) := by
  obtain ⟨b, k, hresolve⟩ := hp
  obtain ⟨parent, hparent, hne, hdir⟩ := resolve_parent hresolve (hspace.slash_mem hn hresolve)
  have hmem : text ∈ ps.references := by simp [hps]
  obtain ⟨dir, hdirs, hsame⟩ := exists_same_searched hmem (by rwa [hpath]) hne
  refine ⟨_, p, ?_, hcrate, ⟨b, k, hresolve⟩, parent, hparent, hdir, dir, hsame, ?_⟩
  · rw [arguments_around o source output ps before after hps, externValue, hpath]
  · simp only [behind, List.mem_append, List.mem_map]
    exact .inl (.inl (.inr ⟨dir, hdirs, rfl⟩))

theorem linked_of_plain (hspace : Workspace files t) (hn : files.lookup n = some (.file bytes stamp))
    (hps : ps.references = before ++ [text] ++ after) (hplain : '=' ∉ text.toList) (hp : LeadsTo t ⟨text⟩ n) :
    Linked t n (arguments o source output ps) (ahead o source output ps before) (behind o ps after) := by
  obtain ⟨b, k, hresolve⟩ := hp
  obtain ⟨parent, hparent, hne, -⟩ := resolve_parent hresolve (hspace.slash_mem hn hresolve)
  have htext : Reference.ofText text = ⟨Reference.nameOf ⟨text⟩, some ⟨text⟩⟩ := by
    rw [Reference.ofText_plain hplain, if_pos (.inl (Path.one_lt_components hparent hne))]
  refine linked_of_leadsTo hspace hn hps (by rw [htext]) ?_ ⟨b, k, hresolve⟩
  have hcrate := Reference.equals_not_mem_nameOf hplain
  rw [htext]
  dsimp only
  exact hcrate

/-- The value of an option is cut at its first equals sign in one way. -/
theorem value_inj {crate path crate' path' : String} (h : crate ++ "=" ++ path = crate' ++ "=" ++ path')
    (hcrate : '=' ∉ crate.toList) (hcrate' : '=' ∉ crate'.toList) : path = path' := by
  have hcut := Text.cut_append (b := path) hcrate
  rw [h, Text.cut_append hcrate'] at hcut
  exact (Prod.mk.inj (Option.some.inj hcut)).2.symm

/-- **The reference that is found is the one that is linked.** A file that was found for a reference is linked,
from whatever workspace, if its text has no equals sign, begins at the root and is not too long, and otherwise
only if by chance a path from the workspace comes to the same file. -/
theorem linked_iff (hcwd : Standing files files.workingDirectory .directory) (hfinds : g.Finds files reference n)
    (hspace : Workspace files t)
    (hps : ps.references = before ++ [g.resolveReference files reference] ++ after) :
    Linked t n (arguments o source output ps) (ahead o source output ps before) (behind o ps after) ↔
      Straight (g.resolveReference files reference) ∨ ByChance t n (g.resolveReference files reference) := by
  obtain ⟨bytes, stamp, hn, -⟩ := hfinds.handed
  have hhanded := resolve_handed hcwd hfinds
  generalize g.resolveReference files reference = text at hps hhanded ⊢
  constructor
  · rintro ⟨crate, path, hargs, hcrate, ⟨b, k, hpath⟩, -⟩
    rw [arguments_around o source output ps before after hps, List.append_cancel_right_eq,
      List.append_cancel_left_eq] at hargs
    have hvalue : externValue (.ofText text) = crate ++ "=" ++ path.text :=
      (List.cons.inj (List.cons.inj hargs).2).1
    by_cases hplain : '=' ∈ text.toList
    · obtain ⟨crate', path', htext, hcrate'⟩ := Text.exists_append_of_mem hplain
      rw [htext, Reference.ofText_equals hcrate' path', externValue_path] at hvalue
      have hpath' := value_inj hvalue (fun hmem => hcrate' (Text.mem_of_mem_trim hmem)) hcrate
      refine .inr (.inr ⟨crate', path', htext, hcrate', b, k, ?_⟩)
      have hleads : (⟨Text.trim path'⟩ : Path) = path := congrArg Path.mk hpath'
      rwa [hleads]
    · rw [Reference.ofText_plain hplain] at hvalue
      split at hvalue
      · rw [externValue_path] at hvalue
        have htext := value_inj hvalue (Reference.equals_not_mem_nameOf hplain) hcrate
        dsimp only at htext
        subst htext
        by_cases habsolute : path.isAbsolute
        · exact .inl ⟨hplain, habsolute, (resolve_eq_ok_iff.1 hpath).2.2.1⟩
        · exact .inr (.inl ⟨hplain, hspace.climbs hn hpath habsolute, b, k, hpath⟩)
      · refine absurd ?_ hplain
        have htext : text = crate ++ "=" ++ path.text := hvalue
        simp [htext]
  · rintro (hstraight | ⟨hplain, -, hleads⟩ | ⟨crate, path, rfl, hcrate, hleads⟩)
    · obtain ⟨b, k, hresolve⟩ := hhanded hstraight.short
      exact linked_of_plain hspace hn hps hstraight.noEquals
        ⟨b, k, hspace.resolve_of_absolute hstraight.absolute hresolve⟩
    · exact linked_of_plain hspace hn hps hplain hleads
    · have htext := Reference.ofText_equals hcrate path
      refine linked_of_leadsTo hspace hn hps (by rw [htext]) ?_ hleads
      rw [htext]
      dsimp only
      exact fun hmem => hcrate (Text.mem_of_mem_trim hmem)

end

def shelf : FileTree :=
  { entries := [(["d"], .directory), (["d", "libm.rlib"], .file .empty 0)] }

/-- A library that is found through an absolute path is linked, one through a relative path is not. -/
theorem linked_iff_shelf : ∃ t, Workspace shelf t ∧
    Linked t ["d", "libm.rlib"] (arguments {} ⟨"unit.rs"⟩ ⟨"unit"⟩ { references := ["/d/libm.rlib"] })
      (ahead {} ⟨"unit.rs"⟩ ⟨"unit"⟩ { references := ["/d/libm.rlib"] } [])
      (behind {} { references := ["/d/libm.rlib"] } []) ∧
    ¬ Linked t ["d", "libm.rlib"] (arguments {} ⟨"unit.rs"⟩ ⟨"unit"⟩ { references := ["d/libm.rlib"] })
      (ahead {} ⟨"unit.rs"⟩ ⟨"unit"⟩ { references := ["d/libm.rlib"] } [])
      (behind {} { references := ["d/libm.rlib"] } []) := by
  have hspace : Workspace shelf ((shelf.put ["w"] .directory).enter ["w"]) := by
    refine workspace_put fun m hm => ?_
    obtain ⟨rest, rfl⟩ := hm
    simp [lookup, shelf]
  refine ⟨_, hspace, ?_, ?_⟩
  · have hfinds : Generator.Finds { referencePaths := [⟨"/d"⟩] } shelf "m" ["d", "libm.rlib"] :=
      ⟨⟨"/d/libm.rlib"⟩, by decide, .empty, 0, rfl⟩
    exact (linked_iff .root hfinds hspace (by decide)).2 (.inl ⟨by decide, by decide, by decide⟩)
  · have hfinds : Generator.Finds { referencePaths := [⟨"d"⟩] } shelf "m" ["d", "libm.rlib"] :=
      ⟨⟨"d/libm.rlib"⟩, by decide, .empty, 0, rfl⟩
    intro hlinked
    rcases (linked_iff .root hfinds hspace (by decide)).1 hlinked with
      hstraight | ⟨-, hclimbs, -⟩ | ⟨crate, path, htext, -⟩
    · exact absurd hstraight.absolute (by decide)
    · exact absurd hclimbs (by decide)
    · have hmem : '=' ∈ (Generator.resolveReference { referencePaths := [⟨"d"⟩] } shelf "m").toList := by
        simp [htext]
      exact absurd hmem (by decide)

end ProcessCompiler

end Templating
