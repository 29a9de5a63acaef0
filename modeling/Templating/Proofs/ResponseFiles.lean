import Mathlib
import Templating.ToolSettings
import Templating.Proofs.Compiling
import Templating.Proofs.Directories

/-!
# Arguments in a response file

The arguments of a compilation are the lines of a file. They are read back as they were given just if none
holds a line feed, none but the last ends in a carriage return, and the last is not empty
(`lines_join_iff`). The extra arguments of the settings go through lines once more and are trimmed there
(`listedArguments_join_iff`). Nothing keeps a line feed out of a reference (`arrives_iff`).
-/

namespace Templating

namespace Text

/-! ## Lines that are joined -/

theorem toList_join (ss : List String) : (join "\n" ss).toList = ['\n'].intercalate (ss.map String.toList) := by
  fun_induction join "\n" ss with
  | case1 => rfl
  | case2 s => simp
  | case3 s rest hrest ih =>
    rw [String.toList_append, String.toList_append, ih, List.map_cons,
      List.intercalate_cons_of_ne_nil (by simpa using hrest)]
    rfl

theorem chomp_eq_self_iff {l : List Char} : chomp l = l ↔ l.getLast? ≠ some '\r' := by
  refine ⟨fun h hlast => ?_, chomp_of_plainEnd⟩
  obtain ⟨a, rfl⟩ := List.getLast?_eq_some_iff.1 hlast
  have hlength := congrArg List.length h
  simp [chomp] at hlength

theorem newline_not_mem_lines {s l : String} (h : l ∈ lines s) : '\n' ∉ l.toList := by
  obtain ⟨ps, q, hpieces⟩ : ∃ ps q, pieces '\n' s.toList = ps ++ [q] := by
    obtain ⟨ps, q, h⟩ := (List.eq_nil_or_concat (pieces '\n' s.toList)).resolve_left (pieces_ne_nil _ _)
    exact ⟨ps, q, by rw [h, List.concat_eq_append]⟩
  have hplain : ∀ p ∈ ps ++ [q], '\n' ∉ p := fun p hp => not_mem_of_mem_pieces (hpieces ▸ hp)
  rw [lines, hpieces, chomped_concat] at h
  obtain ⟨p, hp, rfl⟩ := List.mem_map.1 h
  rw [String.toList_ofList]
  rcases List.mem_append.1 hp with hp | hp
  · obtain ⟨piece, hpiece, rfl⟩ := List.mem_map.1 hp
    have hstart := chomp_prefix piece
    exact fun hmem => hplain piece (List.mem_append_left _ hpiece) (hstart.mem hmem)
  · by_cases hq : q = []
    · rw [if_pos hq] at hp
      cases hp
    · rw [if_neg hq] at hp
      obtain rfl := List.mem_singleton.1 hp
      exact hplain p (by simp)

theorem map_ofList_eq_iff {ls : List (List Char)} {ss : List String} :
    ls.map String.ofList = ss ↔ ls = ss.map String.toList := by
  constructor
  · rintro rfl
    simp [Function.comp_def]
  · rintro rfl
    simp [Function.comp_def]

/-- Lines that are joined are read back as they are just if none holds a line feed, none but the last
ends in a carriage return, and the last is not empty. -/
theorem lines_join_iff (init : List String) (last : String) :
    lines (join "\n" (init ++ [last])) = init ++ [last] ↔
    (∀ l ∈ init ++ [last], '\n' ∉ l.toList) ∧ (∀ l ∈ init, l.toList.getLast? ≠ some '\r') ∧ last ≠ "" := by
  have hread (h : ∀ l ∈ init ++ [last], '\n' ∉ l.toList) : lines (join "\n" (init ++ [last])) = init ++ [last] ↔
      (∀ l ∈ init, l.toList.getLast? ≠ some '\r') ∧ last ≠ "" := by
    have hpieces : pieces '\n' (join "\n" (init ++ [last])).toList = init.map String.toList ++ [last.toList] := by
      rw [toList_join, pieces_intercalate (by simp) (List.forall_mem_map.2 h), List.map_append]
      rfl
    rw [lines, hpieces, chomped_concat, map_ofList_eq_iff, List.map_append, List.map_map]
    by_cases hlast : last = ""
    · subst hlast
      refine iff_of_false (fun he => ?_) (by simp)
      have hlength := congrArg List.length he
      simp at hlength
    · rw [if_neg (by simpa using hlast), List.map_singleton, List.append_left_inj]
      simp [List.map_inj_left, chomp_eq_self_iff, hlast]
  constructor
  · intro h
    have hplain : ∀ l ∈ init ++ [last], '\n' ∉ l.toList := by
      intro l hl
      rw [← h] at hl
      exact newline_not_mem_lines hl
    exact ⟨hplain, (hread hplain).1 h⟩
  · rintro ⟨hplain, hrest⟩
    exact (hread hplain).2 hrest

/-! ## Trimming -/

theorem toList_trim (s : String) : (trim s).toList = (s.toList.dropWhile isBlank).rdropWhile isBlank := by
  rw [trim, String.toList_ofList]
  rfl

theorem mem_of_mem_trim {s : String} {c : Char} (h : c ∈ (trim s).toList) : c ∈ s.toList := by
  rw [toList_trim] at h
  exact (List.dropWhile_sublist _).mem ((List.rdropWhile_prefix _ _).mem h)

theorem trim_trim (s : String) : trim (trim s) = trim s := by
  have hhead : (trim s).toList.dropWhile isBlank = (trim s).toList := by
    rw [List.dropWhile_eq_self_iff, toList_trim]
    intro hlength
    have hd := List.head?_dropWhile_not isBlank s.toList
    obtain ⟨rest, hrest⟩ := List.rdropWhile_prefix isBlank (s.toList.dropWhile isBlank)
    generalize (s.toList.dropWhile isBlank).rdropWhile isBlank = kept at hlength hrest ⊢
    cases kept with
    | nil => cases hlength
    | cons c kept =>
      rw [← hrest] at hd
      simpa using hd
  rw [← String.toList_inj, toList_trim (trim s), hhead, toList_trim, List.rdropWhile_idempotent]

theorem plainEnd_of_trim {s : String} (h : trim s = s) : s.toList.getLast? ≠ some '\r' := by
  intro hlast
  have hblank : isBlank '\r' := by decide
  rw [← h, toList_trim] at hlast
  obtain ⟨hne, hr⟩ := List.mem_getLast?_eq_getLast hlast
  exact List.rdropWhile_last_not _ _ hne (hr ▸ hblank)

end Text

/-! ## Files in a fresh directory -/

namespace FileTree

variable {t : FileTree} {dir : Path} {d : List String} {name : String}

structure Lookable (dir : Path) (name : String) : Prop extends EntryName name where
  reachable : (dir.join ⟨name⟩).text.utf8ByteSize ≤ 4095

section
variable (h : Lookable dir name) (hdir : t.resolve dir = .ok (.entry d .directory))
include h hdir

theorem steps_join : ∃ ps, steps (dir.join ⟨name⟩) = .ok (ps ++ [name]) ∧
    t.walk (t.origin (dir.join ⟨name⟩)) .directory ps = .ok (.entry d .directory) := by
  obtain ⟨-, hzero, -, -⟩ := resolve_eq_ok_iff.1 hdir
  obtain ⟨ps, hjoined, hwalk⟩ := split_below hdir h.isName.noSlash
  obtain ⟨front, -, htext, hfront⟩ := Path.join_of_relative (p := dir) (q := ⟨name⟩) h.isName.noSlash
  have hzero' : '\x00' ∉ (dir.join ⟨name⟩).text.toList := by
    rw [htext, String.toList_append, String.toList_ofList, List.mem_append, not_or]
    refine ⟨?_, h.noZero⟩
    rcases hfront with rfl | ⟨rfl, -⟩
    · exact hzero
    · simpa using hzero
  have hempty : (dir.join ⟨name⟩).text.isEmpty = false := by
    rw [htext, Bool.eq_false_iff]
    intro he
    have hnil : front ++ name.toList = [] := by simpa using he
    exact h.isName.ne_nil (List.append_eq_nil_iff.1 hnil).2
  refine ⟨ps, ?_, hwalk⟩
  simp [steps, FileTree.names, hempty, hzero', h.reachable, hjoined]

theorem resolve_join_of_lookup {e : Entry} (he : t.lookup (d ++ [name]) = some e) :
    t.resolve (dir.join ⟨name⟩) = .ok (.entry (d ++ [name]) e) := by
  obtain ⟨ps, hsteps, hwalk⟩ := steps_join h hdir
  rw [resolve, hsteps]
  dsimp only
  rw [walk_append hwalk, h.toEntryName.walk he]
  rfl

theorem write_join (hfree : t.lookup (d ++ [name]) = none) (bytes : ByteArray) :
    t.write (dir.join ⟨name⟩) bytes = .ok (t.putFile (d ++ [name]) bytes) := by
  obtain ⟨ps, hsteps, hwalk⟩ := steps_join h hdir
  have hslash : t.slashError? (dir.join ⟨name⟩) = none := by
    simp [slashError?, hsteps, mt Or.inl h.toEntryName.not_skip]
  have hresolve : t.resolve (dir.join ⟨name⟩) = .ok (.vacant (d ++ [name])) := by
    rw [resolve, hsteps]
    dsimp only
    rw [walk_append hwalk, walk, if_neg h.toEntryName.not_skip, if_neg h.toEntryName.ne_dots,
      if_neg (Nat.not_lt.2 h.short), hfree]
    rfl
  apply write_of_opens
  rw [opens, hslash, hresolve]

end

end FileTree

namespace ProcessCompiler

/-! ## The file itself -/

def argumentsPath (workspace : Path) : Path :=
  workspace.join ⟨"unit.args"⟩

/-- Nothing is there yet, and the path is short enough to be opened. -/
structure Fresh (files : FileTree) (workspace : Path) (d : List String) : Prop where
  vacant : files.resolve workspace = .ok (.vacant d)
  free : files.lookup (d ++ ["unit.args"]) = none
  reachable : (argumentsPath workspace).text.utf8ByteSize ≤ 4095

structure Opened (t : FileTree) (workspace : Path) (d : List String) : Prop where
  resolve : t.resolve workspace = .ok (.entry d .directory)
  lookup : t.lookup d = some .directory

section
variable {t files : FileTree} {workspace : Path} {d : List String} {name : String}

/-- A file put into the workspace changes nothing else. -/
theorem Opened.put (h : Opened t workspace d) (name : String) (hslash : '/' ∉ name.toList) (bytes : ByteArray) :
    Opened (put t (workspace.join ⟨name⟩) bytes) workspace d ∧
      ∀ n, n ≠ d ++ [name] → (put t (workspace.join ⟨name⟩) bytes).lookup n = t.lookup n := by
  unfold ProcessCompiler.put
  split
  · rename_i t' hwritten
    obtain ⟨m, hm⟩ := FileTree.writes_of_write hwritten
    obtain rfl := hm.below h.resolve hslash
    have hd := hm.keepsDirectories d h.lookup
    refine ⟨⟨?_, hd⟩, fun n hn => by rw [hm.lookup, if_neg hn]⟩
    exact FileTree.resolve_directory hm.keepsDirectories hm.workingDirectory hd (.inr h.resolve)
  · exact ⟨h, fun _ _ => rfl⟩

theorem Fresh.makeDirectories (h : Fresh files workspace d) :
    (files.makeDirectories workspace).1 = files.put d .directory := by
  rw [FileTree.makeDirectories, FileTree.makeDirectory_of_vacant h.vacant]

theorem Fresh.opened (h : Fresh files workspace d) : Opened (files.makeDirectories workspace).1 workspace d ∧
    (files.makeDirectories workspace).1.lookup (d ++ ["unit.args"]) = none := by
  have hlookup := FileTree.lookup_of_resolve_vacant h.vacant
  have hne := FileTree.ne_nil_of_vacant hlookup
  have hd : (files.put d .directory).lookup d = some .directory := by
    rw [files.lookup_put hne, if_pos rfl]
  have hkeeps := (FileTree.makes_put hlookup).keepsDirectories
  rw [h.makeDirectories]
  refine ⟨⟨FileTree.resolve_directory hkeeps rfl hd (.inl h.vacant), hd⟩, ?_⟩
  rw [files.lookup_put hne, if_neg (by simp), h.free]

/-- The response file holds the text that the compiler is started with. -/
theorem read_staged (h : Fresh files workspace d) (source args : String) :
    (staged files workspace source args).read (argumentsPath workspace) = .ok args.toUTF8 := by
  have hname : FileTree.Lookable workspace "unit.args" :=
    ⟨⟨⟨by decide, by decide, by decide, by decide⟩, by decide, by decide⟩, h.reachable⟩
  obtain ⟨hmade, hfree⟩ := h.opened
  obtain ⟨hsourced, hsame₁⟩ := hmade.put "unit.rs" (by decide) source.toUTF8
  have hfree' := (hsame₁ _ (by simp)).trans hfree
  obtain ⟨hwritten, -⟩ := hsourced.put "unit.args" hname.isName.noSlash args.toUTF8
  obtain ⟨hout, hsame₂⟩ := hwritten.put "rustc.stdout" (by decide) .empty
  obtain ⟨herr, hsame₃⟩ := hout.put "rustc.stderr" (by decide) .empty
  have hargs : (put (put (files.makeDirectories workspace).1 (workspace.join ⟨"unit.rs"⟩) source.toUTF8)
      (workspace.join ⟨"unit.args"⟩) args.toUTF8).lookup (d ++ ["unit.args"]) =
        some (.file args.toUTF8 (put (files.makeDirectories workspace).1 (workspace.join ⟨"unit.rs"⟩)
          source.toUTF8).clock) := by
    rw [ProcessCompiler.put, FileTree.write_join hname hsourced.resolve hfree']
    exact (FileTree.lookup_putFile _ (by simp) _ _).trans (if_pos rfl)
  rw [← hsame₂ _ (by simp), ← hsame₃ _ (by simp)] at hargs
  exact FileTree.read_of_resolve (FileTree.resolve_join_of_lookup hname herr.resolve hargs)

end

/-! ## The arguments -/

section
variable (o : CompilerOptions) (source output : Path) (ps : CompilerParameters)

def edition : String :=
  (o.options.get? "edition").getD "2021"

/-- The arguments of any compilation. -/
def ownArguments : List String :=
  [source.text, "--crate-name=texttransform_unit", "--crate-type=" ++ (if ps.executable then "bin" else "lib"),
    "--edition=" ++ edition o, "--error-format=short", "-o", output.text,
    if ps.debugInformation then "-Cdebuginfo=2" else "-Copt-level=1"] ++
  if o.warnAsError then ["-Dwarnings"] else []

def externValue (r : Reference) : String :=
  match r.path with
  | some p => r.name ++ "=" ++ p.text
  | none => r.name

def externs (references : List String) : List String :=
  references.flatMap fun r => ["--extern", externValue (.ofText r)]

def searched : List Path :=
  (ps.references.map Reference.ofText).foldl addDirectory []

def listed : List String :=
  ((o.options.get? "extra-args").map listedArguments).getD []

theorem referenceArguments_eq (r : Reference) : referenceArguments r = ["--extern", externValue r] := by
  unfold referenceArguments externValue
  cases r.path <;> rfl

/-- Each reference stands as one option with one value, in order. -/
theorem arguments_eq : arguments o source output ps = ownArguments o source output ps ++
    externs ps.references ++ (searched ps).map (fun dir => "-Ldependency=" ++ dir.text) ++ listed o ++
    ps.extraOptions := by
  have hreferences : (ps.references.map Reference.ofText).flatMap referenceArguments =
      externs ps.references := by
    rw [List.flatMap_map]
    simp only [referenceArguments_eq]
    rfl
  rw [← hreferences]
  simp [arguments, ownArguments, edition, searched, listed]

/-! ## What line feeds they hold -/

theorem mem_of_parent? {p dir : Path} {c : Char} (h : p.parent? = some dir) (hc : c ∈ dir.text.toList) :
    c ∈ p.text.toList := by
  unfold Path.parent? at h
  split at h
  · cases h
  · cases h
  · obtain rfl := Option.some.inj h
    cases hc
  · obtain rfl := Option.some.inj h
    rw [Path.upTo, String.toList_ofList] at hc
    exact List.mem_of_mem_take hc

theorem mem_foldl_addDirectory {rs : List Reference} {dir : Path} : ∀ {dirs : List Path},
    dir ∈ rs.foldl addDirectory dirs → dir ∈ dirs ∨ ∃ r ∈ rs, r.path.bind Path.parent? = some dir := by
  induction rs with
  | nil => exact fun h => .inl h
  | cons r rs ih =>
    intro dirs h
    rcases ih h with h | ⟨r', hr', hdir⟩
    · unfold addDirectory at h
      split at h
      · exact .inl h
      · rename_i dir' hdir'
        split at h
        · exact .inl h
        · rcases List.mem_append.1 h with h | h
          · exact .inl h
          · exact .inr ⟨r, List.mem_cons_self, List.mem_singleton.1 h ▸ hdir'⟩
    · exact .inr ⟨r', List.mem_cons_of_mem _ hr', hdir⟩

theorem newline_not_mem_searched (h : ∀ r ∈ ps.references, '\n' ∉ (externValue (.ofText r)).toList) :
    ∀ dir ∈ searched ps, '\n' ∉ dir.text.toList := by
  intro dir hdir hmem
  rcases mem_foldl_addDirectory hdir with hdir | ⟨r, hr, hparent⟩
  · cases hdir
  · obtain ⟨text, htext, rfl⟩ := List.mem_map.1 hr
    obtain ⟨p, hp, hparent⟩ := Option.bind_eq_some_iff.1 hparent
    refine h text htext ?_
    rw [externValue, hp]
    simp [mem_of_parent? hparent hmem]

theorem newline_not_mem_listed : ∀ a ∈ listed o, '\n' ∉ a.toList := by
  intro a ha hmem
  unfold listed at ha
  cases hoption : o.options.get? "extra-args" with
  | none =>
    rw [hoption] at ha
    cases ha
  | some text =>
    rw [hoption] at ha
    obtain ⟨line, hline, rfl⟩ := List.mem_map.1 (List.mem_filter.1 ha).1
    exact Text.newline_not_mem_lines hline (Text.mem_of_mem_trim hmem)

/-- No line feed stands in what an argument is made of. -/
structure OneLine : Prop where
  source : '\n' ∉ source.text.toList
  output : '\n' ∉ output.text.toList
  edition : '\n' ∉ (edition o).toList
  references : ∀ r ∈ ps.references, '\n' ∉ (externValue (.ofText r)).toList
  options : ∀ a ∈ ps.extraOptions, '\n' ∉ a.toList

theorem newline_own : (∀ a ∈ ownArguments o source output ps, '\n' ∉ a.toList) ↔
    '\n' ∉ source.text.toList ∧ '\n' ∉ (edition o).toList ∧ '\n' ∉ output.text.toList := by
  have hkind : '\n' ∉ (if ps.executable then "bin" else "lib").toList := by split <;> decide
  have hlevel : '\n' ∉ (if ps.debugInformation then "-Cdebuginfo=2" else "-Copt-level=1").toList := by
    split <;> decide
  rw [ownArguments, List.forall_mem_append]
  simp only [List.forall_mem_cons, String.toList_append, List.mem_append, hkind, hlevel]
  simp

theorem oneLine_iff : (∀ a ∈ arguments o source output ps, '\n' ∉ a.toList) ↔ OneLine o source output ps := by
  have hextern : (∀ a ∈ externs ps.references, '\n' ∉ a.toList) ↔
      ∀ r ∈ ps.references, '\n' ∉ (externValue (.ofText r)).toList := by
    simp only [externs, List.forall_mem_flatMap, List.forall_mem_cons]
    simp
  have hsearch : (∀ r ∈ ps.references, '\n' ∉ (externValue (.ofText r)).toList) →
      ∀ a ∈ (searched ps).map (fun dir => "-Ldependency=" ++ dir.text), '\n' ∉ a.toList := by
    intro h a ha
    obtain ⟨dir, hdir, rfl⟩ := List.mem_map.1 ha
    simpa using newline_not_mem_searched ps h dir hdir
  rw [arguments_eq]
  simp only [List.forall_mem_append, newline_own, hextern]
  constructor
  · rintro ⟨⟨⟨⟨⟨hsource, hedition, houtput⟩, hreferences⟩, -⟩, -⟩, hoptions⟩
    exact ⟨hsource, houtput, hedition, hreferences, hoptions⟩
  · intro h
    exact ⟨⟨⟨⟨⟨h.source, h.edition, h.output⟩, h.references⟩, hsearch h.references⟩, newline_not_mem_listed o⟩,
      h.options⟩

end

/-! ## Extra arguments -/

/-- Lines that are joined in an option are listed as they are just if each is one line, trimmed and not
empty. -/
theorem listedArguments_join_iff (args : List String) : listedArguments (Text.join "\n" args) = args ↔
    ∀ a ∈ args, a ≠ "" ∧ '\n' ∉ a.toList ∧ Text.trim a = a := by
  constructor
  · intro h a ha
    rw [← h] at ha
    obtain ⟨hline, hne⟩ := List.mem_filter.1 ha
    obtain ⟨line, hmem, rfl⟩ := List.mem_map.1 hline
    refine ⟨by simpa using hne, fun hnl => ?_, Text.trim_trim line⟩
    exact Text.newline_not_mem_lines hmem (Text.mem_of_mem_trim hnl)
  · intro h
    have hlines : Text.lines (Text.join "\n" args) = args := by
      rcases List.eq_nil_or_concat args with rfl | ⟨init, last, rfl⟩
      · rfl
      · rw [List.concat_eq_append] at h ⊢
        refine (Text.lines_join_iff init last).2 ⟨fun a ha => (h a ha).2.1, fun a ha => ?_, (h last (by simp)).1⟩
        exact Text.plainEnd_of_trim (h a (List.mem_append_left _ ha)).2.2
    have htrim : args.map Text.trim = args := by
      rw [List.map_congr_left fun a ha => (h a ha).2.2, List.map_id']
    rw [listedArguments, hlines, htrim, List.filter_eq_self]
    intro a ha
    simpa using (h a ha).1

theorem listed_of_extra {s : CompilerSettings} (h : s.extraArguments ≠ []) :
    listed s.compilerOptions = listedArguments (Text.join "\n" s.extraArguments) := by
  have hextra : s.extraArguments.isEmpty = false := by simpa using h
  simp [listed, CompilerSettings.compilerOptions, CompilerSettings.namedOptions, hextra, Dictionary.get?_insert]

/-! ## All of them -/

/-- The arguments of a compilation with these settings. -/
def given (s : ToolSettings) (workspace : Path) (ps : CompilerParameters) : List String :=
  arguments s.compiler.compilerOptions (sourcePath workspace) (outputPath workspace ps) ps

/-- Every argument arrives as one argument, unchanged. -/
structure Arrives (s : ToolSettings) (workspace : Path) (ps : CompilerParameters) : Prop where
  readBack : Text.lines (responseFile (given s workspace ps)) = given s workspace ps
  extras : s.compiler.extraArguments ≠ [] → listed s.compiler.compilerOptions = s.compiler.extraArguments

theorem given_ne_nil (s : ToolSettings) (workspace : Path) (ps : CompilerParameters) :
    given s workspace ps ≠ [] :=
  nofun

theorem readBack_iff (s : ToolSettings) (workspace : Path) (ps : CompilerParameters) :
    Text.lines (responseFile (given s workspace ps)) = given s workspace ps ↔
      OneLine s.compiler.compilerOptions (sourcePath workspace) (outputPath workspace ps) ps ∧
      (∀ a ∈ (given s workspace ps).dropLast, a.toList.getLast? ≠ some '\r') ∧
      (given s workspace ps).getLast? ≠ some "" := by
  rw [← oneLine_iff, ← given]
  obtain ⟨init, last, hgiven⟩ := (List.eq_nil_or_concat _).resolve_left (given_ne_nil s workspace ps)
  rw [hgiven, List.concat_eq_append, responseFile, Text.lines_join_iff, List.dropLast_concat,
    List.getLast?_concat, ne_eq, ne_eq, Option.some.injEq]

/-- **Arguments in a response file.** In a fresh workspace the response file holds the arguments, one on a
line. Among them each reference is one `--extern` with one value, in order; what the settings list comes after
them, then the other options. All arrive as they were given if and only if no line feed stands in any, none but
the last ends in a carriage return, the last is not empty, and every extra argument of the settings is one
line, trimmed and not empty. -/
theorem arrives_iff (s : ToolSettings) (tools : Toolchain) (files : FileTree) (source : String)
    (ps : CompilerParameters) :
    (∀ d, Fresh files tools.workspace d →
      (before s.compiler.compilerOptions tools files source ps).read (argumentsPath tools.workspace) =
        .ok (responseFile (given s tools.workspace ps)).toUTF8) ∧
    given s tools.workspace ps =
      ownArguments s.compiler.compilerOptions (sourcePath tools.workspace) (outputPath tools.workspace ps) ps ++
      externs ps.references ++ (searched ps).map (fun dir => "-Ldependency=" ++ dir.text) ++
      listed s.compiler.compilerOptions ++ ps.extraOptions ∧
    (Arrives s tools.workspace ps ↔
      OneLine s.compiler.compilerOptions (sourcePath tools.workspace) (outputPath tools.workspace ps) ps ∧
      (∀ a ∈ (given s tools.workspace ps).dropLast, a.toList.getLast? ≠ some '\r') ∧
      (given s tools.workspace ps).getLast? ≠ some "" ∧
      ∀ a ∈ s.compiler.extraArguments, a ≠ "" ∧ '\n' ∉ a.toList ∧ Text.trim a = a) := by
  refine ⟨fun d hfresh => read_staged hfresh _ _, arguments_eq _ _ _ _, ?_⟩
  have hextras : (s.compiler.extraArguments ≠ [] →
      listed s.compiler.compilerOptions = s.compiler.extraArguments) ↔
      ∀ a ∈ s.compiler.extraArguments, a ≠ "" ∧ '\n' ∉ a.toList ∧ Text.trim a = a := by
    by_cases hnil : s.compiler.extraArguments = []
    · simp [hnil]
    · rw [listed_of_extra hnil, listedArguments_join_iff]
      simp [hnil]
  rw [← hextras, ← and_assoc, ← and_assoc, and_assoc (a := OneLine ..), ← readBack_iff]
  exact ⟨fun h => ⟨h.readBack, h.extras⟩, fun h => ⟨h.1, h.2⟩⟩

example : Fresh {} ⟨"/w"⟩ ["w"] :=
  ⟨rfl, rfl, by decide⟩

/-- A line feed in a reference gives the compiler an option that nobody set. -/
example : Text.lines (responseFile (referenceArguments (.ofText "a\n-Cpanic=abort"))) =
    ["--extern", "a", "-Cpanic=abort"] := by
  decide

end ProcessCompiler

end Templating
