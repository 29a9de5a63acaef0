import Mathlib
import Templating.Generation
import Templating.Proofs.Canonical
import Templating.Proofs.Lookups
import Templating.Proofs.Nesting
import Templating.Proofs.Origins

/-!
# Where includes are looked for

An include is looked for beside the file that asks for it, then beside the root template, then in the include
paths, at every depth (`includes_in_order`). Beside the root template it is the resolved path that is tried. That
makes no difference where the path as it is written is short enough to be opened (`load_documented`), but else it
does (`documented_not_included`).
-/

namespace Templating

/-! ## Looking for an include -/

namespace Generator

variable {g : Generator} {files : FileTree} {file : Option String} {f root : String}

/-- Where an include is looked for: its own path if that is absolute, or else beside the file that asks for
it, beside the root template, and in the include paths. -/
def searched (g : Generator) (files : FileTree) (file : Option String) (f : String) : List Path :=
  if (Path.mk f).isAbsolute then [⟨f⟩]
  else besides file f ++ files.canonicalOr (g.fromTemplate ⟨f⟩) :: g.includePaths.map (·.join ⟨f⟩)

/-- The same, with the path beside the root template as it is written. -/
def documented (g : Generator) (file : Option String) (f : String) : List Path :=
  if (Path.mk f).isAbsolute then [⟨f⟩]
  else besides file f ++ g.fromTemplate ⟨f⟩ :: g.includePaths.map (·.join ⟨f⟩)

/-- The text of a file under its canonical name, if it can be read. -/
def readInclude (files : FileTree) (p : Path) : Option Include :=
  (files.readTemplate p).toOption.map fun content => ⟨content, (files.canonicalOr p).text⟩

theorem readInclude_of_read {p : Path} {content : String} (h : files.readTemplate p = .ok content) :
    readInclude files p = some ⟨content, (files.canonicalOr p).text⟩ := by
  rw [readInclude, h]
  rfl

theorem readInclude_of_unread {p : Path} (h : ∀ content, files.readTemplate p ≠ .ok content) :
    readInclude files p = none := by
  cases hread : files.readTemplate p with
  | ok content => exact absurd hread (h content)
  | error e =>
    rw [readInclude, hread]
    rfl

theorem readInclude_canonicalOr {p : Path} (habs : p.isAbsolute) (h : files.isFile p) :
    readInclude files (files.canonicalOr p) = readInclude files p := by
  rw [readInclude, readInclude, FileTree.readTemplate_canonicalOr habs h, FileTree.canonicalOr_canonicalOr habs h]

theorem load_includes (g : Generator) (files : FileTree) : (g.includes files).load = g.loadInclude files := by
  rw [includes]

theorem loadInclude_eq (g : Generator) (files : FileTree) (request : String) :
    g.loadInclude files request =
      ((g.includeCandidates files request).find? files.isFile).bind (readInclude files) := by
  unfold loadInclude
  cases (g.includeCandidates files request).find? files.isFile with
  | none => rfl
  | some p =>
    dsimp only [Option.bind_some, readInclude]
    cases files.readTemplate p <;> rfl

theorem includeCandidates_of_relative (h : ¬ (Path.mk f).isAbsolute) : g.includeCandidates files f =
    files.canonicalOr (g.fromTemplate ⟨f⟩) :: g.includePaths.map (·.join ⟨f⟩) := by
  simp only [includeCandidates, resolvePath, if_neg h]
  rfl

theorem includeCandidates_of_absolute (h : (Path.mk f).isAbsolute) : g.includeCandidates files f = [⟨f⟩] := by
  simp only [includeCandidates, resolvePath, if_pos h]

/-- What is loaded for an include is the first file among the places where it is looked for. -/
theorem load_eq (habs : ∀ name ∈ file, (Path.mk name).isAbsolute) :
    g.loadInclude files (Template.request files file f) =
      ((g.searched files file f).find? files.isFile).bind (readInclude files) := by
  unfold searched
  by_cases hf : (Path.mk f).isAbsolute
  · have hrequest : Template.request files file f = f := by
      unfold Template.request
      split
      · rfl
      · rw [if_pos hf]
    rw [if_pos hf, hrequest, loadInclude_eq, includeCandidates_of_absolute hf]
  · rw [if_neg hf]
    have hplain : g.loadInclude files f = ((files.canonicalOr (g.fromTemplate ⟨f⟩) ::
        g.includePaths.map (·.join ⟨f⟩)).find? files.isFile).bind (readInclude files) := by
      rw [loadInclude_eq, includeCandidates_of_relative hf]
    unfold Template.request besides
    cases hdir : file.bind fun f => (Path.mk f).parent? with
    | none => exact hplain
    | some dir =>
      dsimp only
      rw [if_neg hf, if_neg hf, List.singleton_append, List.find?_cons]
      cases hbeside : files.isFile (dir.join ⟨f⟩) with
      | false => exact hplain
      | true =>
        -- The request is now a canonical name, so the host looks for that alone and finds the same file.
        obtain ⟨name, hname, hparent⟩ := Option.bind_eq_some_iff.1 hdir
        have hdirectory := Path.isAbsolute_parent (habs name hname) hparent
        have hjoined : (dir.join ⟨f⟩).isAbsolute := Path.isAbsolute_join hdirectory
        have hcandidates : g.includeCandidates files (files.canonicalOr (dir.join ⟨f⟩)).text =
            [files.canonicalOr (dir.join ⟨f⟩)] :=
          includeCandidates_of_absolute (FileTree.isAbsolute_canonicalOr hbeside)
        rw [if_pos rfl, loadInclude_eq, hcandidates, List.find?_cons,
          FileTree.isFile_canonicalOr hjoined (FileTree.size_of_isFile hbeside), hbeside]
        exact readInclude_canonicalOr hjoined hbeside

/-- Where the path beside the root template is short enough to be opened, it may stay as it is written. -/
theorem load_documented (habs : ∀ name ∈ file, (Path.mk name).isAbsolute)
    (hroot : (g.fromTemplate ⟨f⟩).isAbsolute) (hshort : (g.fromTemplate ⟨f⟩).text.utf8ByteSize ≤ 4095) :
    g.loadInclude files (Template.request files file f) =
      ((g.documented file f).find? files.isFile).bind (readInclude files) := by
  rw [load_eq habs]
  unfold searched documented
  split
  · rfl
  · rw [List.find?_append, List.find?_append, List.find?_cons, List.find?_cons,
      FileTree.isFile_canonicalOr hroot hshort]
    cases hfile : files.isFile (g.fromTemplate ⟨f⟩) with
    | false => rfl
    | true =>
      cases (besides file f).find? files.isFile with
      | some p => rfl
      | none =>
        rw [Option.none_or]
        exact readInclude_canonicalOr hroot hfile

theorem isAbsolute_of_load {request : String} {i : Include} (h : g.loadInclude files request = some i) :
    (Path.mk i.name).isAbsolute := by
  rw [loadInclude_eq] at h
  obtain ⟨p, hp, hread⟩ := Option.bind_eq_some_iff.1 h
  obtain ⟨content, -, rfl⟩ := Option.map_eq_some_iff.1 hread
  exact FileTree.isAbsolute_canonicalOr (List.find?_some hp)

end Generator

/-! ## Texts in their files -/

namespace Reader

variable {g : Generator} {files : FileTree} {root : String} {r : Reader} {x : OpenText} {texts : List OpenText}

/-- The stack names the files of the open texts, the root's last, by their absolute paths, and a text has its
segments in its own file. -/
structure Filed (root : String) (r : Reader) : Prop where
  root : r.stack.getLast? = some root
  names : r.texts ≠ [] → r.texts.map (·.file) = r.stack.map some
  absolute : ∀ name ∈ r.stack, (Path.mk name).isAbsolute
  segments : ∀ x ∈ r.texts, ∀ s, .segment s ∈ x.items → s.Within x.file

theorem Filed.file_absolute (h : Filed root r) (hr : r.texts = x :: texts) :
    ∃ name ∈ r.stack, x.file = some name ∧ (Path.mk name).isAbsolute := by
  have hmem : x.file ∈ r.stack.map some := by
    rw [← h.names (by simp [hr]), hr]
    exact List.mem_cons_self
  obtain ⟨name, hname, hfile⟩ := List.mem_map.1 hmem
  exact ⟨name, hname, hfile.symm, h.absolute name hname⟩

theorem Filed.advance {item : Item} {items : List Item} (h : Filed root r) (hr : r.texts = x :: texts)
    (hitems : x.items = item :: items) (t : Template) :
    Filed root { r with template := t, texts := { x with items } :: texts } := by
  refine ⟨h.root, fun _ => ?_, h.absolute, ?_⟩
  · rw [← h.names (by simp [hr]), hr]
    rfl
  · have hsegments := h.segments
    rw [hr, List.forall_mem_cons] at hsegments
    refine List.forall_mem_cons.2 ⟨fun s hs => hsegments.1 s ?_, hsegments.2⟩
    rw [hitems]
    exact List.mem_cons_of_mem _ hs

theorem Filed.leave {y z : OpenText} (h : Filed root r) (hr : r.texts = x :: y :: texts)
    (hfile : z.file = y.file) (hitems : z.items ⊆ y.items) :
    Filed root { r with stack := r.stack.tail, texts := z :: texts } := by
  have hnames := h.names (by simp [hr])
  have hsegments := h.segments
  rw [hr] at hnames hsegments
  obtain ⟨hy, hrest⟩ := List.forall_mem_cons.1 (List.forall_mem_cons.1 hsegments).2
  -- The stack loses its first name with the first text, but never the root's, which is its last.
  cases hstack : r.stack with
  | nil => simp [hstack] at hnames
  | cons name names =>
    have hlast := h.root
    rw [hstack] at hlast hnames
    have htail := congrArg List.tail hnames
    have hne : names ≠ [] := by
      rintro rfl
      simp at hnames
    refine ⟨?_, fun _ => ?_, fun m hm => h.absolute m ?_, List.forall_mem_cons.2 ⟨fun s hs => ?_, hrest⟩⟩
    · rwa [List.getLast?_cons_of_ne_nil hne] at hlast
    · rw [List.map_cons, hfile]
      exact htail
    · exact hstack ▸ List.mem_cons_of_mem _ hm
    · rw [hfile]
      exact hy s (hitems hs)

theorem Filed.close (h : Filed root r) (hr : r.texts = x :: texts) (fault? : Option SyntaxFault) :
    Filed root (r.close fault? texts) := by
  cases texts with
  | nil => exact ⟨h.root, fun hne => absurd rfl hne, h.absolute, by simp [Reader.close]⟩
  | cons y texts =>
    cases fault? with
    | none => exact h.leave hr rfl (List.Subset.refl _)
    | some fault => exact h.leave hr rfl (List.nil_subset _)

theorem Filed.enter {i : Include} (h : Filed root r) (hr : r.texts ≠ []) (hi : (Path.mk i.name).isAbsolute) :
    Filed root { r with stack := i.name :: r.stack, texts := ofInclude i :: r.texts } := by
  refine ⟨?_, fun _ => ?_, List.forall_mem_cons.2 ⟨hi, h.absolute⟩, List.forall_mem_cons.2 ⟨?_, h.segments⟩⟩
  · rw [List.getLast?_cons, h.root]
    rfl
  · rw [List.map_cons, List.map_cons, h.names hr]
    rfl
  · exact fun s hs => Item.segment_within (some i.name) i.content hs

theorem Filed.step (h : Filed root r) : Filed root (r.step files (g.includes files)) := by
  unfold Reader.step
  split
  · exact h
  · rename_i x texts hr
    split
    · exact h.close hr _
    · rename_i item items hitems
      have hadvance := h.advance hr hitems
      unfold Reader.read
      split
      · exact hadvance _
      · exact hadvance _
      · split
        · split
          · exact hadvance _
          · rename_i i hi
            obtain ⟨f, -, hload⟩ := Template.request_of_included hi
            exact (hadvance r.template).enter (by simp) (Generator.isAbsolute_of_load hload)
        · exact hadvance _

theorem Filed.steps (h : Filed root r) (n : ℕ) : Filed root ((Reader.step files (g.includes files))^[n] r) := by
  induction n with
  | zero => exact h
  | succ n ih =>
    rw [Function.iterate_succ_apply']
    exact ih.step

theorem filed_start (habs : (Path.mk root).isAbsolute) (text : String) :
    Filed root (start { root := some root } (.ofText (some root) text)) := by
  refine ⟨rfl, fun _ => rfl, by simpa [start] using habs, ?_⟩
  simp only [start, List.mem_singleton]
  rintro x rfl s hs
  exact Item.segment_within (some root) text hs

/-! ## What becomes of an include -/

variable {d : Directive} {f : String}

/-- How a reader goes on from an include of `f`, with the text that asks for it past the directive. -/
structure Looks (g : Generator) (files : FileTree) (r : Reader) (x : OpenText) (texts : List OpenText)
    (d : Directive) (f : String) : Prop where
  missing : (∀ p content, (g.searched files x.file f).find? files.isFile = some p →
      files.readTemplate p ≠ .ok content) →
    r.step files (g.includes files) = { r with
      template := { r.template with errors := r.template.errors ++
        [.error "TT1004" ("Could not resolve include file '" ++ f ++ "'.") d.start] }
      texts := x :: texts }
  cycle : ∀ p content, (g.searched files x.file f).find? files.isFile = some p →
    files.readTemplate p = .ok content → (files.canonicalOr p).text ∈ r.stack →
    r.step files (g.includes files) = { r with
      template := { r.template with errors := r.template.errors ++
        [.error "TT1005" ("include cycle detected: '" ++ (files.canonicalOr p).text ++ "'") d.start] }
      texts := x :: texts }
  opened : ∀ p content, (g.searched files x.file f).find? files.isFile = some p →
    files.readTemplate p = .ok content → (files.canonicalOr p).text ∉ r.stack →
    r.step files (g.includes files) = { r with
      stack := (files.canonicalOr p).text :: r.stack
      texts := ofInclude ⟨content, (files.canonicalOr p).text⟩ :: x :: texts }

section
variable {source : IncludeSource} {items : List Item} (hr : r.texts = x :: texts)
  (hitems : x.items = .segment (.directive d) :: items) (hd : d.isNamed "include")
include hr hitems hd

theorem step_refused {e : Template.IncludeError}
    (he : Template.included files source r.stack x.file d = .error e) :
    r.step files source = { r with
      template := r.template.logError e.code e.message d.start, texts := { x with items } :: texts } := by
  simp only [Reader.step, hr, hitems, Reader.read, if_pos hd, he]

theorem step_opened {i : { i : Include // i.name ∈ source.names ∧ i.name ∉ r.stack }}
    (hi : Template.included files source r.stack x.file d = .ok i) :
    r.step files source = { r with
      stack := i.val.name :: r.stack, texts := ofInclude i.val :: { x with items } :: texts } := by
  simp only [Reader.step, hr, hitems, Reader.read, if_pos hd, hi]

end

theorem Filed.load (h : Filed root r) (hr : r.texts = x :: texts) (f : String) :
    (g.includes files).load (Template.request files x.file f) =
      ((g.searched files x.file f).find? files.isFile).bind (Generator.readInclude files) := by
  obtain ⟨name, -, hfile, habs⟩ := h.file_absolute hr
  refine Generator.load_eq fun m hm => ?_
  rw [hfile, Option.mem_some] at hm
  exact hm ▸ habs

theorem Filed.place_start {items : List Item} (h : Filed root r) (hr : r.texts = x :: texts)
    (hitems : x.items = .segment (.directive d) :: items) (t : Template) : t.place d.start = d.start := by
  obtain ⟨name, -, hfile, -⟩ := h.file_absolute hr
  have hwithin := h.segments x (by simp [hr]) (.directive d) (by simp [hitems])
  cases hwithin with
  | directive hstart =>
    rw [Template.place, if_pos]
    rw [hstart, hfile]
    rfl

theorem Filed.looks {items : List Item} (h : Filed root r) (hr : r.texts = x :: texts)
    (hitems : x.items = .segment (.directive d) :: items) (hd : d.isNamed "include")
    (hlength : d.attributes.length = 1) (hf : d.attribute? "file" = some f) :
    Looks g files r { x with items } texts d f := by
  have hload : (g.includes files).load (Template.request files x.file f) = _ := h.load hr f
  have hplace := h.place_start hr hitems
  have hfound : ∀ p content, (g.searched files x.file f).find? files.isFile = some p →
      files.readTemplate p = .ok content → (g.includes files).load (Template.request files x.file f) =
        some ⟨content, (files.canonicalOr p).text⟩ := by
    intro p content hp hread
    rw [hload, hp, Option.bind_some, Generator.readInclude_of_read hread]
  constructor
  case missing =>
    intro hnone
    have hnothing : (g.includes files).load (Template.request files x.file f) = none := by
      rw [hload, Option.bind_eq_none_iff]
      exact fun p hp => Generator.readInclude_of_unread fun content => hnone p content hp
    rw [step_refused hr hitems hd (Template.included_of_unresolved hlength hf hnothing), Template.logError, hplace]
    rfl
  case cycle =>
    intro p content hp hread hactive
    have hincluded : Template.included files (g.includes files) r.stack x.file d = _ :=
      Template.included_of_load hlength hf (hfound p content hp hread)
    rw [dif_pos hactive] at hincluded
    rw [step_refused hr hitems hd hincluded, Template.logError, hplace]
    rfl
  case opened =>
    intro p content hp hread hfresh
    have hincluded : Template.included files (g.includes files) r.stack x.file d = _ :=
      Template.included_of_load hlength hf (hfound p content hp hread)
    rw [dif_neg hfresh] at hincluded
    exact step_opened hr hitems hd hincluded

end Reader

namespace Generator

variable {g : Generator} {files : FileTree} {root : String}

/-- The root template of a generator that has read one is known by its absolute path. -/
theorem root_of_start {w w' : Generation} {input : Path} {text : String} (h : w.start input = (some text, w')) :
    ∃ root, w'.generator.templateFile = some root ∧ (Path.mk root).isAbsolute := by
  unfold Generation.start at h
  dsimp only at h
  split at h
  · rename_i text' hread
    obtain ⟨-, rfl⟩ := Prod.mk.inj h
    obtain ⟨n, bytes, stamp, hresolve⟩ := FileTree.exists_of_readTemplate hread
    refine ⟨_, rfl, ?_⟩
    rw [FileTree.canonicalOr_of_resolve hresolve]
    exact FileTree.isAbsolute_pathOf n
  · cases (Prod.mk.inj h).1

/-- A text of the root template, and what is included in it, after some steps of reading. -/
def reading (g : Generator) (files : FileTree) (text : String) (n : ℕ) : Reader :=
  (Reader.step files (g.includes files))^[n] (.start { root := g.templateFile } (.ofText g.templateFile text))

/-- **The order of includes.** Reading ends with the parsed template. At every step, however deep, the open texts are
those of the files on the stack, with their segments, and an include of `f` opens the first file among the places
where it is looked for, under its canonical name. One of the open files is refused as a cycle, and where there is
no file, or none that can be read, that is the one error that is added, at the directive. -/
theorem includes_in_order (hroot : g.templateFile = some root) (habs : (Path.mk root).isAbsolute)
    (text : String) :
    (∃ n, g.reading files text n =
      ⟨(Template.parse { root } files (g.includes files) (.ofText root text)).1, [root], [],
        (Template.parse { root } files (g.includes files) (.ofText root text)).2⟩) ∧
    ∀ n, (g.reading files text n).Filed root ∧ ∀ x texts items d f,
      (g.reading files text n).texts = x :: texts → x.items = .segment (.directive d) :: items →
      d.isNamed "include" → d.attributes.length = 1 → d.attribute? "file" = some f →
      (g.reading files text n).Looks g files { x with items } texts d f := by
  unfold reading
  rw [hroot]
  refine ⟨Reader.reads_parse _ _, fun n => ?_⟩
  have hfiled : Reader.Filed root ((Reader.step files (g.includes files))^[n] _) :=
    (Reader.filed_start habs text).steps n
  exact ⟨hfiled, fun x texts items d f => hfiled.looks⟩

def rooted : Generator := { templateFile := some "/a.tt" }

/-- A file in `/lib` that asks for a file beside it, which is beside the root as well. -/
def beside : FileTree where
  entries :=
    [(["lib"], .directory), (["lib", "b.txt"], .file "<#@ include file='c.txt' #>".toUTF8 0),
      (["lib", "c.txt"], .file "x".toUTF8 1), (["c.txt"], .file "y".toUTF8 2)]
  clock := 3

def includeOf (file f : String) (column : ℕ) : Directive where
  name := "include"
  attributes := [("file", f)]
  start := ⟨some file, 1, 5⟩
  tagStart := ⟨some file, 1, 1⟩
  ending := ⟨some file, 1, column⟩

theorem readTemplate_beside : beside.readTemplate ⟨"/lib/b.txt"⟩ = .ok "<#@ include file='c.txt' #>" ∧
    beside.readTemplate ⟨"/lib/c.txt"⟩ = .ok "x" :=
  ⟨FileTree.readTemplate_of_read rfl rfl, FileTree.readTemplate_of_read rfl rfl⟩

theorem includes_in_order_beside : rooted.templateFile = some "/a.tt" ∧ (Path.mk "/a.tt").isAbsolute ∧
    (rooted.reading beside "<#@ include file='lib/b.txt' #>" 2).stack = ["/lib/c.txt", "/lib/b.txt", "/a.tt"] := by
  have hroot : rooted.templateFile = some "/a.tt" := rfl
  have habs : (Path.mk "/a.tt").isAbsolute := by decide
  have hreads := (@includes_in_order rooted beside "/a.tt" hroot habs "<#@ include file='lib/b.txt' #>").2
  have hstep : ∀ n, rooted.reading beside "<#@ include file='lib/b.txt' #>" (n + 1) =
      (rooted.reading beside "<#@ include file='lib/b.txt' #>" n).step beside (rooted.includes beside) :=
    fun n => Function.iterate_succ_apply' _ n _
  have houter : Item.ofTokens none (Scanner.ofText (some "/a.tt") "<#@ include file='lib/b.txt' #>").stream.tokens =
      [.segment (.directive (includeOf "/a.tt" "lib/b.txt" 32))] := by cbv
  have hinner : Item.ofTokens none (Scanner.ofText (some "/lib/b.txt") "<#@ include file='c.txt' #>").stream.tokens =
      [.segment (.directive (includeOf "/lib/b.txt" "c.txt" 28))] := by cbv
  have hlib : (rooted.searched beside (some "/a.tt") "lib/b.txt").find? beside.isFile = some ⟨"/lib/b.txt"⟩ := by
    decide +kernel
  have hbeside : (rooted.searched beside (some "/lib/b.txt") "c.txt").find? beside.isFile = some ⟨"/lib/c.txt"⟩ := by
    decide +kernel
  have hb : beside.canonicalOr ⟨"/lib/b.txt"⟩ = ⟨"/lib/b.txt"⟩ := rfl
  have hc : beside.canonicalOr ⟨"/lib/c.txt"⟩ = ⟨"/lib/c.txt"⟩ := rfl
  have hfirst := (hreads 0).2 _ _ _ _ "lib/b.txt" rfl houter (by cbv) rfl (by cbv)
  have hone := (hstep 0).trans (hfirst.opened ⟨"/lib/b.txt"⟩ _ hlib readTemplate_beside.1 (by decide))
  rw [hb] at hone
  have hsecond := (hreads 1).2 _ _ _ _ "c.txt" (congrArg Reader.texts hone) hinner (by cbv) rfl (by cbv)
  have htwo := (hstep 1).trans (hsecond.opened ⟨"/lib/c.txt"⟩ _ hbeside readTemplate_beside.2
    (by rw [hone, hc]; decide))
  rw [hc] at htwo
  refine ⟨hroot, habs, (congrArg Reader.stack htwo).trans ?_⟩
  rw [hone]
  rfl

end Generator

/-! ## Paths that are too long -/

namespace FileTree

variable {t : FileTree} {name : String} {e : List String}

/-- A name with a dot and a slash in front of it, again and again. -/
def dotted (name : String) : ℕ → String
  | 0 => name
  | n + 1 => "./" ++ dotted name n

theorem utf8ByteSize_dotted (name : String) (n : ℕ) : (dotted name n).utf8ByteSize = 2 * n + name.utf8ByteSize := by
  induction n with
  | zero => simp [dotted]
  | succ n ih =>
    have hdot : "./".utf8ByteSize = 2 := by decide
    rw [dotted, String.utf8ByteSize_append, ih, hdot]
    omega

theorem mem_dotted {c : Char} (n : ℕ) (hdot : c ≠ '.') (hslash : c ≠ '/') :
    c ∈ (dotted name n).toList ↔ c ∈ name.toList := by
  induction n with
  | zero => rfl
  | succ n ih => simp [dotted, ih, hdot, hslash]

theorem walk_dotted (n : ℕ) : t.walk e .directory (Text.split (dotted name n) '/') =
    t.walk e .directory (Text.split name '/') := by
  induction n with
  | zero => rfl
  | succ n ih =>
    have hsplit : Text.split (dotted name (n + 1)) '/' = "." :: Text.split (dotted name n) '/' := by
      simp [Text.split, dotted, Text.pieces]
    rw [hsplit, walk, if_pos (.inr rfl), ih]

/-- Dots do not change where a path leads, but may keep it from being opened. -/
theorem canonical?_dotted (a name : String) (n : ℕ) (habs : (Path.mk (a ++ "/")).isAbsolute)
    (hdir : t.walk [] .directory (Text.split a '/') = .ok (.entry e .directory)) :
    t.canonical? ⟨a ++ "/" ++ dotted name n⟩ = t.canonical? ⟨a ++ "/" ++ name⟩ := by
  have hsplit : ∀ s : String, Text.split (a ++ "/" ++ s) '/' = Text.split a '/' ++ Text.split s '/' := by
    intro s
    simp [Text.split, Text.pieces_append]
  have horigin : ∀ s : String, t.origin ⟨a ++ "/" ++ s⟩ = [] := by
    intro s
    rw [origin, if_pos]
    exact Path.isAbsolute_of_prefix habs (by simp)
  have hwalk : ∀ s : String, t.walk (t.origin ⟨a ++ "/" ++ s⟩) .directory (Text.split (a ++ "/" ++ s) '/') =
      t.walk e .directory (Text.split s '/') := by
    intro s
    rw [horigin, hsplit, walk_append hdir]
  have hzero : '\x00' ∈ (a ++ "/" ++ dotted name n).toList ↔ '\x00' ∈ (a ++ "/" ++ name).toList := by
    simp only [String.toList_append, List.mem_append, mem_dotted n (by decide : '\x00' ≠ '.') (by decide)]
  have hempty : ∀ s : String, (a ++ "/" ++ s).isEmpty = false := by simp
  unfold canonical? names
  by_cases h : '\x00' ∈ (a ++ "/" ++ name).toList
  · simp only [hempty, if_pos h, if_pos (hzero.2 h), Bool.false_eq_true, if_false]
  · simp only [hempty, if_neg h, if_neg (mt hzero.1 h), Bool.false_eq_true, if_false, hwalk, walk_dotted]

end FileTree

namespace Generator

/-- In `/lib` a file asks for one of the two that are called `x.txt`. -/
def twice (n : ℕ) : FileTree where
  entries :=
    [(["a.tt"], .file "<#@ include file='lib/inc.tt' #>".toUTF8 0), (["lib"], .directory),
      (["lib", "inc.tt"], .file ("<#@ include file='" ++ FileTree.dotted "x.txt" n ++ "' #>").toUTF8 1),
      (["lib", "x.txt"], .file "x".toUTF8 2), (["x.txt"], .file "y".toUTF8 3)]
  clock := 4

/-- The directive of that file. -/
def farInclude (n : ℕ) : Directive :=
  includeOf "/lib/inc.tt" (FileTree.dotted "x.txt" n) (2 * n + 26)

theorem not_isAbsolute_dotted (n : ℕ) : ¬ (Path.mk (FileTree.dotted "x.txt" n)).isAbsolute := by
  rw [Path.isAbsolute_iff]
  cases n <;> simp [FileTree.dotted]

theorem besides_dotted (n : ℕ) : besides (some "/lib/inc.tt") (FileTree.dotted "x.txt" n) =
    [⟨"/lib" ++ "/" ++ FileTree.dotted "x.txt" n⟩] := by
  have hparent : Path.parent? ⟨"/lib/inc.tt"⟩ = some ⟨"/lib"⟩ := by cbv
  have hplain : ¬ (("/lib" : String).isEmpty ∨ Text.endsWith "/" "/lib") := by decide
  simp only [besides, Option.bind_some, hparent, if_neg (not_isAbsolute_dotted n), Path.join]
  rw [if_neg hplain]

theorem fromTemplate_dotted (n : ℕ) : rooted.fromTemplate ⟨FileTree.dotted "x.txt" n⟩ =
    ⟨"/" ++ FileTree.dotted "x.txt" n⟩ := by
  have hparent : Path.parent? ⟨"/a.tt"⟩ = some ⟨"/"⟩ := by cbv
  have hslash : ("/" : String).isEmpty ∨ Text.endsWith "/" "/" := by decide
  simp only [fromTemplate, templateDirectory, rooted, Option.bind_some, hparent,
    if_neg (not_isAbsolute_dotted n), Path.join]
  rw [if_pos hslash]

section
variable {n : ℕ}

theorem isFile_dotted (a : String) (hn : 2046 ≤ n) : (twice n).isFile ⟨a ++ FileTree.dotted "x.txt" n⟩ = false := by
  apply Bool.eq_false_iff.2
  intro h
  have hsize := FileTree.size_of_isFile h
  have hname : "x.txt".utf8ByteSize = 5 := by decide
  rw [String.utf8ByteSize_append, FileTree.utf8ByteSize_dotted, hname] at hsize
  omega

theorem canonicalOr_dotted (n : ℕ) :
    (twice n).canonicalOr ⟨"/" ++ FileTree.dotted "x.txt" n⟩ = ⟨"/x.txt"⟩ := by
  have hroot := FileTree.canonical?_dotted (t := twice n) "" "x.txt" n rfl rfl
  rw [String.empty_append] at hroot
  rw [FileTree.canonicalOr, hroot]
  rfl

theorem readInclude_twice (n : ℕ) : readInclude (twice n) ⟨"/x.txt"⟩ = some ⟨"y", "/x.txt"⟩ := by
  have hread : (twice n).readTemplate ⟨"/x.txt"⟩ = .ok "y" := FileTree.readTemplate_of_read rfl rfl
  exact readInclude_of_read hread

theorem load_dotted (hn : 2046 ≤ n) : (rooted.includes (twice n)).load
    (Template.request (twice n) (some "/lib/inc.tt") (FileTree.dotted "x.txt" n)) = some ⟨"y", "/x.txt"⟩ := by
  have habs : ∀ name ∈ some "/lib/inc.tt", (Path.mk name).isAbsolute := by decide
  have hfile : (twice n).isFile ⟨"/x.txt"⟩ = true := rfl
  rw [load_includes, load_eq habs, searched, if_neg (not_isAbsolute_dotted n), besides_dotted,
    fromTemplate_dotted, canonicalOr_dotted, List.singleton_append, List.find?_cons, isFile_dotted _ hn,
    List.find?_cons, hfile]
  exact readInclude_twice n

theorem not_isFile_documented (hn : 2046 ≤ n) :
    ∀ p ∈ rooted.documented (some "/lib/inc.tt") (FileTree.dotted "x.txt" n), (twice n).isFile p = false := by
  unfold documented
  rw [if_neg (not_isAbsolute_dotted n), besides_dotted, fromTemplate_dotted]
  simp [rooted, isFile_dotted _ hn]

theorem canonical?_documented (n : ℕ) :
    (rooted.documented (some "/lib/inc.tt") (FileTree.dotted "x.txt" n)).head?.bind (twice n).canonical? =
      some ⟨"/lib/x.txt"⟩ := by
  unfold documented
  rw [if_neg (not_isAbsolute_dotted n), besides_dotted]
  exact FileTree.canonical?_dotted "/lib" "x.txt" n rfl rfl

theorem included_dotted (hn : 2046 ≤ n) :
    (Template.included (twice n) (rooted.includes (twice n)) ["/lib/inc.tt", "/a.tt"] (some "/lib/inc.tt")
      (farInclude n)).map (·.val) = .ok ⟨"y", "/x.txt"⟩ := by
  have hfile : (farInclude n).attribute? "file" = some (FileTree.dotted "x.txt" n) := by
    have hsame : Text.sameIgnoringCase "file" "file" := by cbv
    simp [Directive.attribute?, farInclude, includeOf, hsame]
  have hlength : (farInclude n).attributes.length = 1 := rfl
  have hfresh : "/x.txt" ∉ ["/lib/inc.tt", "/a.tt"] := by decide
  rw [Template.map_included, Template.asked, if_pos hlength, hfile]
  dsimp only
  rw [load_dotted hn]
  dsimp only
  rw [if_neg hfresh]

end

/-- None of the documented paths can be opened, and the first of them leads to another file than the one that is
included. -/
theorem documented_not_included :
    (∀ p ∈ rooted.documented (some "/lib/inc.tt") (FileTree.dotted "x.txt" 2100), (twice 2100).isFile p = false) ∧
    (rooted.documented (some "/lib/inc.tt") (FileTree.dotted "x.txt" 2100)).head?.bind (twice 2100).canonical? =
      some ⟨"/lib/x.txt"⟩ ∧
    (Template.included (twice 2100) (rooted.includes (twice 2100)) ["/lib/inc.tt", "/a.tt"] (some "/lib/inc.tt")
      (farInclude 2100)).map (·.val) = .ok ⟨"y", "/x.txt"⟩ := by
  have hlong : 2046 ≤ 2100 := by decide
  exact ⟨not_isFile_documented hlong, canonical?_documented 2100, included_dotted hlong⟩

end Generator

end Templating
