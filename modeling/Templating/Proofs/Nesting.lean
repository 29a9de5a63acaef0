import Mathlib
import Templating.Template

/-!
# Nested includes

A reader keeps the texts that are open and the stack of their names, and goes on item by item. It does
what the expansion of a template does (`reads_expand`). It comes to its end whatever includes what, no
name is ever on its stack twice, and it leaves the stack as it found it (`parse_nests`).
-/

namespace Templating

/-- A text that is being read, with what is left of it. -/
structure OpenText where
  file : Option String
  inside : Bool
  items : List Item
  ending : Option SyntaxFault

/-- The open texts and the names on the stack, the innermost first. Without an open text the reader is
done. -/
structure Reader where
  template : Template
  stack : List String
  texts : List OpenText
  fault? : Option SyntaxFault := none

namespace Reader

def ofInclude (i : Include) : OpenText :=
  let stream := (Scanner.ofText (some i.name) i.content).stream
  ⟨some i.name, true, Item.ofTokens none stream.tokens, stream.fault?⟩

def start (t : Template) (s : Scanner) : Reader :=
  { template := t
    stack := t.root.toList
    texts := [⟨s.location.file, false, Item.ofTokens none s.stream.tokens, s.stream.fault?⟩] }

/-- Ends the innermost text. A fault in an included text ends the including one. -/
def close (r : Reader) (fault? : Option SyntaxFault) : List OpenText → Reader
  | [] =>
    { r with
      template := if fault?.isNone then r.template.placeHelpers else r.template
      texts := []
      fault? }
  | x :: texts =>
    { r with
      stack := r.stack.tail
      texts := (if fault?.isNone then x else { x with items := [], ending := fault? }) :: texts }

section
variable (files : FileTree) (source : IncludeSource)

/-- Reads an item of the innermost text, of which `x` is left. -/
def read (r : Reader) (x : OpenText) (texts : List OpenText) : Item → Reader
  | .namelessValue l => { r with template := r.template.logNameless l, texts := x :: texts }
  | .segment (.text s) =>
    { r with template := r.template.add x.inside (.text s), texts := x :: texts }
  | .segment (.directive d) =>
    if d.isNamed "include" then
      match Template.included files source r.stack x.file d with
      | .error e =>
        { r with template := r.template.logError e.code e.message d.start, texts := x :: texts }
      | .ok i => { r with stack := i.val.name :: r.stack, texts := ofInclude i.val :: x :: texts }
    else { r with template := r.template.add x.inside (.directive d), texts := x :: texts }

def step (r : Reader) : Reader :=
  match r.texts with
  | [] => r
  | x :: texts =>
    match x.items with
    | [] => r.close x.ending texts
    | item :: items => r.read files source { x with items } texts item

end

/-! ## A reader does what an expansion does -/

section
variable {files : FileTree} {source : IncludeSource}

/-- From one reader to another in some steps. -/
def Leads (files : FileTree) (source : IncludeSource) (r r' : Reader) : Prop :=
  ∃ n, (step files source)^[n] r = r'

theorem leads_refl (r : Reader) : Leads files source r r :=
  ⟨0, rfl⟩

theorem Leads.trans {r₁ r₂ r₃ : Reader} (h : Leads files source r₁ r₂) (h' : Leads files source r₂ r₃) :
    Leads files source r₁ r₃ := by
  obtain ⟨m, rfl⟩ := h
  obtain ⟨n, rfl⟩ := h'
  exact ⟨n + m, Function.iterate_add_apply _ n m _⟩

theorem leads_of_step {r r' : Reader} (h : step files source r = r') : Leads files source r r' :=
  ⟨1, h⟩

theorem reads_expand (active : List String) (file : Option String) (inside : Bool)
    (ending : Option SyntaxFault) (t : Template) (items : List Item) : ∀ texts : List OpenText,
    Leads files source ⟨t, active, ⟨file, inside, items, ending⟩ :: texts, none⟩
      ⟨(Template.expand files source active file inside ending t items).1, active,
        ⟨file, inside, [], (Template.expand files source active file inside ending t items).2⟩ :: texts,
        none⟩ := by
  fun_induction Template.expand files source active file inside ending t items with
  | case1 active file inside ending t =>
    intro texts
    exact leads_refl _
  | case2 active file inside ending t l items ih =>
    intro texts
    exact (leads_of_step rfl).trans (ih texts)
  | case3 active file inside ending t s items ih =>
    intro texts
    exact (leads_of_step rfl).trans (ih texts)
  | case4 active file inside ending t d items hd e he ih =>
    intro texts
    refine (leads_of_step ?_).trans (ih texts)
    simp only [step, read, if_pos hd, he]
  | case5 active file inside ending t d items hd i hi stream t' f hx ih =>
    intro texts
    rw [hx] at ih
    -- The fault closes the included text and leaves nothing to read of the including one.
    refine Leads.trans (leads_of_step ?_) ((ih (⟨file, inside, items, ending⟩ :: texts)).trans
      (leads_of_step rfl))
    simp only [step, read, if_pos hd, hi]
    rfl
  | case6 active file inside ending t d items hd i hi stream t' hx ih ih' =>
    intro texts
    rw [hx] at ih
    refine Leads.trans (leads_of_step ?_) ((ih (⟨file, inside, items, ending⟩ :: texts)).trans
      (Leads.trans (leads_of_step rfl) (ih' texts)))
    simp only [step, read, if_pos hd, hi]
    rfl
  | case7 active file inside ending t d items hd ih =>
    intro texts
    refine (leads_of_step ?_).trans (ih texts)
    simp only [step, read, if_neg hd]

theorem reads_parse (t : Template) (s : Scanner) : Leads files source (start t s)
    ⟨(t.parse files source s).1, t.root.toList, [], (t.parse files source s).2⟩ := by
  refine (reads_expand _ _ _ _ _ _ []).trans (leads_of_step ?_)
  unfold Template.parse
  dsimp only
  generalize Template.expand files source t.root.toList s.location.file false s.stream.fault? t
    (Item.ofTokens none s.stream.tokens) = expanded
  obtain ⟨t', _ | f⟩ := expanded <;> rfl

/-! ## The stack -/

/-- The names above the ones that were there before are those of the included texts that are open. -/
structure Nested (source : IncludeSource) (before : List String) (r : Reader) : Prop where
  nodup : r.stack.Nodup
  names : ∃ names, r.stack = names ++ before ∧ names ⊆ source.names ∧
    names.length = r.texts.length - 1

variable {before : List String} {r : Reader}

theorem Nested.of_same {r' : Reader} (h : Nested source before r) (hstack : r'.stack = r.stack)
    (htexts : r'.texts.length = r.texts.length) : Nested source before r' := by
  obtain ⟨names, hnames, hsub, hlen⟩ := h.names
  exact ⟨by rw [hstack]; exact h.nodup, names, by rw [hstack]; exact hnames, hsub, by rw [htexts]; exact hlen⟩

theorem Nested.close {x : OpenText} {texts : List OpenText} (h : Nested source before r)
    (hr : r.texts = x :: texts) (fault? : Option SyntaxFault) :
    Nested source before (r.close fault? texts) := by
  obtain ⟨names, hnames, hsub, hlen⟩ := h.names
  rw [hr] at hlen
  cases texts with
  | nil =>
    exact ⟨h.nodup, names, hnames, hsub, hlen⟩
  | cons y texts =>
    cases names with
    | nil => simp at hlen
    | cons n names =>
      refine ⟨h.nodup.tail, names, ?_, fun m hm => hsub (List.mem_cons_of_mem n hm), ?_⟩
      · show r.stack.tail = names ++ before
        rw [hnames]
        rfl
      · simpa [Reader.close] using hlen

theorem Nested.push {x : OpenText} {texts texts' : List OpenText} {n : String}
    (h : Nested source before r) (hr : r.texts.length = (x :: texts).length) (hn : n ∈ source.names)
    (hfresh : n ∉ r.stack) (htexts : texts'.length = (x :: texts).length + 1) :
    Nested source before { r with stack := n :: r.stack, texts := texts' } := by
  obtain ⟨names, hnames, hsub, hlen⟩ := h.names
  refine ⟨List.nodup_cons.2 ⟨hfresh, h.nodup⟩, n :: names, ?_, ?_, ?_⟩
  · simp [hnames]
  · intro m hm
    rcases List.mem_cons.1 hm with rfl | hm
    · exact hn
    · exact hsub hm
  · rw [hr] at hlen
    simp [hlen, htexts]

theorem Nested.step (h : Nested source before r) : Nested source before (r.step files source) := by
  unfold Reader.step
  split
  · exact h
  · rename_i x texts hr
    split
    · exact h.close hr _
    · rename_i item items hitems
      have hlen : r.texts.length = (x :: texts).length := by rw [hr]
      unfold Reader.read
      split
      · exact h.of_same rfl hlen.symm
      · exact h.of_same rfl hlen.symm
      · split
        · split
          · exact h.of_same rfl hlen.symm
          · rename_i i hi
            exact h.push hlen i.property.1 i.property.2 rfl
        · exact h.of_same rfl hlen.symm

theorem Nested.steps (h : Nested source before r) (n : Nat) :
    Nested source before ((Reader.step files source)^[n] r) := by
  induction n with
  | zero => exact h
  | succ n ih =>
    rw [Function.iterate_succ_apply']
    exact ih.step

theorem nested_start (t : Template) (s : Scanner) : Nested source t.root.toList (start t s) := by
  refine ⟨?_, [], rfl, by simp, rfl⟩
  simp only [start]
  cases t.root <;> simp

/-- Names that differ are no more than there are. -/
theorem Nested.depth_le (h : Nested source before r) : r.texts.length - 1 ≤ source.names.toFinset.card := by
  obtain ⟨names, hnames, hsub, hlen⟩ := h.names
  have hnodup : names.Nodup := by
    have hall := h.nodup
    rw [hnames] at hall
    exact hall.of_append_left
  rw [← hlen, ← List.toFinset_card_of_nodup hnodup]
  apply Finset.card_le_card
  intro m hm
  exact List.mem_toFinset.2 (hsub (List.mem_toFinset.1 hm))

end

end Reader

namespace Template

/-- **Nested includes.** Reading a text ends, with what parsing gives and with the stack that it began
with, whether there was a fault in any of the texts or not. At every moment the names on the stack differ,
and no more included texts are open than there are names of texts. -/
theorem parse_nests (files : FileTree) (source : IncludeSource) (t : Template) (s : Scanner) :
    (∃ n, (Reader.step files source)^[n] (Reader.start t s) =
      ⟨(t.parse files source s).1, (Reader.start t s).stack, [], (t.parse files source s).2⟩) ∧
    ∀ n, ((Reader.step files source)^[n] (Reader.start t s)).stack.Nodup ∧
      ((Reader.step files source)^[n] (Reader.start t s)).texts.length - 1 ≤
        source.names.toFinset.card := by
  refine ⟨Reader.reads_parse t s, fun n => ?_⟩
  have hstart : Reader.Nested source _ (Reader.start t s) := Reader.nested_start t s
  have hnested : Reader.Nested source _ ((Reader.step files source)^[n] (Reader.start t s)) := hstart.steps n
  exact ⟨hnested.nodup, hnested.depth_le⟩

end Template

end Templating
