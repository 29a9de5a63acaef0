import Mathlib
import Templating.Proofs.Programs

/-!
# The stack of indents

The indents of an accumulator are one text, with the sizes of its parts beside it. Whatever is done in
between, they behave as a stack of texts: taking one back gives the last one that still stands, and no
size leads out of the text or into a character (`popIndent_standing`).
-/

namespace Templating

namespace Operation

/-! ## Indents that stand -/

/-- What an operation makes of a stack of indents, the last one first. -/
def onIndents : Operation → List String → List String
  | .pushIndent indent, indents => indent :: indents
  | .popIndent, indents => indents.tail
  | .clearIndent, _ => []
  | _, indents => indents

/-- The indents that were pushed and neither taken back nor cleared, the last one first. -/
def standing (ops : List Operation) : List String :=
  ops.foldl (fun indents op => op.onIndents indents) []

def LeavesIndents (op : Operation) : Prop :=
  (∀ indent, op ≠ .pushIndent indent) ∧ op ≠ .popIndent ∧ op ≠ .clearIndent

/-- Operations that take back the indents they push and no others. -/
inductive Matched : List Operation → Prop
  | nil : Matched []
  | other {op : Operation} {ops : List Operation} (hop : op.LeavesIndents) (h : Matched ops) :
    Matched (op :: ops)
  | pair {indent : String} {inside ops : List Operation} (hinside : Matched inside) (h : Matched ops) :
    Matched (.pushIndent indent :: (inside ++ .popIndent :: ops))

theorem LeavesIndents.onIndents {op : Operation} (h : op.LeavesIndents) (indents : List String) :
    op.onIndents indents = indents := by
  obtain ⟨hpush, hpop, hclear⟩ := h
  unfold Operation.onIndents
  split
  · exact absurd rfl (hpush _)
  · exact absurd rfl hpop
  · exact absurd rfl hclear
  · rfl

theorem leavesIndents_or (op : Operation) : (∃ indent, op = .pushIndent indent) ∨ op = .popIndent ∨
    op = .clearIndent ∨ op.LeavesIndents := by
  cases op <;> simp [LeavesIndents]

theorem Matched.append {xs ys : List Operation} (hx : Matched xs) (hy : Matched ys) :
    Matched (xs ++ ys) := by
  induction hx with
  | nil => exact hy
  | other hop _ ih => exact .other hop ih
  | pair hinside _ _ ih =>
    rw [List.cons_append, List.append_assoc, List.cons_append]
    exact .pair hinside ih

theorem Matched.foldl {ops : List Operation} (h : Matched ops) (indents : List String) :
    ops.foldl (fun indents op => op.onIndents indents) indents = indents := by
  induction h generalizing indents with
  | nil => rfl
  | other hop _ ih => rw [List.foldl_cons, hop.onIndents, ih]
  | @pair indent _ _ _ _ ihinside ih =>
    rw [List.foldl_cons, List.foldl_append, List.foldl_cons, ihinside]
    exact ih indents

theorem standing_concat (ops : List Operation) (op : Operation) :
    standing (ops ++ [op]) = op.onIndents (standing ops) := by
  rw [standing, List.foldl_append]
  rfl

theorem standing_push_matched (before : List Operation) (indent : String) {inside : List Operation}
    (h : Matched inside) :
    standing (before ++ .pushIndent indent :: inside) = indent :: standing before := by
  rw [standing, List.foldl_append, List.foldl_cons, h.foldl]
  rfl

/-- A push that stands on top has only matched operations after it. A pop uncovers the push below, and
the two of them with all between are matched in turn. -/
theorem exists_push_of_standing {ops : List Operation} {indent : String} {below : List String}
    (h : standing ops = indent :: below) : ∃ before inside,
      ops = before ++ .pushIndent indent :: inside ∧ Matched inside ∧ standing before = below := by
  induction hn : ops.length using Nat.strong_induction_on generalizing ops indent below with
  | _ n ih =>
  rcases List.eq_nil_or_concat ops with rfl | ⟨ops, op, rfl⟩
  · cases h
  rw [List.concat_eq_append] at hn h ⊢
  rw [List.length_append, List.length_singleton] at hn
  rw [standing_concat] at h
  rcases leavesIndents_or op with ⟨pushed, rfl⟩ | rfl | rfl | hop
  · obtain ⟨rfl, rfl⟩ := List.cons.inj h
    exact ⟨ops, [], rfl, .nil, rfl⟩
  · obtain ⟨top, hs⟩ : ∃ top, standing ops = top :: indent :: below := by
      cases hs : standing ops with
      | nil => rw [hs] at h; cases h
      | cons top rest => rw [hs] at h; exact ⟨top, congrArg _ h⟩
    obtain ⟨before, inside, rfl, hinside, hbefore⟩ := ih _ (by omega) hs rfl
    have hshorter : before.length < n := by
      rw [List.length_append, List.length_cons] at hn
      omega
    obtain ⟨before', inside', rfl, hinside', hbelow⟩ := ih _ hshorter hbefore rfl
    refine ⟨before', inside' ++ .pushIndent top :: (inside ++ [.popIndent]), by simp, ?_, hbelow⟩
    exact hinside'.append (.pair hinside .nil)
  · cases h
  · rw [hop.onIndents] at h
    obtain ⟨before, inside, rfl, hinside, hbefore⟩ := ih _ (by omega) h rfl
    exact ⟨before, inside ++ [op], by simp, hinside.append (.other hop .nil), hbefore⟩

theorem standing_eq_cons_iff {ops : List Operation} {indent : String} {below : List String} :
    standing ops = indent :: below ↔ ∃ before inside,
      ops = before ++ .pushIndent indent :: inside ∧ Matched inside ∧ standing before = below := by
  refine ⟨exists_push_of_standing, ?_⟩
  rintro ⟨before, inside, rfl, hinside, rfl⟩
  exact standing_push_matched before indent hinside

/-! ## Indents of a run -/

/-- The answers of operations and the accumulator after them. Who catches a crash goes on with the
accumulator as it is. -/
def carryOut (a : Accumulator) : List Operation → List (Except Crash Answer) × Accumulator
  | [] => ([], a)
  | op :: ops => ((op.run a).1 :: (carryOut (op.run a).2 ops).1, (carryOut (op.run a).2 ops).2)

theorem length_carryOut (a : Accumulator) (ops : List Operation) :
    (carryOut a ops).1.length = ops.length := by
  induction ops generalizing a with
  | nil => rfl
  | cons op ops ih => rw [carryOut, List.length_cons, List.length_cons, ih]

theorem carryOut_append (a : Accumulator) (before after : List Operation) :
    carryOut a (before ++ after) = ((carryOut a before).1 ++ (carryOut (carryOut a before).2 after).1,
      (carryOut (carryOut a before).2 after).2) := by
  induction before generalizing a with
  | nil => rfl
  | cons op before ih => rw [List.cons_append, carryOut, ih]; rfl

variable {a a' : Accumulator} {indents : List String}

theorem hasIndents_of_eq (h : a.HasIndents indents) (hi : a'.indent = a.indent)
    (hs : a'.indentSizes = a.indentSizes) : a'.HasIndents indents :=
  ⟨hi.trans h.indent, hs.trans h.sizes⟩

theorem hasIndents_of_writes (h : a.HasIndents indents) (hw : a.Writes a') : a'.HasIndents indents :=
  hasIndents_of_eq h hw.indent hw.sizes

theorem hasIndents_parameter (h : a.HasIndents indents) (type : ParameterType) (name : String) :
    (a.parameter type name).2.HasIndents indents := by
  rcases a.parameter_cases type name with e | ⟨text, e⟩ <;> rw [e]
  · exact h
  · exact hasIndents_of_eq h rfl rfl

/-- One operation does to the text of the indents what it does to the stack. -/
theorem hasIndents_run (h : a.HasIndents indents) (op : Operation) :
    (op.run a).2.HasIndents (op.onIndents indents) := by
  cases op with
  | pushIndent indent =>
    refine ⟨?_, ?_⟩
    · simp [run, onIndents, Accumulator.pushIndent, h.indent]
    · simp [run, onIndents, Accumulator.pushIndent, h.sizes]
  | popIndent =>
    simp only [run, h.popIndent?]
    exact ⟨rfl, rfl⟩
  | clearIndent => exact ⟨rfl, rfl⟩
  | write text => exact hasIndents_of_writes h (a.writes_write text)
  | writeLine text =>
    have hw := a.writes_write text
    exact hasIndents_of_eq h hw.indent hw.sizes
  | writePieces pieces => exact hasIndents_of_writes h (a.writes_foldl pieces)
  | writeSession key => exact hasIndents_of_writes h (a.writes_write _)
  | parameter type name => exact hasIndents_parameter h type name
  | writeParameter type name =>
    exact hasIndents_of_writes (hasIndents_parameter h type name) (Accumulator.writes_write _ _)
  | error | warning | take | session | setSession | sessionValue | setSessionValue | templateFile
  | setTemplateFile | crash => exact hasIndents_of_eq h rfl rfl

theorem hasIndents_carryOut (ops : List Operation) :
    (carryOut {} ops).2.HasIndents (standing ops) := by
  induction ops using List.reverseRecOn with
  | nil => exact ⟨rfl, rfl⟩
  | append_singleton ops op ih =>
    rw [carryOut_append, standing_concat]
    exact hasIndents_run ih op

/-- The size of the last part leads to its beginning. -/
theorem HasIndents.isValid {size : Nat} (h : a.HasIndents indents)
    (hsize : size ∈ a.indentSizes.head?) : size ≤ a.indent.utf8ByteSize ∧
      (⟨a.indent.utf8ByteSize - size⟩ : String.Pos.Raw).IsValid a.indent := by
  cases indents with
  | nil => simp [h.sizes] at hsize
  | cons indent indents =>
    obtain rfl : indent.utf8ByteSize = size := by simpa [h.sizes] using hsize
    have hindent : a.indent = String.join indents.reverse ++ indent := by simp [h.indent]
    rw [hindent, String.utf8ByteSize_append, Nat.add_sub_cancel]
    exact ⟨Nat.le_add_left _ _, String.Pos.Raw.isValid_iff_exists_append.2 ⟨_, _, rfl, rfl⟩⟩

/-- **Indents are a stack.** After any operations on a new accumulator the indent is that of the indents
that stand, in the order of their pushes. Taking one back answers with the last of them, or with
nothing if there is none; what is cut off begins inside the text, at a character. The last indent that
stands is the one whose push has only matched operations after it. -/
theorem popIndent_standing (before after : List Operation) :
    (carryOut {} before).2.indent = String.join (standing before).reverse ∧
    (carryOut {} (before ++ .popIndent :: after)).1[before.length]? =
      some (.ok (.text ((standing before).headD ""))) ∧
    (∀ size ∈ (carryOut {} before).2.indentSizes.head?,
      size ≤ (carryOut {} before).2.indent.utf8ByteSize ∧
      (⟨(carryOut {} before).2.indent.utf8ByteSize - size⟩ : String.Pos.Raw).IsValid
        (carryOut {} before).2.indent) ∧
    ∀ indent below, standing before = indent :: below ↔ ∃ earlier inside,
      before = earlier ++ .pushIndent indent :: inside ∧ Matched inside ∧ standing earlier = below := by
  have h := hasIndents_carryOut before
  refine ⟨h.indent, ?_, fun size hsize => HasIndents.isValid h hsize, fun _ _ => standing_eq_cons_iff⟩
  have hanswer : (run (carryOut {} before).2 .popIndent).1 = .ok (.text ((standing before).headD "")) := by
    simp only [run, h.popIndent?]
  rw [carryOut_append, List.getElem?_append_right (Nat.le_of_eq (length_carryOut _ _)), length_carryOut,
    Nat.sub_self, carryOut, hanswer]
  rfl

/-- An indent of three bytes on one of two, with a crash between. -/
theorem popIndent_standing_arrow :
    3 ∈ (carryOut {} [.pushIndent "é", .crash none, .pushIndent "→"]).2.indentSizes.head? ∧
    3 ≤ (carryOut {} [.pushIndent "é", .crash none, .pushIndent "→"]).2.indent.utf8ByteSize ∧
    (⟨(carryOut {} [.pushIndent "é", .crash none, .pushIndent "→"]).2.indent.utf8ByteSize - 3⟩ :
      String.Pos.Raw).IsValid (carryOut {} [.pushIndent "é", .crash none, .pushIndent "→"]).2.indent := by
  have hsize : 3 ∈ (carryOut {} [.pushIndent "é", .crash none, .pushIndent "→"]).2.indentSizes.head? := rfl
  exact ⟨hsize, (popIndent_standing _ []).2.2.1 3 hsize⟩

/-- An empty indent is taken back too, and then the one before it. -/
example : (carryOut {} [.pushIndent "é", .pushIndent "", .crash none, .write "a\nb", .popIndent,
    .popIndent]).1[5]? = some (.ok (.text "é")) := by
  rfl

end Operation

end Templating
