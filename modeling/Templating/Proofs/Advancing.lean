import Mathlib.Logic.Basic
import Templating.Location

/-!
# Advancing over text

The place after a text is the place after its parts in turn, if no part ends between the two
characters of a line break (`after_append`). Columns that are added to a place count up to the next
line break (`after_addColumns`).
-/

namespace Templating

/-! ## Parts of a text -/

/-- No line break is cut in two between two texts. -/
def Unsplit (a b : List Char) : Prop :=
  a.getLast? = some '\r' → b.head? ≠ some '\n'

theorem unsplit_nil (b : List Char) : Unsplit [] b := by
  intro h
  cases h

theorem unsplit_of_getLast? {a : List Char} {c : Char} (h : a.getLast? = some c) (hc : c ≠ '\r')
    (b : List Char) : Unsplit a b := by
  intro h'
  exact absurd (Option.some.inj (h.symm.trans h')) hc

theorem Unsplit.left {a b c : List Char} (h : Unsplit a (b ++ c)) : Unsplit a b := by
  intro ha hb
  obtain ⟨r, rfl⟩ := List.head?_eq_some_iff.1 hb
  exact h ha rfl

theorem Unsplit.append {a b c : List Char} (h : Unsplit a (b ++ c)) (h' : Unsplit b c) :
    Unsplit (a ++ b) c := by
  intro ha
  cases b with
  | nil => exact h (by simpa using ha)
  | cons x b =>
    refine h' ?_
    rw [List.getLast?_append, List.getLast?_cons] at ha
    rw [List.getLast?_cons]
    simpa using ha

/-- A text without a line break. -/
def OneLine (cs : List Char) : Prop :=
  '\r' ∉ cs ∧ '\n' ∉ cs

instance (cs : List Char) : Decidable (OneLine cs) := inferInstanceAs (Decidable (_ ∧ _))

theorem oneLine_cons {c : Char} {r : List Char} :
    OneLine (c :: r) ↔ ¬ (c = '\r' ∨ c = '\n') ∧ OneLine r := by
  simp only [OneLine, List.mem_cons, not_or, eq_comm (a := c)]
  exact and_and_and_comm

theorem oneLine_append {a b : List Char} : OneLine (a ++ b) ↔ OneLine a ∧ OneLine b := by
  simp only [OneLine, List.mem_append, not_or]
  exact and_and_and_comm

/-! ## Places after a text -/

namespace Location

@[simp] theorem addColumns_zero (l : Location) : l.addColumns 0 = l := by
  simp [addColumns]

theorem addColumns_addColumns (l : Location) (m n : Int) :
    (l.addColumns m).addColumns n = l.addColumns (m + n) := by
  simp [addColumns, Int.add_assoc]

theorem addColumns_eq_self_iff {l : Location} {n : Nat} : l.addColumns n = l ↔ n = 0 := by
  constructor
  · intro h
    have := congrArg Location.column h
    simp only [addColumns] at this
    omega
  · rintro rfl
    exact addColumns_zero l

theorem step_of_not_lineBreak (l : Location) {c : Char} (h : ¬ (c = '\r' ∨ c = '\n')) :
    l.step c = l.nextColumn := by
  rw [step, if_neg h]

theorem after_cons {l : Location} {c : Char} {r : List Char} (h : c = '\r' → r.head? ≠ some '\n') :
    l.after (c :: r) = (l.step c).after r := by
  rw [after]
  rintro r' rfl rfl
  exact h rfl rfl

theorem after_append (l : Location) {a b : List Char} (h : Unsplit a b) :
    l.after (a ++ b) = (l.after a).after b := by
  fun_induction after l a with
  | case1 l => rfl
  | case2 l r ih =>
    refine ih fun hr => h ?_
    cases r with
    | nil => cases hr
    | cons x r => simpa [List.getLast?_cons] using hr
  | case3 l c r hc ih =>
    have hcut : c = '\r' → (r ++ b).head? ≠ some '\n' := by
      intro e hn
      cases r with
      | nil => exact h (by simp [e]) hn
      | cons x r => exact hc r e (by rw [Option.some.inj hn])
    rw [List.cons_append, after_cons hcut]
    refine ih fun hr => h ?_
    cases r with
    | nil => cases hr
    | cons x r => simpa [List.getLast?_cons] using hr

theorem file_after (l : Location) (cs : List Char) : (l.after cs).file = l.file := by
  fun_induction after l cs with
  | case1 => rfl
  | case2 l r ih => exact ih
  | case3 l c r _ ih =>
    rw [ih]
    unfold step
    split <;> rfl

/-- Columns that are added first get lost at a line break. -/
theorem after_addColumns (l : Location) (n : Int) (cs : List Char) :
    (l.addColumns n).after cs = (l.after cs).addColumns (if OneLine cs then n else 0) := by
  fun_induction after l cs with
  | case1 l => rfl
  | case2 l r ih => exact (addColumns_zero _).symm
  | case3 l c r hc ih =>
    have hcut : c = '\r' → r.head? ≠ some '\n' := by
      intro e hn
      obtain ⟨r', rfl⟩ := List.head?_eq_some_iff.1 hn
      exact hc r' e rfl
    rw [after_cons hcut]
    by_cases hb : c = '\r' ∨ c = '\n'
    · rw [if_neg (by simp [oneLine_cons, hb]), addColumns_zero, step, step, if_pos hb, if_pos hb]
      rfl
    · have hs : (l.addColumns n).step c = (l.step c).addColumns n := by
        rw [step, step, if_neg hb, if_neg hb, nextColumn, nextColumn, addColumns_addColumns,
          addColumns_addColumns, Int.add_comm]
      rw [hs, ih]
      simp only [oneLine_cons, hb, not_false_eq_true, true_and]

end Location

end Templating
