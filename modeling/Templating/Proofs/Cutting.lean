import Templating.Proofs.Advancing
import Templating.Proofs.Indentation

/-!
# Writing in pieces

An indent is due inside a write wherever a line break ends between two of its characters, and at the
start of a write if a line break or nothing stands before it. So a text may be cut anywhere but between
the two characters of a line break, and is written the same (`write_cut`).
-/

namespace Templating

theorem Unsplit.right {a b c : List Char} (h : Unsplit (a ++ b) c) : Unsplit b c := by
  intro hb
  apply h
  rw [List.getLast?_append, hb]
  rfl

/-- No piece ends between the two characters of a line break, however the pieces around it go on. -/
def KeepsLineBreaks (pieces : List String) : Prop :=
  ∀ n, Unsplit (String.join (pieces.take n)).toList (String.join (pieces.drop n)).toList

theorem KeepsLineBreaks.head {piece : String} {pieces : List String}
    (h : KeepsLineBreaks (piece :: pieces)) : Unsplit piece.toList (String.join pieces).toList := by
  simpa using h 1

theorem KeepsLineBreaks.tail {piece : String} {pieces : List String}
    (h : KeepsLineBreaks (piece :: pieces)) : KeepsLineBreaks pieces := by
  intro n
  have hn := h (n + 1)
  rw [List.take_succ_cons, List.drop_succ_cons, String.join_cons, String.toList_append] at hn
  exact hn.right

/-! ## Indents at a cut -/

namespace Draft

/-- The indent that a cut takes out of one text is the one that is due at the start of the other. -/
theorem indented_append (indent : List Char) {ys : List Char} (hys : ys ≠ []) : ∀ {xs : List Char},
    Unsplit xs ys → indented indent (xs ++ ys) = indented indent xs ++
      ((if xs.getLast?.any Accumulator.isLineBreak then indent else []) ++ indented indent ys)
  | [], _ => rfl
  | [c], h => by
    obtain ⟨d, r, rfl⟩ := List.exists_cons_of_ne_nil hys
    have hcut : c = '\r' → d ≠ '\n' := by
      rintro rfl rfl
      exact h rfl rfl
    have hbreak : (c = '\n' ∨ c = '\r' ∧ d ≠ '\n') ↔ Accumulator.isLineBreak c = true := by
      simp only [Accumulator.isLineBreak, Bool.or_eq_true, decide_eq_true_eq]
      exact or_congr_right (and_iff_left_of_imp hcut)
    have hlast : [c].getLast?.any Accumulator.isLineBreak = Accumulator.isLineBreak c := rfl
    have hone : indented indent [c] = [c] := rfl
    rw [List.singleton_append, hone, hlast, indented]
    by_cases hc : Accumulator.isLineBreak c = true
    · rw [if_pos (hbreak.2 hc), if_pos hc]
      rfl
    · rw [if_neg fun h => hc (hbreak.1 h), if_neg hc]
      rfl
  | c :: d :: xs, h => by
    have hrest : Unsplit (d :: xs) ys := Unsplit.right (a := [c]) h
    have ih := indented_append indent hys hrest
    have hlast : (c :: d :: xs).getLast? = (d :: xs).getLast? := List.getLast?_cons_cons
    rw [List.cons_append] at ih
    rw [List.cons_append, List.cons_append, indented, ih, indented, hlast]
    split <;> simp only [List.cons_append, List.append_assoc]

end Draft

/-! ## Two writes -/

namespace Accumulator

variable {a : Accumulator} {s t : String}

theorem write_empty (a : Accumulator) : a.write "" = a := rfl

theorem indent_write (a : Accumulator) (s : String) : (a.write s).indent = a.indent := by
  rw [write_eq]

/-- What is written is not empty, so the next write looks at its end alone. -/
theorem atLineStart_write (a : Accumulator) (h : s ≠ "") :
    (a.write s).atLineStart = endsInLineBreak s := by
  have hs : s.toList ≠ [] := by simpa using h
  have hne : (a.write s).generated ≠ "" := by
    rw [generated_write a h]
    intro hempty
    have hlist := congrArg String.toList hempty
    rw [String.toList_append, String.toList_ofList] at hlist
    exact Draft.indented_ne_nil _ hs (List.append_eq_nil_iff.1 hlist).2
  have hempty : (a.write s).generated.isEmpty = false := by simpa using hne
  rw [atLineStart, hempty, Bool.false_or, endsWithLineBreak_write a h]

theorem generated_write_write (a : Accumulator) (hs : s ≠ "") (ht : t ≠ "")
    (h : Unsplit s.toList t.toList) :
    ((a.write s).write t).generated = (a.write (s ++ t)).generated := by
  have hst : s ++ t ≠ "" := by simp [hs]
  have hlead : (if endsInLineBreak s then a.indent else "") = String.ofList
      (if s.toList.getLast?.any isLineBreak then a.indent.toList else []) := by
    rw [endsInLineBreak_eq]
    split <;> simp
  rw [generated_write _ ht, generated_write _ hs, generated_write _ hst, atLineStart_write a hs,
    indent_write, String.toList_append, Draft.indented_append _ (by simpa using ht) h,
    String.ofList_append, String.ofList_append, hlead]
  simp only [String.append_assoc]

theorem write_write (a : Accumulator) (h : Unsplit s.toList t.toList) :
    (a.write s).write t = a.write (s ++ t) := by
  by_cases hs : s = ""
  · rw [hs, write_empty, String.empty_append]
  by_cases ht : t = ""
  · rw [ht, write_empty, String.append_empty]
  have hst : s ++ t ≠ "" := by simp [hs]
  have hflag : endsInLineBreak (s ++ t) = endsInLineBreak t := by
    rw [endsInLineBreak_eq, endsInLineBreak_eq, String.toList_append,
      List.getLast?_append_of_ne_nil _ (by simpa using ht)]
  rw [write_eq (a.write s) t, write_eq a (s ++ t), generated_write_write a hs ht h,
    endsWithLineBreak_write _ ht, endsWithLineBreak_write _ hst, hflag, write_eq a s]

theorem foldl_write (a : Accumulator) {pieces : List String} (h : KeepsLineBreaks pieces) :
    pieces.foldl write a = a.write (String.join pieces) := by
  induction pieces generalizing a with
  | nil => exact (write_empty a).symm
  | cons piece pieces ih =>
    rw [List.foldl_cons, ih (a.write piece) h.tail, write_write a h.head, String.join_cons]

/-- **Writing in pieces.** Whatever was written before and whatever the indent, two writes leave what
one write of both texts leaves, unless they cut a line break in two. So does a formatted write of any
pieces that cut none. -/
theorem write_cut (a : Accumulator) :
    (∀ s t : String, ¬ (s.toList.getLast? = some '\r' ∧ t.toList.head? = some '\n') →
      (a.write s).write t = a.write (s ++ t)) ∧
    ∀ pieces, KeepsLineBreaks pieces →
      Operation.run a (.writePieces pieces) = Operation.run a (.write (String.join pieces)) := by
  refine ⟨fun s t h => write_write a fun hs ht => h ⟨hs, ht⟩, fun pieces h => ?_⟩
  rw [Operation.run, Operation.run, foldl_write a h]

/-- Three pieces with a line break at the end of one and at the start of the next. -/
theorem write_cut_reindented : KeepsLineBreaks ["a\r\n", "", "\nb"] ∧
    Operation.run { indent := "\t" } (.writePieces ["a\r\n", "", "\nb"]) =
      Operation.run { indent := "\t" } (.write "a\r\n\nb") := by
  have h : KeepsLineBreaks ["a\r\n", "", "\nb"] := by
    rintro (_ | _ | _ | n)
    · exact unsplit_nil _
    · exact unsplit_of_getLast? (c := '\n') rfl (by decide) _
    · exact unsplit_of_getLast? (c := '\n') rfl (by decide) _
    · simp [Unsplit]
  exact ⟨h, (write_cut { indent := "\t" }).2 _ h⟩

end Accumulator

end Templating
