import Mathlib
import Templating.Program

/-!
# Indentation

A draft states the rule of indents character by character, over a text and a stack of indents. An
accumulator searches what it appends for line breaks, keeps the indents as one text with the sizes of
its parts, and notes whether it stands after a line break. It writes the text of the draft
(`generated_of_edits`).
-/

namespace Templating

/-! ## Drafts -/

inductive Edit
  | write (text : String)
  | writeLine (text : String)
  | writePieces (pieces : List String)
  | pushIndent (indent : String)
  | popIndent
  | clearIndent
  | take

def Edit.operation : Edit → Operation
  | .write text => .write text
  | .writeLine text => .writeLine text
  | .writePieces pieces => .writePieces pieces
  | .pushIndent indent => .pushIndent indent
  | .popIndent => .popIndent
  | .clearIndent => .clearIndent
  | .take => .take

structure Draft where
  text : List Char := []
  /-- The last one first. -/
  indents : List String := []

namespace Draft

/-- A text with the indent wherever a line break ends between two of its characters. -/
def indented (indent : List Char) : List Char → List Char
  | [] => []
  | [c] => [c]
  | c :: d :: r =>
    if c = '\n' ∨ c = '\r' ∧ d ≠ '\n' then c :: (indent ++ indented indent (d :: r))
    else c :: indented indent (d :: r)

def indent (d : Draft) : String :=
  String.join d.indents.reverse

/-- What is written on begins a line if nothing stands before it or a line break does. -/
def lead (d : Draft) : List Char :=
  if d.text.getLast? ∈ [none, some '\n', some '\r'] then d.indent.toList else []

def write (d : Draft) (text : String) : Draft :=
  if text = "" then d
  else { d with text := d.text ++ d.lead ++ indented d.indent.toList text.toList }

def edit (d : Draft) : Edit → Draft
  | .write text => d.write text
  | .writeLine text => { d.write text with text := (d.write text).text ++ ['\n'] }
  | .writePieces pieces => pieces.foldl write d
  | .pushIndent indent => { d with indents := indent :: d.indents }
  | .popIndent => { d with indents := d.indents.tail }
  | .clearIndent => { d with indents := [] }
  | .take => { d with text := [] }

def ofEdits (edits : List Edit) : Draft :=
  edits.foldl edit {}

/-! ## Indented text -/

/-- A line break as a whole, by what comes after it. -/
def IsBreak (b rest : List Char) : Prop :=
  b = ['\r', '\n'] ∨ b = ['\n'] ∨ b = ['\r'] ∧ rest.head? ≠ some '\n'

theorem indented_cons {c : Char} (h : Accumulator.isLineBreak c = false) (indent r : List Char) :
    indented indent (c :: r) = c :: indented indent r := by
  obtain ⟨hn, hr⟩ : c ≠ '\n' ∧ c ≠ '\r' := by simpa [Accumulator.isLineBreak] using h
  cases r with
  | nil => rfl
  | cons d r => simp [indented, hn, hr]

theorem indented_break {b rest : List Char} (h : IsBreak b rest) (indent : List Char) :
    indented indent (b ++ rest) = b ++ if rest = [] then [] else indent ++ indented indent rest := by
  cases rest with
  | nil => rcases h with rfl | rfl | ⟨rfl, -⟩ <;> simp [indented]
  | cons d r =>
    rcases h with rfl | rfl | ⟨rfl, hd⟩
    · simp [indented]
    · simp [indented]
    · have hd : d ≠ '\n' := by simpa using hd
      simp [indented, hd]

theorem indented_nil : ∀ text : List Char, indented [] text = text
  | [] => rfl
  | [_] => rfl
  | c :: d :: r => by
    rw [indented, indented_nil (d :: r), List.nil_append, ite_self]

theorem indented_ne_nil (indent : List Char) {text : List Char} (h : text ≠ []) :
    indented indent text ≠ [] := by
  unfold indented
  split
  · exact absurd rfl h
  · exact List.cons_ne_nil _ _
  · split <;> exact List.cons_ne_nil _ _

theorem getLast?_indented (indent : List Char) : ∀ text : List Char,
    (indented indent text).getLast? = text.getLast?
  | [] => rfl
  | [_] => rfl
  | c :: d :: r => by
    have ih := getLast?_indented indent (d :: r)
    have hne := indented_ne_nil indent (List.cons_ne_nil d r)
    rw [indented, List.getLast?_cons_of_ne_nil (List.cons_ne_nil d r), ← ih]
    split
    · rw [List.getLast?_cons_of_ne_nil (List.append_ne_nil_of_right_ne_nil _ hne),
        List.getLast?_append_of_ne_nil _ hne]
    · rw [List.getLast?_cons_of_ne_nil hne]

end Draft

/-! ## Appending line by line -/

namespace Accumulator

theorem drop_eq_cons {text : Array Char} {index : Nat} {c : Char} (h : text[index]? = some c) :
    text.toList.drop index = c :: text.toList.drop (index + 1) := by
  obtain ⟨hlt, rfl⟩ := Array.getElem?_eq_some_iff.1 h
  exact List.drop_eq_getElem_cons (l := text.toList) hlt

theorem drop_of_breakEnd {text : Array Char} {index lineEnd : Nat}
    (h : breakEnd? text index = some lineEnd) :
    ∃ b, Draft.IsBreak b (text.toList.drop lineEnd) ∧ lineEnd = index + b.length ∧
      text.toList.drop index = b ++ text.toList.drop lineEnd := by
  unfold breakEnd? at h
  split at h
  · rename_i hr
    obtain rfl := Option.some.inj h
    split
    · rename_i hn
      exact ⟨['\r', '\n'], .inl rfl, rfl, by rw [drop_eq_cons hr, drop_eq_cons hn]; rfl⟩
    · rename_i hn
      refine ⟨['\r'], .inr (.inr ⟨rfl, ?_⟩), rfl, drop_eq_cons hr⟩
      rwa [List.head?_drop, Array.getElem?_toList]
  · rename_i hn
    obtain rfl := Option.some.inj h
    exact ⟨['\n'], .inr (.inl rfl), rfl, drop_eq_cons hn⟩
  · cases h

theorem drop_of_no_break {text : Array Char} {index : Nat} (hlt : index < text.size)
    (h : breakEnd? text index = none) :
    ∃ c, isLineBreak c = false ∧ text.toList.drop index = c :: text.toList.drop (index + 1) := by
  have hc : text[index]? = some text[index] := Array.getElem?_eq_getElem hlt
  refine ⟨text[index], ?_, drop_eq_cons hc⟩
  unfold breakEnd? at h
  rw [hc] at h
  split at h
  · cases h
  · cases h
  · rename_i hr hn
    have hr' : text[index] ≠ '\r' := fun e => hr (by rw [e])
    have hn' : text[index] ≠ '\n' := fun e => hn (by rw [e])
    simp [isLineBreak, hr', hn']

theorem slice_append (text : Array Char) {i j k : Nat} (hij : i ≤ j) (hjk : j ≤ k) :
    slice text i j ++ slice text j k = slice text i k := by
  rw [slice, slice, slice, ← String.ofList_append, ← Array.toList_append, Array.extract_append_extract,
    Nat.min_eq_left hij, Nat.max_eq_right hjk]

theorem slice_self (text : Array Char) (i : Nat) : slice text i i = "" := by
  simp [slice]

theorem slice_of_drop {text : Array Char} {i : Nat} {b rest : List Char}
    (h : text.toList.drop i = b ++ rest) : slice text i (i + b.length) = String.ofList b := by
  rw [slice, Array.toList_extract, List.extract_eq_take_drop, h, Nat.add_sub_cancel_left,
    List.take_left]

/-- The part that is searched but not appended yet has no line break inside, so what is appended in the
end is this part and the rest with its indents. -/
theorem appendLines_eq (indent : String) (text : Array Char) (out : String) {lineStart index : Nat}
    (hstart : lineStart ≤ index) (hindex : index ≤ text.size) :
    appendLines indent text out lineStart index =
      out ++ slice text lineStart index ++
        String.ofList (Draft.indented indent.toList (text.toList.drop index)) := by
  fun_induction appendLines indent text out lineStart index with
  | case1 out lineStart index hlt hnone ih =>
    obtain ⟨c, hc, hdrop⟩ := drop_of_no_break hlt hnone
    have hslice : slice text index (index + 1) = String.singleton c :=
      (slice_of_drop (b := [c]) hdrop).trans String.singleton_eq_ofList.symm
    rw [ih (by omega) hlt, hdrop, Draft.indented_cons hc, ← slice_append text hstart (Nat.le_succ _),
      hslice, String.ofList_cons]
    simp only [String.append_assoc]
  | case2 out lineStart index hlt lineEnd hend _ hinside ih =>
    obtain ⟨b, hb, rfl, hdrop⟩ := drop_of_breakEnd hend
    have hrest : text.toList.drop (index + b.length) ≠ [] := by simpa using hinside
    rw [ih (Nat.le_refl _) hinside.le, hdrop, Draft.indented_break hb, if_neg hrest, slice_self,
      ← slice_append text hstart (Nat.le_add_right _ _), slice_of_drop hdrop, String.ofList_append,
      String.ofList_append, String.ofList_toList]
    simp only [String.append_assoc, String.append_empty]
  | case3 out lineStart index hlt lineEnd hend _ hinside ih =>
    obtain ⟨b, hb, rfl, hdrop⟩ := drop_of_breakEnd hend
    have hrest : text.toList.drop (index + b.length) = [] := by simpa using hinside
    have hsize : index + b.length ≤ text.size := by
      have hlength := congrArg List.length hdrop
      rw [List.length_append, List.length_drop, Array.length_toList] at hlength
      omega
    rw [ih (by omega) hsize, hdrop, Draft.indented_break hb, if_pos hrest, hrest,
      ← slice_append text hstart (Nat.le_add_right _ _), slice_of_drop hdrop]
    simp only [Draft.indented, List.append_nil, String.append_assoc, String.ofList_nil, String.append_empty]
  | case4 out lineStart index hge =>
    obtain rfl : index = text.size := by omega
    rw [List.drop_eq_nil_of_le (Nat.le_of_eq Array.length_toList), Draft.indented, String.ofList_nil,
      String.append_empty]

theorem generated_write (a : Accumulator) {text : String} (h : text ≠ "") :
    (a.write text).generated = a.generated ++ (if a.atLineStart then a.indent else "") ++
      String.ofList (Draft.indented a.indent.toList text.toList) := by
  rw [write, if_neg (by simpa using h)]
  by_cases hindent : a.indent = ""
  · simp [hindent, Draft.indented_nil]
  · have hsize : text.toList.toArray.toList = text.toList := rfl
    dsimp only
    rw [if_neg (by simpa using hindent), appendLines_eq _ _ _ (Nat.le_refl 0) (Nat.zero_le _), slice_self,
      List.drop_zero, hsize, String.append_empty]
    cases a.atLineStart <;> simp [hindent]

theorem write_eq (a : Accumulator) (text : String) : a.write text =
    { a with
      generated := (a.write text).generated
      endsWithLineBreak := (a.write text).endsWithLineBreak } := by
  unfold write
  split <;> rfl

theorem endsWithLineBreak_write (a : Accumulator) {text : String} (h : text ≠ "") :
    (a.write text).endsWithLineBreak = endsInLineBreak text := by
  rw [write, if_neg (by simpa using h)]

/-! ## Indents in force -/

/-- The indent of an accumulator by its parts, the last one first. -/
structure HasIndents (a : Accumulator) (parts : List String) : Prop where
  indent : a.indent = String.join parts.reverse
  sizes : a.indentSizes = parts.map String.utf8ByteSize

theorem splitBytes_append : ∀ xs ys : List Char,
    splitBytes (String.utf8Len xs) (xs ++ ys) = some (xs, ys)
  | [], ys => by simp [splitBytes]
  | c :: xs, ys => by
    have hpos := c.utf8Size_pos
    have hsize : String.utf8Len (c :: xs) = (String.utf8Len xs + c.utf8Size - 1) + 1 := by
      rw [String.utf8Len_cons]
      omega
    have hrest : String.utf8Len xs + c.utf8Size - 1 + 1 - c.utf8Size = String.utf8Len xs := by omega
    rw [hsize, List.cons_append, splitBytes, if_pos (by omega), hrest, splitBytes_append xs ys]
    rfl

/-- Taking back an indent never fails. -/
theorem HasIndents.popIndent? {a : Accumulator} {parts : List String} (h : a.HasIndents parts) :
    a.popIndent? = some (parts.headD "", { a with
      indent := String.join parts.tail.reverse, indentSizes := parts.tail.map String.utf8ByteSize }) := by
  cases parts with
  | nil =>
    have hindent : a.indent = "" := h.indent
    have hsizes : a.indentSizes = [] := h.sizes
    simp only [Accumulator.popIndent?, hsizes]
    rw [List.headD_nil, List.tail_nil, List.map_nil, ← hsizes]
    congr 2
    exact congrArg (fun indent => { a with indent }) hindent
  | cons part parts =>
    have hindent : a.indent = String.join parts.reverse ++ part := by simp [h.indent]
    have hsplit : splitBytes (a.indent.utf8ByteSize - part.utf8ByteSize) a.indent.toList =
        some ((String.join parts.reverse).toList, part.toList) := by
      rw [hindent, String.utf8ByteSize_append, Nat.add_sub_cancel, String.toList_append,
        ← String.ofList_toList (s := String.join parts.reverse), String.utf8ByteSize_ofList,
        String.toList_ofList, splitBytes_append]
    have hle : part.utf8ByteSize ≤ a.indent.utf8ByteSize := by
      rw [hindent, String.utf8ByteSize_append]
      omega
    simp only [Accumulator.popIndent?, h.sizes, List.map_cons, if_pos hle, hsplit, Option.map_some,
      String.ofList_toList, List.headD_cons, List.tail_cons]

/-! ## Accumulators and drafts -/

structure Represents (a : Accumulator) (d : Draft) : Prop where
  text : a.generated.toList = d.text
  lineBreak : a.endsWithLineBreak = d.text.getLast?.any isLineBreak
  indents : a.HasIndents d.indents

variable {a : Accumulator} {d : Draft}

theorem endsInLineBreak_eq (text : String) :
    endsInLineBreak text = text.toList.getLast?.any isLineBreak := by
  unfold endsInLineBreak
  cases text.toList.getLast? <;> rfl

theorem Represents.lead (h : Represents a d) :
    (if a.atLineStart then a.indent else "").toList = d.lead := by
  have hstart : a.atLineStart = true ↔ d.text.getLast? ∈ [none, some '\n', some '\r'] := by
    rw [atLineStart, h.lineBreak, Bool.or_eq_true, String.isEmpty_iff, ← String.toList_eq_nil_iff, h.text,
      ← List.getLast?_eq_none_iff]
    cases d.text.getLast? <;> simp [isLineBreak]
  unfold Draft.lead Draft.indent
  rw [← h.indents.indent]
  by_cases hs : a.atLineStart = true
  · rw [if_pos hs, if_pos (hstart.1 hs)]
  · rw [if_neg hs, if_neg fun hd => hs (hstart.2 hd)]
    rfl

theorem Represents.write (h : Represents a d) (text : String) :
    Represents (a.write text) (d.write text) := by
  by_cases hempty : text = ""
  · rw [Accumulator.write, if_pos (by simpa using hempty), Draft.write, if_pos hempty]
    exact h
  · have hne : text.toList ≠ [] := by simpa using hempty
    rw [Draft.write, if_neg hempty]
    refine ⟨?_, ?_, ?_⟩
    · rw [generated_write a hempty, String.toList_append, String.toList_append, h.lead, h.text,
        String.toList_ofList, h.indents.indent]
      rfl
    · rw [endsWithLineBreak_write a hempty, endsInLineBreak_eq,
        List.getLast?_append_of_ne_nil _ (Draft.indented_ne_nil _ hne), Draft.getLast?_indented]
    · rw [write_eq]
      exact ⟨h.indents.indent, h.indents.sizes⟩

theorem Represents.edit (h : Represents a d) (e : Edit) :
    ∃ answer a', e.operation.run a = (.ok answer, a') ∧ Represents a' (d.edit e) := by
  cases e with
  | write text => exact ⟨_, _, rfl, h.write text⟩
  | writeLine text =>
    obtain ⟨htext, -, hindents⟩ := h.write text
    refine ⟨_, _, rfl, ⟨?_, ?_, ⟨hindents.indent, hindents.sizes⟩⟩⟩
    · simp [Draft.edit, writeLine, htext]
    · simp [Draft.edit, writeLine, isLineBreak]
  | writePieces pieces =>
    refine ⟨_, _, rfl, ?_⟩
    show Represents (pieces.foldl Accumulator.write a) (pieces.foldl Draft.write d)
    induction pieces generalizing a d with
    | nil => exact h
    | cons piece pieces ih => exact ih (h.write piece)
  | pushIndent indent =>
    refine ⟨_, _, rfl, ⟨h.text, h.lineBreak, ⟨?_, ?_⟩⟩⟩
    · simp [Draft.edit, pushIndent, h.indents.indent]
    · simp [Draft.edit, pushIndent, h.indents.sizes]
  | popIndent =>
    refine ⟨_, _, by simp only [Edit.operation, Operation.run, h.indents.popIndent?]; rfl, ?_⟩
    exact ⟨h.text, h.lineBreak, ⟨rfl, rfl⟩⟩
  | clearIndent => exact ⟨_, _, rfl, ⟨h.text, h.lineBreak, ⟨rfl, rfl⟩⟩⟩
  | take => exact ⟨_, _, rfl, ⟨rfl, rfl, ⟨h.indents.indent, h.indents.sizes⟩⟩⟩

theorem Represents.runAll (h : Represents a d) (edits : List Edit) :
    ∃ a', Operation.runAll a (edits.map Edit.operation) = (none, a') ∧
      Represents a' (edits.foldl Draft.edit d) := by
  induction edits generalizing a d with
  | nil => exact ⟨a, rfl, h⟩
  | cons e edits ih =>
    obtain ⟨answer, a₁, hrun, h₁⟩ := h.edit e
    obtain ⟨a', hall, h'⟩ := ih h₁
    refine ⟨a', ?_, h'⟩
    rw [List.map_cons, Operation.runAll, hrun]
    exact hall

theorem represents_new (session : Dictionary) : Represents { session } {} :=
  ⟨rfl, rfl, ⟨rfl, rfl⟩⟩

/-- **Indentation is what the rule says.** A new accumulator carries out any edits without a crash, has
the text and the indent of their draft then, and knows whether its text ends in a line break. -/
theorem generated_of_edits (session : Dictionary) (edits : List Edit) :
    ∃ a, Operation.runAll { session } (edits.map Edit.operation) = (none, a) ∧
      a.generated.toList = (Draft.ofEdits edits).text ∧ a.indent = (Draft.ofEdits edits).indent ∧
      (a.endsWithLineBreak = true ↔ a.generated.toList.getLast? ∈ [some '\n', some '\r']) := by
  obtain ⟨a, hrun, h⟩ := (represents_new session).runAll edits
  refine ⟨a, hrun, h.text, h.indents.indent, ?_⟩
  rw [h.lineBreak, ← h.text]
  cases a.generated.toList.getLast? <;> simp [isLineBreak]

example : String.ofList (Draft.ofEdits [.write "head ", .pushIndent "\t", .write "a\n\nb\r\nc\n",
    .write "d", .writeLine "", .popIndent, .write "e"]).text =
      "head a\n\t\n\tb\r\n\tc\n\td\ne" := by
  decide

end Accumulator

end Templating
