import Mathlib
import Templating.Proofs.Advancing
import Templating.Proofs.Grammar
import Templating.Proofs.Writing

/-!
# Places in a body

A line map counts line feeds and columns of the text it was given; a template counts every line
break, and a body still has its backslashes. The two agree on a character exactly if no carriage
return stands alone before it and no escaped tag stands before it on its line (`locate_eq_after_iff`).
-/

namespace Templating

namespace Text

/-- How many characters stand after the last line feed. -/
def column (cs : List Char) : Nat :=
  (cs.reverse.takeWhile (· ≠ '\n')).length

theorem column_nil : column [] = 0 := rfl

theorem column_append (a b : List Char) :
    column (a ++ b) = if '\n' ∈ b then column b else column a + b.length := by
  unfold column
  rw [List.reverse_append, List.takeWhile_append]
  by_cases h : '\n' ∈ b
  · have hne : (b.reverse.takeWhile (· ≠ '\n')).length ≠ b.reverse.length := by
      intro he
      have hall := (List.takeWhile_prefix (· ≠ '\n') (l := b.reverse)).eq_of_length he
      have := List.takeWhile_eq_self_iff.1 hall '\n' (List.mem_reverse.2 h)
      simp at this
    rw [if_neg hne, if_pos h]
  · have hall : b.reverse.takeWhile (· ≠ '\n') = b.reverse := by
      refine List.takeWhile_eq_self_iff.2 fun c hc => ?_
      have : c ≠ '\n' := fun e => h (e ▸ List.mem_reverse.1 hc)
      simpa using this
    rw [hall, if_pos rfl, if_neg h, List.length_append, List.length_reverse, Nat.add_comm]

theorem column_cons (c : Char) (r : List Char) :
    column (c :: r) = if '\n' ∈ r then column r else if c = '\n' then r.length else r.length + 1 := by
  rw [← List.singleton_append, column_append]
  by_cases h : '\n' ∈ r
  · rw [if_pos h, if_pos h]
  · rw [if_neg h, if_neg h]
    by_cases hc : c = '\n' <;> simp [column, hc, Nat.add_comm]

theorem column_of_not_mem {cs : List Char} (h : '\n' ∉ cs) : column cs = cs.length := by
  have := column_append [] cs
  rw [if_neg h] at this
  simpa [column_nil] using this

theorem column_newline (r : List Char) : column ('\n' :: r) = column r := by
  rw [column_cons]
  by_cases h : '\n' ∈ r
  · rw [if_pos h]
  · rw [if_neg h, if_pos rfl, column_of_not_mem h]

theorem column_unlines : ∀ ls : List (List Char), column (unlines ls) = 0
  | [] => rfl
  | l :: ls => by
    have ih := column_unlines ls
    rw [unlines_cons, column_append, if_pos List.mem_cons_self, column_newline, ih]

end Text

/-! ## Advancing -/

/-- No carriage return stands without a line feed after it. -/
def NoLoneReturn (cs : List Char) : Prop :=
  ∀ x y, cs = x ++ '\r' :: y → y.head? = some '\n'

theorem noLoneReturn_nil : NoLoneReturn [] := by
  intro x y h
  simp at h

theorem noLoneReturn_cons {c : Char} {r : List Char} :
    NoLoneReturn (c :: r) ↔ (c = '\r' → r.head? = some '\n') ∧ NoLoneReturn r := by
  constructor
  · intro h
    exact ⟨fun hc => h [] r (by rw [hc]; rfl), fun x y hr => h (c :: x) y (by rw [hr]; rfl)⟩
  · rintro ⟨hc, hr⟩ x y h
    cases x with
    | nil =>
      obtain ⟨rfl, rfl⟩ := List.cons.inj h
      exact hc rfl
    | cons a x => exact hr x y (List.cons.inj h).2

namespace Location

/-- The place so many line feeds and then so many characters further. -/
def shift (l : Location) (lines columns : Nat) : Location :=
  if lines = 0 then { l with column := l.column + columns }
  else { l with line := l.line + lines, column := 1 + columns }

theorem shift_nextLine (l : Location) (lines columns : Nat) :
    l.nextLine.shift lines columns = l.shift (lines + 1) columns := by
  unfold shift
  by_cases h : lines = 0
  · simp [h, nextLine]
  · simp only [if_neg h, nextLine, Nat.add_one_ne_zero, if_false, Location.mk.injEq, true_and, and_true]
    omega

theorem shift_nextColumn_zero (l : Location) (columns : Nat) :
    l.nextColumn.shift 0 columns = l.shift 0 (columns + 1) := by
  simp only [shift, if_pos, nextColumn, addColumns, Location.mk.injEq, true_and]
  omega

theorem shift_nextColumn (l : Location) {lines : Nat} (h : lines ≠ 0) (columns : Nat) :
    l.nextColumn.shift lines columns = l.shift lines columns := by
  simp only [shift, if_neg h, nextColumn, addColumns]

theorem shift_step (l : Location) {c : Char} (hc : c ≠ '\r') (r : List Char) :
    (l.step c).shift (r.count '\n') (Text.column r) =
      l.shift ((c :: r).count '\n') (Text.column (c :: r)) := by
  by_cases hn : c = '\n'
  · rw [step, if_pos (.inr hn), shift_nextLine, hn, Text.column_newline, List.count_cons_self]
  · rw [step_of_not_lineBreak l (by simp [hc, hn]), List.count_cons_of_ne hn, Text.column_cons, if_neg hn]
    by_cases hr : '\n' ∈ r
    · rw [if_pos hr, shift_nextColumn _ (List.count_pos_iff.2 hr).ne']
    · rw [if_neg hr, List.count_eq_zero_of_not_mem hr, shift_nextColumn_zero, Text.column_of_not_mem hr]

theorem after_eq_shift (l : Location) {cs : List Char} (h : NoLoneReturn cs) :
    l.after cs = l.shift (cs.count '\n') (Text.column cs) := by
  fun_induction after l cs with
  | case1 l => simp [shift, Text.column_nil]
  | case2 l r ih =>
    have hr := (noLoneReturn_cons.1 (noLoneReturn_cons.1 h).2).2
    rw [ih hr, shift_nextLine, Text.column_cons, if_pos (by simp), Text.column_newline]
    simp
  | case3 l c r hc ih =>
    obtain ⟨hc', hr⟩ := noLoneReturn_cons.1 h
    have hne : c ≠ '\r' := by
      intro e
      obtain ⟨r', rfl⟩ := List.head?_eq_some_iff.1 (hc' e)
      exact hc r' e rfl
    rw [ih hr, shift_step l hne]

/-- A lone carriage return leads to a later line than the line feeds do. -/
theorem line_le_after (l : Location) (cs : List Char) :
    l.line + cs.count '\n' ≤ (l.after cs).line ∧
      ((l.after cs).line = l.line + cs.count '\n' → NoLoneReturn cs) := by
  fun_induction after l cs with
  | case1 l => simp [noLoneReturn_nil]
  | case2 l r ih =>
    obtain ⟨hle, heq⟩ := ih
    have hl : l.nextLine.line = l.line + 1 := rfl
    have hcount : ('\r' :: '\n' :: r).count '\n' = r.count '\n' + 1 := by simp
    rw [hl] at hle heq
    rw [hcount]
    refine ⟨by omega, fun h => ?_⟩
    have hr := heq (by omega)
    exact noLoneReturn_cons.2 ⟨fun _ => rfl, noLoneReturn_cons.2 ⟨by simp, hr⟩⟩
  | case3 l c r hc ih =>
    obtain ⟨hle, heq⟩ := ih
    unfold step at hle heq ⊢
    by_cases hb : c = '\r' ∨ c = '\n'
    · rw [if_pos hb, show l.nextLine.line = l.line + 1 from rfl] at *
      rcases hb with rfl | rfl
      · rw [List.count_cons_of_ne (by decide)]
        exact ⟨by omega, fun h => by omega⟩
      · rw [List.count_cons_self]
        refine ⟨by omega, fun h => noLoneReturn_cons.2 ⟨by simp, heq (by omega)⟩⟩
    · rw [if_neg hb, show l.nextColumn.line = l.line from rfl] at *
      rw [List.count_cons_of_ne fun e => hb (.inr e)]
      exact ⟨hle, fun h => noLoneReturn_cons.2 ⟨fun e => absurd (.inl e) hb, heq h⟩⟩

end Location

/-! ## Looking up a character -/

theorem signed32_le (n : Nat) : signed32 n ≤ n := by
  unfold signed32
  rw [Int.bmod_def]
  omega

theorem signed32_eq_iff (n : Nat) : signed32 n = n ↔ n < 2 ^ 31 := by
  unfold signed32
  rw [Int.bmod_def]
  omega

/-- The numbers of a place so many line feeds and then so many characters further have 32 bits. -/
structure Location.Representable (l : Location) (lines columns : Nat) : Prop where
  line : lines < 2 ^ 31
  column : columns + 1 < 2 ^ 31
  sameLine : lines = 0 → -2 ^ 31 < l.column + (columns + 1) ∧ l.column + (columns + 1) < 2 ^ 31
  laterLine : lines ≠ 0 → -2 ^ 31 ≤ l.line + lines ∧ l.line + lines < 2 ^ 31

namespace LineMapEntry

variable {e : LineMapEntry} {lines columns : Nat}

theorem offset_add (e : LineMapEntry) (lines : Nat) : e.offset (e.first + lines) = signed32 lines := by
  rw [offset, Nat.add_sub_cancel_left]

theorem columnOf_succ (columns : Nat) : columnOf (columns + 1) = signed32 (columns + 1 : Nat) := by
  rw [columnOf, Nat.max_eq_left (by omega)]

theorem locate_of_representable (hv : e.verbatim) (h : e.location.Representable lines columns) :
    e.locate (e.first + lines) (columns + 1) = .value (e.location.shift lines columns) := by
  have ho : e.offset (e.first + lines) = lines := by
    rw [offset_add, (signed32_eq_iff lines).2 h.line]
  have hc : columnOf (columns + 1) = columns + 1 := by
    rw [columnOf_succ, (signed32_eq_iff (columns + 1)).2 h.column]
    rfl
  have hr : e.InRange (e.first + lines) (columns + 1) := by
    intro _
    rw [ho, hc]
    exact ⟨fun h0 => h.sameLine (by omega), fun h0 => h.laterLine (by omega)⟩
  rw [locate_of_inRange hr, place, if_pos hv, ho, hc, Location.shift]
  by_cases h0 : lines = 0
  · have : e.location.column + (columns + 1) - 1 = e.location.column + columns := by omega
    rw [if_pos h0, if_pos (by omega), this]
  · rw [if_neg h0, if_neg (by omega), Int.add_comm 1]

/-- The look-up gives the place after a text with as many line feeds and at least as many characters
exactly if the text has no lone carriage return and no more characters on its last line. -/
theorem locate_eq_after_iff (hv : e.verbatim) {cs : List Char} (hl : cs.count '\n' = lines)
    (hc : columns ≤ Text.column cs) :
    e.locate (e.first + lines) (columns + 1) = .value (e.location.after cs) ↔
      NoLoneReturn cs ∧ Text.column cs = columns ∧ e.location.Representable lines columns := by
  constructor
  · intro h
    by_cases hr : e.InRange (e.first + lines) (columns + 1)
    · rw [locate_of_inRange hr] at h
      have hp := Outcome.value.inj h
      obtain ⟨h₁, h₂⟩ := hr hv
      obtain ⟨hle, heq⟩ := e.location.line_le_after cs
      have hs := signed32_le lines
      have hs' := signed32_le (columns + 1)
      have hi := signed32_eq_iff lines
      have hi' := signed32_eq_iff (columns + 1)
      rw [columnOf_succ, offset_add] at h₁
      rw [offset_add] at h₂
      rw [place, if_pos hv, offset_add, columnOf_succ] at hp
      rw [hl] at hle heq
      -- 32 bits only ever make a number smaller, and the text is never on an earlier line, so an equal
      -- place leaves neither wrap-around nor lone carriage return
      by_cases h0 : signed32 lines = 0
      · rw [if_pos h0] at hp
        have hline : e.location.line = (e.location.after cs).line := by rw [← hp]
        have hzero : lines = 0 := by omega
        have hn := heq (by omega)
        rw [Location.after_eq_shift _ hn, hl, Location.shift, if_pos hzero] at hp
        have hcol := congrArg Location.column hp
        simp only at hcol
        have hsmall : columns + 1 < 2 ^ 31 := by omega
        refine ⟨hn, by omega, ⟨by omega, hsmall, fun _ => ?_, fun hne => absurd hzero hne⟩⟩
        rw [← Int.natCast_add_one, ← hi'.2 hsmall]
        exact h₁ h0
      · rw [if_neg h0] at hp
        have hline : e.location.line + signed32 lines = (e.location.after cs).line := by rw [← hp]
        have hsmall : lines < 2 ^ 31 := by omega
        have hn := heq (by omega)
        have hne : lines ≠ 0 := by omega
        rw [Location.after_eq_shift _ hn, hl, Location.shift, if_neg hne] at hp
        have hcol := congrArg Location.column hp
        simp only at hcol
        refine ⟨hn, by omega, ⟨hsmall, by omega, fun h => absurd h hne, fun _ => ?_⟩⟩
        rw [← hi.2 hsmall]
        exact h₂ h0
    · rw [locate_of_not_inRange hr] at h
      cases h
  · intro h₀
    obtain ⟨hn, rfl, hr⟩ := h₀
    rw [locate_of_representable hv hr, Location.after_eq_shift _ hn, hl]

end LineMapEntry

/-! ## Characters of a body -/

/-- What stands in a body before a character of the text it becomes. -/
def rawBefore : List Char → Nat → List Char
  | '\\' :: '#' :: '>' :: r, i =>
    match i with
    | 0 => ['\\']
    | 1 => ['\\', '#']
    | i + 2 => '\\' :: '#' :: '>' :: rawBefore r i
  | c :: r, i =>
    match i with
    | 0 => []
    | i + 1 => c :: rawBefore r i
  | [], _ => []

/-- Each escaped tag that begins in a part of a body is on a line before its last. -/
def NoEscapeOnLine (raw part : List Char) : Prop :=
  ∀ x y, raw = x ++ '\\' :: '#' :: '>' :: y → x.length < part.length → '\n' ∈ part.drop x.length

section
variable {c : Char} {r : List Char} (h : ∀ r', c = '\\' → r = '#' :: '>' :: r' → False)
include h

theorem rawBefore_zero : rawBefore (c :: r) 0 = [] := by
  rw [rawBefore]
  exact h

theorem rawBefore_succ (i : Nat) : rawBefore (c :: r) (i + 1) = c :: rawBefore r i := by
  rw [rawBefore]
  exact h

theorem noEscapeOnLine_cons (d : Char) (part : List Char) :
    NoEscapeOnLine (c :: r) (d :: part) ↔ NoEscapeOnLine r part := by
  constructor
  · intro hp x y hr hlt
    exact hp (c :: x) y (by rw [hr]; rfl) (by simpa using hlt)
  · intro hp x y hr hlt
    cases x with
    | nil => exact (h y (List.cons.inj hr).1 (List.cons.inj hr).2).elim
    | cons a x => exact hp x y (List.cons.inj hr).2 (by simpa using hlt)

end

theorem noEscapeOnLine_nil (raw : List Char) : NoEscapeOnLine raw [] := by
  intro x y _ h
  cases h

theorem noEscapeOnLine_escape (r part : List Char) :
    NoEscapeOnLine ('\\' :: '#' :: '>' :: r) ('\\' :: '#' :: '>' :: part) ↔
      '\n' ∈ part ∧ NoEscapeOnLine r part := by
  have htail : NoEscapeOnLine ('#' :: '>' :: r) ('#' :: '>' :: part) ↔ NoEscapeOnLine r part :=
    (noEscapeOnLine_cons (by simp) '#' _).trans (noEscapeOnLine_cons (by simp) '>' part)
  rw [← htail]
  constructor
  · intro hp
    refine ⟨by simpa using hp [] r rfl (by simp), fun x y hr hlt => ?_⟩
    exact hp ('\\' :: x) y (congrArg ('\\' :: ·) hr) (by simpa using hlt)
  · intro ⟨hn, hp⟩ x y hr hlt
    cases x with
    | nil => simpa using hn
    | cons a x => exact hp x y (List.cons.inj hr).2 (by simpa using hlt)

theorem rawBefore_split (raw : List Char) : ∀ (i : Nat) (c : Char), (Scan.unescapeTags raw)[i]? = some c →
    ∃ y, raw = rawBefore raw i ++ c :: y := by
  fun_induction Scan.unescapeTags raw with
  | case1 r ih =>
    intro i c hc
    rcases i with _ | _ | i
    · obtain rfl := Option.some.inj hc
      exact ⟨'>' :: r, rfl⟩
    · obtain rfl := Option.some.inj hc
      exact ⟨r, rfl⟩
    · obtain ⟨y, hy⟩ := ih i c (by simpa using hc)
      exact ⟨y, congrArg ('\\' :: '#' :: '>' :: ·) hy⟩
  | case2 d r h ih =>
    intro i c hc
    cases i with
    | zero =>
      obtain rfl := Option.some.inj hc
      exact ⟨r, by rw [rawBefore_zero h]; rfl⟩
    | succ i =>
      obtain ⟨y, hy⟩ := ih i c (by simpa using hc)
      exact ⟨y, by rw [rawBefore_succ h]; exact congrArg (d :: ·) hy⟩
  | case3 => simp

/-- A body before a character against the text before it: as many line feeds, and at least as many
characters. -/
structure Unescapes (part text : List Char) : Prop where
  count : part.count '\n' = text.count '\n'
  length : text.length ≤ part.length
  column : Text.column text ≤ Text.column part

theorem Unescapes.mem_iff {part text : List Char} (h : Unescapes part text) : '\n' ∈ part ↔ '\n' ∈ text := by
  rw [← List.count_pos_iff, ← List.count_pos_iff, h.count]

theorem Unescapes.cons {part text : List Char} (h : Unescapes part text) (c : Char) :
    Unescapes (c :: part) (c :: text) ∧ (Text.column (c :: part) = Text.column (c :: text) ↔
      Text.column part = Text.column text) := by
  have hlen := h.length
  have hcol := h.column
  have hcount : (c :: part).count '\n' = (c :: text).count '\n' := by
    rw [List.count_cons, List.count_cons, h.count]
  have hlen' : (c :: text).length ≤ (c :: part).length := Nat.succ_le_succ hlen
  by_cases hn : '\n' ∈ text
  · have hp := Text.column_cons c part
    have ht := Text.column_cons c text
    rw [if_pos (h.mem_iff.2 hn)] at hp
    rw [if_pos hn] at ht
    exact ⟨⟨hcount, hlen', by omega⟩, by omega⟩
  · have hn' := mt h.mem_iff.1 hn
    have hp := Text.column_cons c part
    have ht := Text.column_cons c text
    rw [if_neg hn'] at hp
    rw [if_neg hn] at ht
    rw [Text.column_of_not_mem hn', Text.column_of_not_mem hn]
    by_cases hc : c = '\n'
    · rw [if_pos hc] at hp ht
      exact ⟨⟨hcount, hlen', by omega⟩, by omega⟩
    · rw [if_neg hc] at hp ht
      exact ⟨⟨hcount, hlen', by omega⟩, by omega⟩

theorem Unescapes.backslash {part text : List Char} (h : Unescapes part text) :
    Unescapes ('\\' :: part) text ∧
      (Text.column ('\\' :: part) = Text.column text ↔
        '\n' ∈ part ∧ Text.column part = Text.column text) := by
  have hlen := h.length
  have hcol := h.column
  have hcount : ('\\' :: part).count '\n' = text.count '\n' := by
    rw [List.count_cons_of_ne (by decide), h.count]
  have hp := Text.column_cons '\\' part
  by_cases hn : '\n' ∈ part
  · rw [if_pos hn] at hp
    exact ⟨⟨hcount, Nat.le_succ_of_le hlen, by omega⟩, by simp [hp, hn]⟩
  · rw [if_neg hn, if_neg (by decide)] at hp
    have ht := Text.column_of_not_mem (mt h.mem_iff.2 hn)
    refine ⟨⟨hcount, Nat.le_succ_of_le hlen, by omega⟩, ?_⟩
    rw [hp, ht]
    exact ⟨fun he => by omega, fun he => absurd he.1 hn⟩

theorem unescapes_nil : Unescapes [] [] :=
  ⟨rfl, Nat.le_refl _, Nat.le_refl _⟩

theorem unescapes_rawBefore (raw : List Char) : ∀ i : Nat,
    Unescapes (rawBefore raw i) ((Scan.unescapeTags raw).take i) ∧
      (Text.column (rawBefore raw i) = Text.column ((Scan.unescapeTags raw).take i) ↔
        NoEscapeOnLine raw (rawBefore raw i)) := by
  fun_induction Scan.unescapeTags raw with
  | case1 r ih =>
    intro i
    rcases i with _ | _ | i
    · have hno : ¬ NoEscapeOnLine ('\\' :: '#' :: '>' :: r) ['\\'] := fun h => by
        simpa using h [] r rfl (by simp)
      refine ⟨unescapes_nil.backslash.1, ?_⟩
      exact unescapes_nil.backslash.2.trans (iff_of_false (by simp) hno)
    · have hno : ¬ NoEscapeOnLine ('\\' :: '#' :: '>' :: r) ['\\', '#'] := fun h => by
        simpa using h [] r rfl (by simp)
      have hu := (unescapes_nil.cons '#').1.backslash
      exact ⟨hu.1, hu.2.trans (iff_of_false (by simp) hno)⟩
    · obtain ⟨hu, hiff⟩ := ih i
      have h₁ := hu.cons '>'
      have h₂ := h₁.1.cons '#'
      have h₃ := h₂.1.backslash
      refine ⟨h₃.1, ?_⟩
      rw [rawBefore, noEscapeOnLine_escape, ← hiff, ← h₁.2, ← h₂.2]
      refine h₃.2.trans (and_congr_left' ?_)
      simp
  | case2 d r h ih =>
    intro i
    cases i with
    | zero =>
      rw [rawBefore_zero h]
      exact ⟨unescapes_nil, by simp [noEscapeOnLine_nil]⟩
    | succ i =>
      obtain ⟨hu, hiff⟩ := ih i
      rw [rawBefore_succ h, List.take_succ_cons, noEscapeOnLine_cons h, ← hiff]
      exact hu.cons d
  | case3 =>
    intro i
    simp only [rawBefore, List.take_nil, noEscapeOnLine_nil]
    exact ⟨unescapes_nil, by simp⟩

end Templating
