import Mathlib
import Templating.Proofs.Faults

/-!
# Reading by index

The scans once more, on an array with a position in it: every access to a character, every slice,
every subtraction of positions and every line and column is checked, and a check that fails gives up.
From where a scanner can stand none fails, and the scan is the one of the unread text (`scan_eq`).
-/

namespace Templating

@[simp] theorem Outcome.value_bind {α β : Type} (a : α) (f : α → Outcome β) :
    (Outcome.value a >>= f) = f a := rfl

@[simp] theorem Outcome.pure_eq_value {α : Type} (a : α) : (pure a : Outcome α) = .value a := rfl

namespace Indexed

/-! ## Checked steps -/

section
variable (limit : Int) (text : Array Char)

def charAt (i : Nat) : Outcome Char :=
  match text[i]? with
  | some c => .value c
  | none => .aborted

def back (i n : Nat) : Outcome Nat :=
  if n ≤ i then .value (i - n) else .aborted

def slice (start stop : Nat) : Outcome (List Char) :=
  if start ≤ stop ∧ stop ≤ text.size then .value ((text.toList.drop start).take (stop - start))
  else .aborted

/-- Lines and columns are numbers up to a limit. -/
def place (l : Location) : Outcome Location :=
  if l.line ≤ limit ∧ l.column ≤ limit then .value l else .aborted

def cursor (p : Nat) (here last : Location) : Cursor :=
  ⟨text.toList.drop p, p, here, last⟩

/-- How many characters of a line break come after its first one. -/
def second (p : Nat) (c : Char) : Nat :=
  if c = '\r' ∧ text[p + 1]? = some '\n' then 1 else 0

def skipLineBreak (c : Cursor) : Outcome Cursor := do
  let first := if text[c.position]? = some '\r' then 1 else 0
  let found := if text[c.position + first]? = some '\n' then first + 1 else first
  if 0 < found then return cursor text (c.position + found) (← place limit c.here.nextLine) c.last
  else return c

/-! ## Scans -/

def opensTag (p : Nat) (c : Char) : Outcome Bool := do
  if c = '<' ∧ p + 2 < text.size then return (← charAt text (p + 1)) == '#'
  else return false

def content (start p : Nat) (here last : Location) : Outcome Scan := do
  if h : p < text.size then
    let c ← charAt text p
    let next ← place limit here.nextColumn
    if c = '\r' ∨ c = '\n' then
      content start (p + second text p c + 1) (← place limit next.nextLine) here
    else if ← opensTag text p c then
      let value ← slice text start p
      let k := Scan.opened (← charAt text (p + 2))
      let width := if k = .block then 2 else 3
      let after ← place limit (next.addColumns (width - 1 : Nat))
      return { next := .ok k, value := some value, tagEnd := some next
               cursor := cursor text (p + width) after here }
    else content start (p + 1) next here
  else
    return { next := .ok .eof, value := some (← slice text start text.size), cursor := cursor text p here last }
termination_by text.size - p

/-- Whether the `>` at a position ends the body that begins at `start`. -/
def closesTag (start p : Nat) : Outcome Bool := do
  if p ≤ start then return false
  else if (← charAt text (← back p 1)) ≠ '#' then return false
  else if p < 2 then return true
  else return (← charAt text (← back p 2)) != '\\'

def body (start p : Nat) (here last : Location) : Outcome Scan := do
  if h : p < text.size then
    let c ← charAt text p
    let next ← place limit here.nextColumn
    if c = '\r' ∨ c = '\n' then
      body start (p + second text p c + 1) (← place limit next.nextLine) here
    else if ← (if c = '>' then closesTag text start p else pure false) then
      let value ← slice text start (← back p 1)
      return { next := .ok .content, value := some (Scan.unescapeTags value), tagEnd := some next
               cursor := cursor text (p + 1) next here }
    else body start (p + 1) next here
  else
    return { next := .error ⟨.unexpectedEnd, here⟩, cursor := cursor text p here last }
termination_by text.size - p

def bodyAndLineBreak (start p : Nat) (here last : Location) : Outcome Scan := do
  let s ← body limit text start p here last
  match s.next with
  | .ok _ => return { s with cursor := ← skipLineBreak limit text s.cursor }
  | .error _ => return s

def directive (p : Nat) (here last : Location) : Outcome Scan := do
  if h : p < text.size then
    let c ← charAt text p
    if c = '\r' ∨ c = '\n' then
      directive (p + second text p c + 1) (← place limit here.nextLine) last
    else if Text.isAlphabetic c then
      return { next := .ok .directiveName, cursor := cursor text p here last }
    else if c = '=' then
      return { next := .ok .directiveValue
               cursor := cursor text (p + 1) (← place limit here.nextColumn) last }
    else if c = '#' ∧ text[p + 1]? = some '>' then
      let tagEnd ← place limit (here.addColumns 2)
      let after ← place limit (here.addColumns 3)
      return { next := .ok .content, tagEnd := some tagEnd
               cursor := ← skipLineBreak limit text (cursor text (p + 2) after last) }
    else if ¬ Text.isBlank c then
      return { next := .error ⟨.strayCharacter c, here⟩, cursor := cursor text p here last }
    else directive (p + 1) (← place limit here.nextColumn) last
  else
    return { next := .error ⟨.unexpectedEnd, here⟩, cursor := cursor text p here last }
termination_by text.size - p

def name (start p : Nat) (here last : Location) : Outcome Scan := do
  if h : p < text.size then
    if ¬ Text.isAlphanumeric (← charAt text p) then
      return { next := .ok .directive, value := some (← slice text start p)
               cursor := cursor text p here last }
    else name start (p + 1) (← place limit here.nextColumn) last
  else
    return { next := .error ⟨.unexpectedEnd, here⟩, cursor := cursor text p here last }
termination_by text.size - p

/-- The place behind a character. -/
def pass (here : Location) (c : Char) : Outcome Location := do
  let next ← place limit here.nextColumn
  if c = '\r' ∨ c = '\n' then place limit next.nextLine else return next

/-- A value, with the place and the character of the quote that opened it. -/
def value (quote : Option (Nat × Char)) (p : Nat) (here last : Location) : Outcome Scan := do
  if _h : p < text.size then
    let c ← charAt text p
    let next ← pass limit here c
    let stop := p + second text p c
    match quote with
    | none =>
      if c = '\'' ∨ c = '"' then value (some (stop, c)) (stop + 1) next last
      else if ¬ Text.isBlank c then
        return { next := .error ⟨.unquotedValue c, next⟩, cursor := cursor text stop next last }
      else value none (stop + 1) next last
    | some (start, q) =>
      if c = q then
        return { next := .ok .directive, value := some (← slice text (start + 1) stop)
                 cursor := cursor text (stop + 1) next last }
      else value (some (start, q)) (stop + 1) next last
  else
    return { next := .error ⟨.unexpectedEnd, here⟩, cursor := cursor text p here last }
termination_by text.size - p

def scan (kind : TokenKind) (c : Cursor) : Outcome Scan :=
  match kind with
  | .content => content limit text c.position c.position c.here c.last
  | .expression => body limit text c.position c.position c.here c.last
  | .block | .helper => bodyAndLineBreak limit text c.position c.position c.here c.last
  | .directive => directive limit text c.position c.here c.last
  | .directiveName => name limit text c.position c.position c.here c.last
  | .directiveValue => value limit text none c.position c.here c.last
  | .eof => return { next := .ok .eof, cursor := c }

end

/-! ## The unread text at a position -/

/-- What is left of a text from a position on. -/
structure Left (text : Array Char) (p : Nat) (cs : List Char) : Prop where
  drop : text.toList.drop p = cs
  le : p ≤ text.size

section
variable {text : Array Char} {p : Nat} {cs r x : List Char} {c : Char}

theorem Left.getElem? (h : Left text p cs) (i : Nat) : text[p + i]? = cs[i]? := by
  rw [← h.drop, List.getElem?_drop, Array.getElem?_toList]

theorem Left.size_eq (h : Left text p cs) : p + cs.length = text.size := by
  have hle := h.le
  rw [← h.drop, List.length_drop, Array.length_toList]
  omega

theorem Left.append (h : Left text p (x ++ cs)) : Left text (p + x.length) cs := by
  refine ⟨?_, ?_⟩
  · rw [← List.drop_drop, h.drop, List.drop_left]
  · have := h.size_eq
    rw [List.length_append] at this
    omega

theorem Left.tail (h : Left text p (c :: r)) : Left text (p + 1) r :=
  Left.append (x := [c]) h

theorem Left.lt (h : Left text p (c :: r)) : p < text.size := by
  have := h.size_eq
  rw [List.length_cons] at this
  omega

theorem Left.not_lt (h : Left text p []) : ¬ p < text.size := by
  have := h.size_eq
  rw [List.length_nil] at this
  omega

theorem Left.charAt (h : Left text p (c :: r)) : Indexed.charAt text p = .value c := by
  have := h.getElem? 0
  simp only [Nat.add_zero, List.getElem?_cons_zero] at this
  rw [Indexed.charAt, this]

theorem Left.second (h : Left text p (c :: r)) :
    Indexed.second text p c = if c = '\r' ∧ r.head? = some '\n' then 1 else 0 := by
  rw [Indexed.second, h.getElem? 1, List.getElem?_cons_succ, ← List.head?_eq_getElem?]

theorem Left.second_eq_zero (h : Left text p (c :: r)) (hc : ∀ r', c = '\r' → r = '\n' :: r' → False) :
    Indexed.second text p c = 0 := by
  rw [h.second, if_neg]
  rintro ⟨hr, hn⟩
  obtain ⟨r', rfl⟩ := List.head?_eq_some_iff.1 hn
  exact hc r' hr rfl

theorem Left.not_close (h : Left text p (c :: r)) (hc : ∀ r', c = '#' → r = '>' :: r' → False) :
    ¬ (c = '#' ∧ text[p + 1]? = some '>') := by
  rw [h.getElem? 1, List.getElem?_cons_succ, ← List.head?_eq_getElem?]
  rintro ⟨hh, hn⟩
  obtain ⟨r', rfl⟩ := List.head?_eq_some_iff.1 hn
  exact hc r' hh rfl

theorem Left.slice (h : Left text p (x ++ cs)) {stop : Nat} (hs : stop = p + x.length) :
    Indexed.slice text p stop = .value x := by
  have hle := h.append.le
  rw [Indexed.slice, if_pos ⟨by omega, by omega⟩, h.drop, hs, Nat.add_sub_cancel_left, List.take_left]

theorem Left.cursor (h : Left text p cs) (here last : Location) :
    Indexed.cursor text p here last = ⟨cs, p, here, last⟩ := by
  rw [Indexed.cursor, h.drop]

end

/-! ## Positions count what is read -/

theorem skipLineBreak_counts (c : Cursor) :
    (Scan.skipLineBreak c).position + (Scan.skipLineBreak c).rest.length = c.position + c.rest.length := by
  unfold Scan.skipLineBreak
  split <;> simp_all <;> omega

section
variable {read cs : List Char} {p : Nat} {h l : Location}

/-- The position of a scan goes with what it leaves unread. -/
def Counts (s : Scan) (n : Nat) : Prop :=
  s.cursor.position + s.cursor.rest.length = n

theorem readContent_counts : Counts (Scan.readContent read p h l cs) (p + cs.length) := by
  unfold Counts
  fun_induction Scan.readContent read p h l cs with
  | case1 => rfl
  | case2 read p h l r ih => rw [ih]; simp; omega
  | case3 read p h l k r => split <;> simp <;> omega
  | case4 read p h l c r _ _ ih => rw [ih]; simp; omega

theorem readBody_counts : Counts (Scan.readBody read p h l cs) (p + cs.length) := by
  unfold Counts
  fun_induction Scan.readBody read p h l cs with
  | case1 => rfl
  | case2 read p h l r ih => rw [ih]; simp; omega
  | case3 => simp; omega
  | case4 read p h l c r _ _ ih => rw [ih]; simp; omega

theorem readBodyAndLineBreak_counts (c : Cursor) :
    Counts (Scan.readBodyAndLineBreak c) (c.position + c.rest.length) := by
  have hbody : Counts (Scan.readBody [] c.position c.here c.last c.rest) (c.position + c.rest.length) :=
    readBody_counts
  cases hs : (Scan.readBody [] c.position c.here c.last c.rest).next with
  | ok k =>
    rw [Scan.readBodyAndLineBreak_of_ok hs]
    exact (skipLineBreak_counts _).trans hbody
  | error f =>
    rw [Scan.readBodyAndLineBreak_of_error hs]
    exact hbody

theorem readDirective_counts : Counts (Scan.readDirective p h l cs) (p + cs.length) := by
  unfold Counts
  fun_induction Scan.readDirective p h l cs with
  | case1 => rfl
  | case2 p h r ih => rw [ih]; simp; omega
  | case3 p h r => rw [skipLineBreak_counts]; simp; omega
  | case4 => rfl
  | case5 => simp; omega
  | case6 p h c r _ _ _ _ _ ih => rw [ih]; simp; omega
  | case7 => rfl

theorem readName_counts : Counts (Scan.readName read p h l cs) (p + cs.length) := by
  unfold Counts
  fun_induction Scan.readName read p h l cs with
  | case1 => rfl
  | case2 read p h c r _ ih => rw [ih]; simp; omega
  | case3 => rfl

theorem readQuoted_counts {q : Char} : Counts (Scan.readQuoted q read p h l cs) (p + cs.length) := by
  unfold Counts
  fun_induction Scan.readQuoted q read p h l cs with
  | case1 => rfl
  | case2 read p h r ih => rw [ih]; simp; omega
  | case3 => simp; omega
  | case4 read p h c r _ _ ih => rw [ih]; simp; omega

theorem readValue_counts : Counts (Scan.readValue p h l cs) (p + cs.length) := by
  unfold Counts
  fun_induction Scan.readValue p h l cs with
  | case1 => rfl
  | case2 p h r ih => rw [ih]; simp; omega
  | case3 p h c r => rw [readQuoted_counts]; simp; omega
  | case4 p h c r _ _ _ ih => rw [ih]; simp; omega
  | case5 => rfl

theorem scan_counts (kind : TokenKind) (c : Cursor) : Counts (kind.scan c) (c.position + c.rest.length) := by
  cases kind with
  | content => exact readContent_counts
  | expression => exact readBody_counts
  | block | helper => exact readBodyAndLineBreak_counts c
  | directive => exact readDirective_counts
  | directiveName =>
    show Counts (Scan.readNameFrom c) _
    unfold Scan.readNameFrom
    split
    · rename_i hc
      rw [hc]
      exact readName_counts
    · rename_i x r hc
      rw [hc, List.length_cons, ← Nat.add_assoc, Nat.add_right_comm]
      exact readName_counts
  | directiveValue => exact readValue_counts
  | eof => rfl

end

/-! ## Room for lines and columns -/

/-- A place from which so many characters can be read within the limit. -/
structure Fits (limit : Int) (l : Location) (n : Nat) : Prop where
  positive : 1 ≤ l.column
  line : l.line + n ≤ limit
  column : l.column + 2 * n ≤ limit

section
variable {limit : Int} {l : Location} {m n : Nat}

theorem Fits.place (h : Fits limit l n) : Indexed.place limit l = .value l := by
  have hl := h.line
  have hc := h.column
  exact if_pos ⟨by omega, by omega⟩

theorem Fits.mono (h : Fits limit l n) (hm : m ≤ n) : Fits limit l m := by
  have hl := h.line
  have hc := h.column
  exact ⟨h.positive, by omega, by omega⟩

theorem Fits.nextColumn (h : Fits limit l (n + 1)) : Fits limit l.nextColumn n := by
  obtain ⟨hp, hl, hc⟩ := h
  refine ⟨?_, ?_, ?_⟩ <;> simp only [Location.nextColumn, Location.addColumns] <;> omega

theorem Fits.nextLine (h : Fits limit l (n + 1)) : Fits limit l.nextLine n := by
  obtain ⟨hp, hl, hc⟩ := h
  refine ⟨?_, ?_, ?_⟩ <;> simp only [Location.nextLine] <;> omega

theorem Fits.step (h : Fits limit l (n + 1)) (c : Char) : Fits limit (l.step c) n := by
  unfold Location.step
  split
  · exact h.nextLine
  · exact h.nextColumn

theorem Fits.pass (h : Fits limit l (n + 1)) (c : Char) : Indexed.pass limit l c = .value (l.step c) := by
  rw [Indexed.pass, h.nextColumn.place, Outcome.value_bind]
  unfold Location.step
  split
  · exact h.nextLine.place
  · rfl

theorem Fits.addColumns_two (h : Fits limit l (n + 1)) : Fits limit (l.addColumns 2) n := by
  obtain ⟨hp, hl, hc⟩ := h
  refine ⟨?_, ?_, ?_⟩ <;> simp only [Location.addColumns] <;> omega

theorem Fits.addColumns_three (h : Fits limit l (n + 2)) : Fits limit (l.addColumns 3) n := by
  obtain ⟨hp, hl, hc⟩ := h
  refine ⟨?_, ?_, ?_⟩ <;> simp only [Location.addColumns] <;> omega

/-- Columns and lines grow by no more than the characters gone over. -/
theorem after_bounds (l : Location) (x : List Char) (h : 1 ≤ l.column) : 1 ≤ (l.after x).column ∧
    (l.after x).column ≤ l.column + x.length ∧ (l.after x).line ≤ l.line + x.length := by
  fun_induction Location.after l x with
  | case1 l => simp [h]
  | case2 l r ih =>
    have := ih (by simp [Location.nextLine])
    simp only [Location.nextLine, List.length_cons] at this ⊢
    omega
  | case3 l c r _ ih =>
    have hstep : 1 ≤ (l.step c).column ∧ (l.step c).column ≤ l.column + 1 ∧
        (l.step c).line ≤ l.line + 1 := by
      unfold Location.step
      split <;> simp [Location.nextLine, Location.nextColumn, Location.addColumns] <;> omega
    have := ih hstep.1
    simp only [List.length_cons]
    omega

/-- A scan stays within the limit if it counts no column that it has not gone over. -/
theorem Fits.covers {s : Scan} {cs x : List Char} {k : Nat} (h : Fits limit l cs.length)
    (hs : s.Covers l cs x k) (hk : k ≤ x.length + n) : Fits (limit + n) s.cursor.here s.cursor.rest.length := by
  obtain ⟨hp, hl, hc⟩ := h
  obtain ⟨hpos, hcol, hline⟩ := after_bounds l x hp
  rw [hs.rest, List.length_append] at hl hc
  rw [hs.here]
  refine ⟨?_, ?_, ?_⟩ <;> simp only [Location.addColumns] <;> omega

end

theorem Left.covers {text : Array Char} {s : Scan} {p : Nat} {l : Location} {cs x : List Char} {k : Int}
    (h : Left text p cs) (hs : s.Covers l cs x k) (hc : Counts s (p + cs.length)) :
    Left text s.cursor.position s.cursor.rest := by
  have hp : s.cursor.position = p + x.length := by
    have := congrArg List.length hs.rest
    rw [List.length_append] at this
    rw [Counts] at hc
    omega
  rw [hp]
  exact Left.append (hs.rest ▸ h)

/-! ## Each scan is that of the unread text -/

section
variable {limit : Int} {text : Array Char} {start p : Nat} {here last : Location} {cs : List Char}

theorem opensTag_of_tag {k : Char} {z : List Char} (h : Left text p ('<' :: '#' :: k :: z)) :
    opensTag text p '<' = .value true := by
  have hlt := h.tail.tail.lt
  rw [opensTag, if_pos ⟨rfl, by omega⟩, h.tail.charAt]
  rfl

theorem opensTag_of_not {c : Char} {r : List Char} (h : Left text p (c :: r))
    (hc : ∀ k z, c = '<' → r = '#' :: k :: z → False) : opensTag text p c = .value false := by
  unfold opensTag
  split
  · rename_i hopen
    obtain ⟨rfl, hlt⟩ := hopen
    have hsize := h.size_eq
    obtain ⟨d, k, z, rfl⟩ : ∃ d k z, r = d :: k :: z := by
      rcases r with _ | ⟨d, _ | ⟨k, z⟩⟩
      · simp at hsize; omega
      · simp at hsize; omega
      · exact ⟨d, k, z, rfl⟩
    have hd : d ≠ '#' := fun e => hc k z rfl (e ▸ rfl)
    rw [h.tail.charAt]
    simp [hd]
  · rfl

theorem content_eq (read : List Char) (h : Left text start (read.reverse ++ cs)) (hp : p = start + read.length)
    (hf : Fits limit here cs.length) :
    content limit text start p here last = .value (Scan.readContent read p here last cs) := by
  -- What was read lies between `start` and the position, so it is the slice that is taken in the end.
  have hleft : Left text p cs := by
    rw [hp, ← List.length_reverse]
    exact h.append
  fun_induction Scan.readContent read p here last cs with
  | case1 read p here last =>
    have hslice : slice text start text.size = .value read.reverse :=
      h.slice (by rw [List.length_reverse, ← hp, ← hleft.size_eq]; rfl)
    rw [content, dif_neg hleft.not_lt]
    simp only [hslice, hleft.cursor, Outcome.value_bind, Outcome.pure_eq_value]
  | case2 read p here last r ih =>
    have hline : place limit here.nextColumn.nextLine = .value here.nextLine :=
      hf.nextColumn.nextLine.place
    rw [content, dif_pos hleft.lt]
    simp only [hleft.charAt, hf.nextColumn.place, hleft.second, hline, Outcome.value_bind, true_or, if_true,
      List.head?_cons, and_self]
    exact ih (by simpa using h) (by simp [hp]; omega) (hf.mono (by simp)).nextLine hleft.tail.tail
  | case3 read p here last k r =>
    have hslice : slice text start p = .value read.reverse := h.slice (by rw [List.length_reverse, ← hp])
    have hroom : Fits limit here (r.length + 1 + 2) := hf
    have htwo : place limit (here.nextColumn.addColumns 1) = .value (here.addColumns 2) := by
      rw [Location.nextColumn, Location.addColumns_addColumns]
      exact hroom.addColumns_two.place
    have hthree : place limit (here.nextColumn.addColumns 2) = .value (here.addColumns 3) := by
      rw [Location.nextColumn, Location.addColumns_addColumns]
      exact hroom.addColumns_three.place
    have hk := hleft.tail.tail
    rw [content, dif_pos hleft.lt]
    simp only [hleft.charAt, hf.nextColumn.place, opensTag_of_tag hleft, hslice, hk.charAt,
      Outcome.value_bind, Outcome.pure_eq_value]
    rw [if_neg (by decide)]
    by_cases hblock : Scan.opened k = .block
    · simp [hblock, htwo, hk.cursor]
    · simp [hblock, hthree, hk.tail.cursor]
  | case4 read p here last c r hcut hopen ih =>
    have ih' := ih (by simpa using h) (by simp [hp]; omega) (hf.step c) hleft.tail
    rw [content, dif_pos hleft.lt, ← ih']
    simp only [hleft.charAt, hf.nextColumn.place, hleft.second_eq_zero hcut, opensTag_of_not hleft hopen,
      Outcome.value_bind]
    by_cases hc : c = '\r' ∨ c = '\n'
    · have hline : place limit here.nextColumn.nextLine = .value (here.step c) := by
        rw [Location.step, if_pos hc]
        exact hf.nextLine.place
      rw [if_pos hc, hline]
      rfl
    · rw [if_neg hc, Location.step_of_not_lineBreak here hc]
      rfl

theorem back_eq {i n : Nat} (h : n ≤ i) : back i n = .value (i - n) :=
  if_pos h

/-- No backslash stands before a position. -/
def Unescaped (text : Array Char) (p : Nat) : Prop :=
  ∀ i, p = i + 1 → text[i]? ≠ some '\\'

theorem closesTag_eq {c : Char} {read r : List Char} (h : Left text start (read.reverse ++ c :: r))
    (hp : p = start + read.length) (hbefore : Unescaped text start) :
    closesTag text start p = .value (Scan.closes read) := by
  cases read with
  | nil => exact if_pos hp.le
  | cons d read =>
    rw [List.length_cons] at hp
    have hd : Left text (p - 1) (d :: c :: r) := by
      have : p - 1 = start + read.reverse.length := by rw [List.length_reverse]; omega
      rw [this]
      exact Left.append (by simpa using h)
    rw [closesTag, if_neg (by omega), back_eq (by omega)]
    simp only [hd.charAt, Outcome.value_bind]
    by_cases hhash : d = '#'
    · subst hhash
      rw [if_neg (by simp)]
      cases read with
      | nil =>
        split
        · rfl
        · -- What stands before the body is no backslash.
          rw [List.length_nil] at hp
          have hlt := hd.lt
          obtain ⟨e, he⟩ : ∃ e, text[p - 2]? = some e := ⟨_, getElem?_pos text (p - 2) (by omega)⟩
          have hne : e ≠ '\\' := fun hb => hbefore (p - 2) (by omega) (hb ▸ he)
          rw [back_eq (by omega)]
          simp [charAt, he, hne, Scan.closes]
      | cons e read =>
        have he : Left text (p - 2) (e :: '#' :: c :: r) := by
          have : p - 2 = start + read.reverse.length := by simp at hp ⊢; omega
          rw [this]
          exact Left.append (by simpa using h)
        rw [if_neg (by simp at hp; omega), back_eq (by simp at hp; omega)]
        simp only [he.charAt, Outcome.value_bind]
        by_cases hb : e = '\\' <;> simp [hb, Scan.closes]
    · rw [if_pos hhash]
      unfold Scan.closes
      split <;> simp_all

theorem closing_eq {c : Char} {read r : List Char} (h : Left text start (read.reverse ++ c :: r))
    (hp : p = start + read.length) (hbefore : Unescaped text start) :
    (if c = '>' then closesTag text start p else pure false) =
      .value (decide (c = '>' ∧ Scan.closes read)) := by
  by_cases hc : c = '>'
  · simp [hc, closesTag_eq h hp hbefore]
  · simp [hc]

theorem body_eq (read : List Char) (h : Left text start (read.reverse ++ cs)) (hp : p = start + read.length)
    (hf : Fits limit here cs.length) (hbefore : cs ≠ [] → Unescaped text start) :
    body limit text start p here last = .value (Scan.readBody read p here last cs) := by
  -- As for literal text; but `closesTag` looks back, at the start of a body even behind it.
  have hleft : Left text p cs := by
    rw [hp, ← List.length_reverse]
    exact h.append
  fun_induction Scan.readBody read p here last cs with
  | case1 read p here last =>
    rw [body, dif_neg hleft.not_lt, hleft.cursor]
    rfl
  | case2 read p here last r ih =>
    have hline : place limit here.nextColumn.nextLine = .value here.nextLine :=
      hf.nextColumn.nextLine.place
    rw [body, dif_pos hleft.lt]
    simp only [hleft.charAt, hf.nextColumn.place, hleft.second, hline, Outcome.value_bind, true_or, if_true,
      List.head?_cons, and_self]
    exact ih (by simpa using h) (by simp [hp]; omega) (hf.mono (by simp)).nextLine (fun _ => hbefore (by simp))
      hleft.tail.tail
  | case3 read p here last c r hcut hclose =>
    obtain ⟨rfl, hclose⟩ := hclose
    have hclosed : closesTag text start p = .value true := hclose ▸ closesTag_eq h hp (hbefore (by simp))
    obtain ⟨z, rfl, -⟩ := Grammar.closes_iff.1 hclose
    have hback : back p 1 = .value (p - 1) := back_eq (by simp at hp; omega)
    have hz : Left text start (z.reverse ++ '#' :: '>' :: r) := by simpa using h
    have hslice : slice text start (p - 1) = .value z.reverse := hz.slice (by simp at hp ⊢; omega)
    rw [body, dif_pos hleft.lt]
    simp only [hleft.charAt, hf.nextColumn.place, hclosed, hback, hslice, hleft.tail.cursor, Outcome.value_bind,
      Outcome.pure_eq_value, if_true]
    rfl
  | case4 read p here last c r hcut hclose ih =>
    have ih' := ih (by simpa using h) (by simp [hp]; omega) (hf.step c) (fun _ => hbefore (by simp)) hleft.tail
    rw [body, dif_pos hleft.lt, ← ih']
    simp only [hleft.charAt, hf.nextColumn.place, hleft.second_eq_zero hcut, Outcome.value_bind]
    by_cases hc : c = '\r' ∨ c = '\n'
    · have hline : place limit here.nextColumn.nextLine = .value (here.step c) := by
        rw [Location.step, if_pos hc]
        exact hf.nextLine.place
      rw [if_pos hc, hline]
      rfl
    · rw [if_neg hc, Location.step_of_not_lineBreak here hc, closing_eq h hp (hbefore (by simp)),
        decide_eq_false hclose]
      rfl

theorem getElem?_zero_ne {d : Char} (h : ∀ r, cs = d :: r → False) : cs[0]? ≠ some d := by
  rw [← List.head?_eq_getElem?]
  intro e
  obtain ⟨r, rfl⟩ := List.head?_eq_some_iff.1 e
  exact h r rfl

theorem skipLineBreak_eq {c : Cursor} (h : Left text c.position c.rest) (hf : Fits limit c.here c.rest.length) :
    skipLineBreak limit text c = .value (Scan.skipLineBreak c) := by
  have hzero := h.getElem? 0
  have hone := h.getElem? 1
  rw [Nat.add_zero] at hzero
  unfold Scan.skipLineBreak
  split
  · rename_i r hr
    rw [hr] at h hf hzero hone
    have hline : place limit c.here.nextLine = .value c.here.nextLine := hf.nextLine.place
    simp [skipLineBreak, hzero, hone, hline, h.tail.tail.cursor]
  · rename_i r hcut hr
    rw [hr] at h hf hzero hone
    have hline : place limit c.here.nextLine = .value c.here.nextLine := hf.nextLine.place
    have hsecond := getElem?_zero_ne hcut
    simp [skipLineBreak, hzero, hone, hsecond, hline, h.tail.cursor]
  · rename_i r hr
    rw [hr] at h hf hzero hone
    have hline : place limit c.here.nextLine = .value c.here.nextLine := hf.nextLine.place
    simp [skipLineBreak, hzero, hline, h.tail.cursor]
  · rename_i hcrlf hcr hlf
    simp [skipLineBreak, hzero, getElem?_zero_ne hcr, getElem?_zero_ne hlf]

theorem bodyAndLineBreak_eq {c : Cursor} (h : Left text c.position c.rest) (hf : Fits limit c.here c.rest.length)
    (hbefore : c.rest ≠ [] → Unescaped text c.position) :
    bodyAndLineBreak limit text c.position c.position c.here c.last = .value (Scan.readBodyAndLineBreak c) := by
  have hbody : body limit text c.position c.position c.here c.last =
      .value (Scan.readBody [] c.position c.here c.last c.rest) := body_eq [] h rfl hf hbefore
  obtain ⟨x, hx⟩ := Scan.readBody_covers [] c.position c.here c.last c.rest
  rw [bodyAndLineBreak, hbody, Outcome.value_bind]
  cases hs : (Scan.readBody [] c.position c.here c.last c.rest).next with
  | error f =>
    rw [Scan.readBodyAndLineBreak_of_error hs]
    rfl
  | ok k =>
    have hfits := hf.covers (n := 0) hx (Nat.zero_le _)
    rw [Nat.cast_zero, Int.add_zero] at hfits
    rw [Scan.readBodyAndLineBreak_of_ok hs]
    simp only [skipLineBreak_eq (h.covers hx readBody_counts) hfits, Outcome.value_bind, hs]
    rfl

theorem directive_eq (h : Left text p cs) (hf : Fits limit here cs.length) :
    directive limit text p here last = .value (Scan.readDirective p here last cs) := by
  fun_induction Scan.readDirective p here last cs with
  | case1 p here =>
    rw [directive, dif_neg h.not_lt, h.cursor]
    rfl
  | case2 p here r ih =>
    have hline : place limit here.nextLine = .value here.nextLine := hf.nextLine.place
    rw [directive, dif_pos h.lt]
    simp only [h.charAt, h.second, hline, Outcome.value_bind, true_or, if_true, List.head?_cons, and_self]
    exact ih h.tail.tail (hf.mono (by simp)).nextLine
  | case3 p here r =>
    have hclose : text[p + 1]? = some '>' := h.getElem? 1
    have hroom : Fits limit here (r.length + 2) := hf
    have htwo : place limit (here.addColumns 2) = .value (here.addColumns 2) := hroom.addColumns_two.place
    have hcursor (here last : Location) : cursor text (p + 2) here last = ⟨r, p + 2, here, last⟩ :=
      h.tail.tail.cursor here last
    have hskip :=
      skipLineBreak_eq (c := ⟨r, p + 2, here.addColumns 3, last⟩) h.tail.tail hroom.addColumns_three
    rw [directive, dif_pos h.lt]
    simp only [h.charAt, Outcome.value_bind]
    rw [if_neg (by decide), if_neg (by decide), if_neg (by decide), if_pos ⟨trivial, hclose⟩, htwo,
      hroom.addColumns_three.place]
    simp only [hcursor, hskip, Outcome.value_bind]
    rfl
  | case4 p here c r hcut hclose hc =>
    have hb : ¬ (c = '\r' ∨ c = '\n') := Grammar.not_lineBreak_of_isAlphabetic hc
    rw [directive, dif_pos h.lt]
    simp only [h.charAt, h.cursor, Outcome.value_bind]
    rw [if_neg hb, if_pos hc]
    rfl
  | case5 p here r =>
    rw [directive, dif_pos h.lt]
    simp only [h.charAt, Outcome.value_bind]
    rw [if_neg (by decide), if_neg (by decide), if_pos trivial, hf.nextColumn.place, Outcome.value_bind,
      h.tail.cursor]
    rfl
  | case6 p here c r hcut hclose ha he hb ih =>
    have ih' := ih h.tail (hf.step c)
    rw [directive, dif_pos h.lt, ← ih']
    simp only [h.charAt, h.second_eq_zero hcut, Outcome.value_bind]
    by_cases hc : c = '\r' ∨ c = '\n'
    · have hline : place limit here.nextLine = .value (here.step c) := by
        rw [Location.step, if_pos hc]
        exact hf.nextLine.place
      rw [if_pos hc, hline]
      rfl
    · rw [if_neg hc, if_neg ha, if_neg he, if_neg (h.not_close hclose), if_neg (not_not_intro hb),
        Location.step_of_not_lineBreak here hc, hf.nextColumn.place]
      rfl
  | case7 p here c r hcut hclose ha he hb =>
    have hc : ¬ (c = '\r' ∨ c = '\n') := by rintro (rfl | rfl) <;> exact hb (by decide)
    rw [directive, dif_pos h.lt]
    simp only [h.charAt, h.cursor, Outcome.value_bind]
    rw [if_neg hc, if_neg ha, if_neg he, if_neg (h.not_close hclose), if_pos hb]
    rfl

theorem name_eq (read : List Char) (h : Left text start (read.reverse ++ cs)) (hp : p = start + read.length)
    (hf : Fits limit here cs.length) :
    name limit text start p here last = .value (Scan.readName read p here last cs) := by
  have hleft : Left text p cs := by
    rw [hp, ← List.length_reverse]
    exact h.append
  fun_induction Scan.readName read p here last cs with
  | case1 read p here =>
    rw [name, dif_neg hleft.not_lt, hleft.cursor]
    rfl
  | case2 read p here c r hc ih =>
    have ih' := ih (by simpa using h) (by simp [hp]; omega) hf.nextColumn hleft.tail
    rw [name, dif_pos hleft.lt, ← ih']
    simp only [hleft.charAt, hf.nextColumn.place, Outcome.value_bind]
    rw [if_neg (not_not_intro hc)]
  | case3 read p here c r hc =>
    have hslice : slice text start p = .value read.reverse := h.slice (by rw [List.length_reverse, ← hp])
    rw [name, dif_pos hleft.lt]
    simp only [hleft.charAt, hleft.cursor, hslice, Outcome.value_bind]
    rw [if_pos hc]
    rfl

theorem quoted_eq {q : Char} (hq : Grammar.IsQuote q) {opening : Nat} (read : List Char)
    (h : Left text (opening + 1) (read.reverse ++ cs)) (hp : p = opening + 1 + read.length)
    (hf : Fits limit here cs.length) :
    value limit text (some (opening, q)) p here last = .value (Scan.readQuoted q read p here last cs) := by
  have hleft : Left text p cs := by
    rw [hp, ← List.length_reverse]
    exact h.append
  fun_induction Scan.readQuoted q read p here last cs with
  | case1 read p here =>
    rw [value, dif_neg hleft.not_lt, hleft.cursor]
    rfl
  | case2 read p here r ih =>
    have hne : '\r' ≠ q := by rcases hq with rfl | rfl <;> decide
    have ih' := ih (by simpa using h) (by simp [hp]; omega) (hf.mono (by simp)).nextLine hleft.tail.tail
    rw [value, dif_pos hleft.lt, ← ih']
    simp only [hleft.charAt, hf.pass, hleft.second, Outcome.value_bind, List.head?_cons, and_self, if_true]
    rw [if_neg hne]
    rfl
  | case3 read p here r hcut =>
    have hslice : slice text (opening + 1) p = .value read.reverse := h.slice (by rw [List.length_reverse, ← hp])
    have hstep : here.step q = here.nextColumn :=
      Location.step_of_not_lineBreak here (by rcases hq with rfl | rfl <;> decide)
    rw [value, dif_pos hleft.lt]
    simp only [hleft.charAt, hf.pass, hleft.second_eq_zero hcut, hstep, hslice, hleft.tail.cursor,
      Outcome.value_bind, Nat.add_zero, if_true]
    rfl
  | case4 read p here c r hcut hc ih =>
    have ih' := ih (by simpa using h) (by simp [hp]; omega) (hf.step c) hleft.tail
    rw [value, dif_pos hleft.lt, ← ih']
    simp only [hleft.charAt, hf.pass, hleft.second_eq_zero hcut, Outcome.value_bind]
    rw [if_neg hc]

theorem value_eq (h : Left text p cs) (hf : Fits limit here cs.length) :
    value limit text none p here last = .value (Scan.readValue p here last cs) := by
  fun_induction Scan.readValue p here last cs with
  | case1 p here =>
    rw [value, dif_neg h.not_lt, h.cursor]
    rfl
  | case2 p here r ih =>
    have ih' := ih h.tail.tail (hf.mono (by simp)).nextLine
    rw [value, dif_pos h.lt, ← ih']
    simp only [h.charAt, hf.pass, h.second, Outcome.value_bind, List.head?_cons, and_self, if_true]
    rw [if_neg (by decide), if_neg (by decide)]
    rfl
  | case3 p here c r hcut hq =>
    have hstep : here.step c = here.nextColumn :=
      Location.step_of_not_lineBreak here (by rcases hq with rfl | rfl <;> decide)
    have hquoted : value limit text (some (p, c)) (p + 1) here.nextColumn last = _ :=
      quoted_eq hq [] h.tail rfl hf.nextColumn
    rw [value, dif_pos h.lt, ← hquoted]
    simp only [h.charAt, hf.pass, h.second_eq_zero hcut, hstep, Outcome.value_bind]
    rw [if_pos hq]
    rfl
  | case4 p here c r hcut hq hb ih =>
    have ih' := ih h.tail (hf.step c)
    rw [value, dif_pos h.lt, ← ih']
    simp only [h.charAt, hf.pass, h.second_eq_zero hcut, Outcome.value_bind]
    rw [if_neg hq, if_neg (not_not_intro hb)]
  | case5 p here c r hcut hq hb =>
    have hstep : here.step c = here.nextColumn :=
      Location.step_of_not_lineBreak here (by rintro (rfl | rfl) <;> exact hb (by decide))
    rw [value, dif_pos h.lt]
    simp only [h.charAt, hf.pass, h.second_eq_zero hcut, hstep, h.cursor, Outcome.value_bind, Nat.add_zero]
    rw [if_neg hq, if_pos hb]
    rfl

end

/-! ## Where a scanner can stand -/

/-- Where a scan for a token of a kind can begin. What was announced is there, and there is room for
the lines and columns of the text. -/
structure Ready (limit : Int) (text : Array Char) (kind : TokenKind) (c : Cursor) : Prop where
  left : Left text c.position c.rest
  fits : Fits limit c.here c.rest.length
  eof : kind = .eof → c.rest = []
  name : kind = .directiveName → ∀ x ∈ c.rest.head?, Text.isAlphabetic x
  body : kind = .expression ∨ kind = .block ∨ kind = .helper → c.rest ≠ [] → Unescaped text c.position

/-- No check of a scan fails, and it is the scan of the unread text. -/
theorem scan_eq {limit : Int} {text : Array Char} {kind : TokenKind} {c : Cursor} (h : Ready limit text kind c) :
    scan limit text kind c = .value (kind.scan c) := by
  cases kind with
  | content => exact content_eq [] h.left rfl h.fits
  | expression => exact body_eq [] h.left rfl h.fits (h.body (.inl rfl))
  | block => exact bodyAndLineBreak_eq h.left h.fits (h.body (.inr (.inl rfl)))
  | helper => exact bodyAndLineBreak_eq h.left h.fits (h.body (.inr (.inr rfl)))
  | directive => exact directive_eq h.left h.fits
  | directiveName =>
    have hname : scan limit text .directiveName c =
        .value (Scan.readName [] c.position c.here c.last c.rest) := name_eq [] h.left rfl h.fits
    have hletter := h.name rfl
    rw [hname]
    show _ = Outcome.value (Scan.readNameFrom c)
    unfold Scan.readNameFrom
    split
    · rename_i hc
      rw [hc]
    · rename_i x r hc
      have hx : Text.isAlphanumeric x := by
        simp [Text.isAlphanumeric, hletter x (by rw [hc]; rfl)]
      rw [hc, Scan.readName, if_pos hx]
  | directiveValue => exact value_eq h.left h.fits
  | eof => rfl

end Indexed

end Templating
