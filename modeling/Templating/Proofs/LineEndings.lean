import Mathlib
import Templating.Proofs.Attributes
import Templating.Proofs.Halting
import Templating.Proofs.Variants

/-!
# Line endings

A text whose lines end with CRLF is read like the one whose lines end with LF: the tokens have the same
places, and their texts differ in the line endings only (`tokenize_crlf`).
-/

namespace Templating

/-! ## Carriage returns before line feeds -/

namespace Text

def crlfChars (cs : List Char) : List Char :=
  cs.flatMap fun c => if c = '\n' then ['\r', '\n'] else [c]

/-- A text with a carriage return before each of its line feeds. -/
def crlf (s : String) : String :=
  String.ofList (crlfChars s.toList)

@[simp] theorem crlfChars_nil : crlfChars [] = [] := rfl

@[simp] theorem crlfChars_newline (r : List Char) :
    crlfChars ('\n' :: r) = '\r' :: '\n' :: crlfChars r := rfl

theorem crlfChars_cons {c : Char} (hc : c ≠ '\n') (r : List Char) :
    crlfChars (c :: r) = c :: crlfChars r := by
  simp [crlfChars, hc]

@[simp] theorem crlfChars_append (a b : List Char) : crlfChars (a ++ b) = crlfChars a ++ crlfChars b :=
  List.flatMap_append

theorem crlfChars_of_not_mem {cs : List Char} (h : '\n' ∉ cs) : crlfChars cs = cs := by
  induction cs with
  | nil => rfl
  | cons c r ih =>
    rw [List.mem_cons, not_or] at h
    rw [crlfChars_cons (Ne.symm h.1), ih h.2]

theorem eq_cons_of_crlfChars {r z : List Char} {d : Char} (h : crlfChars r = d :: z) (hd : d ≠ '\r') :
    ∃ r', r = d :: r' ∧ z = crlfChars r' := by
  cases r with
  | nil => cases h
  | cons c r =>
    by_cases hc : c = '\n'
    · subst hc
      exact absurd (List.cons.inj h).1.symm hd
    · rw [crlfChars_cons hc] at h
      obtain ⟨rfl, rfl⟩ := List.cons.inj h
      exact ⟨r, rfl, rfl⟩

/-- What was read of a text, last character first. -/
def crlfRead (read : List Char) : List Char :=
  (crlfChars read.reverse).reverse

@[simp] theorem crlfRead_nil : crlfRead [] = [] := rfl

@[simp] theorem reverse_crlfRead (read : List Char) : (crlfRead read).reverse = crlfChars read.reverse :=
  List.reverse_reverse _

@[simp] theorem crlfRead_newline (read : List Char) :
    crlfRead ('\n' :: read) = '\n' :: '\r' :: crlfRead read := by
  simp [crlfRead]

theorem crlfRead_cons {c : Char} (hc : c ≠ '\n') (read : List Char) :
    crlfRead (c :: read) = c :: crlfRead read := by
  simp [crlfRead, crlfChars_cons hc]

theorem head?_crlfRead (read : List Char) : (crlfRead read).head? = read.head? := by
  cases read with
  | nil => rfl
  | cons c read =>
    by_cases hc : c = '\n'
    · subst hc
      rw [crlfRead_newline]
      rfl
    · rw [crlfRead_cons hc]
      rfl

end Text

open Text Grammar

theorem Location.step_newline (l : Location) : l.step '\n' = l.nextLine :=
  if_pos (.inr rfl)

/-! ## Scans -/

/-- Two places to read on from, alike but for the line endings to come. -/
structure Cursor.Twin (c c' : Cursor) : Prop where
  rest : c'.rest = crlfChars c.rest
  here : c'.here = c.here
  last : c'.last = c.last

/-- Two scans that find the same in the same place, but for line endings. -/
structure Scan.Twin (s s' : Scan) : Prop where
  next : s'.next = s.next
  value : s'.value = s.value.map crlfChars
  tagEnd : s'.tagEnd = s.tagEnd
  cursor : s.cursor.Twin s'.cursor

namespace Scan

section
variable {read cs : List Char} {p : Nat} {h l : Location}

theorem cut_crlfChars {c : Char} {z : List Char} (hcs : '\r' ∉ c :: cs) :
    ∀ r, c = '\r' → z = '\n' :: r → False :=
  fun _ e _ => List.ne_of_not_mem_cons hcs e.symm

theorem readContent_twin (hcs : '\r' ∉ cs) : ∀ p', (readContent read p h l cs).Twin
    (readContent (crlfRead read) p' h l (crlfChars cs)) := by
  -- A line feed is two characters in the other text, and one step over both. Positions part there, places not.
  fun_induction readContent read p h l cs with
  | case1 read p h l =>
    intro p'
    exact ⟨rfl, by simp [readContent], rfl, rfl, rfl, rfl⟩
  | case2 read p h l r ih => simp at hcs
  | case3 read p h l k r =>
    intro p'
    rw [crlfChars_cons (by decide), crlfChars_cons (by decide)]
    by_cases hk : k = '\n'
    · subst hk
      simp only [crlfChars_newline, readContent]
      exact ⟨rfl, by simp, rfl, rfl, rfl, rfl⟩
    · rw [crlfChars_cons hk]
      simp only [readContent]
      refine ⟨rfl, by simp, rfl, ?_, ?_, ?_⟩ <;> split <;> simp [crlfChars_cons hk]
  | case4 read p h l c r hcut hopen ih =>
    intro p'
    have hr := List.not_mem_of_not_mem_cons hcs
    by_cases hc : c = '\n'
    · subst hc
      have ih' := ih hr (p' + 2)
      rw [crlfRead_newline, Location.step_newline] at ih'
      rw [crlfChars_newline, readContent, Location.step_newline]
      exact ih'
    · have ih' := ih hr (p' + 1)
      rw [crlfRead_cons hc] at ih'
      rw [crlfChars_cons hc, readContent]
      · exact ih'
      · exact cut_crlfChars hcs
      · rintro k z rfl hz
        obtain ⟨r', rfl, hz⟩ := eq_cons_of_crlfChars hz (by decide)
        cases r' with
        | nil => cases hz
        | cons k' r' => exact hopen k' r' rfl rfl

theorem unescapeTags_crlfChars (cs : List Char) :
    unescapeTags (crlfChars cs) = crlfChars (unescapeTags cs) := by
  fun_induction unescapeTags cs with
  | case1 r ih =>
    rw [crlfChars_cons (by decide), crlfChars_cons (by decide), crlfChars_cons (by decide), unescapeTags, ih,
      crlfChars_cons (by decide), crlfChars_cons (by decide)]
  | case2 c r hc ih =>
    by_cases hn : c = '\n'
    · subst hn
      rw [crlfChars_newline, crlfChars_newline, ← ih]
      rfl
    · rw [crlfChars_cons hn, crlfChars_cons hn, unescapeTags, ih]
      rintro z rfl hz
      obtain ⟨r₁, rfl, hz₁⟩ := eq_cons_of_crlfChars hz (by decide)
      obtain ⟨r₂, rfl, -⟩ := eq_cons_of_crlfChars hz₁.symm (by decide)
      exact hc r₂ rfl rfl
  | case3 => rfl

theorem closes_cons (c : Char) (read : List Char) :
    closes (c :: read) = decide (c = '#' ∧ read.head? ≠ some '\\') := by
  rw [Bool.eq_iff_iff, closes_iff, decide_eq_true_eq]
  constructor
  · rintro ⟨z, hz, hh⟩
    obtain ⟨rfl, rfl⟩ := List.cons.inj hz
    exact ⟨rfl, hh⟩
  · rintro ⟨rfl, hh⟩
    exact ⟨read, rfl, hh⟩

theorem closes_crlfRead (read : List Char) : closes (crlfRead read) = closes read := by
  cases read with
  | nil => rfl
  | cons c read =>
    by_cases hc : c = '\n'
    · subst hc
      rw [crlfRead_newline, closes_cons, closes_cons]
      rfl
    · rw [crlfRead_cons hc, closes_cons, closes_cons, head?_crlfRead]

theorem readBody_twin (hcs : '\r' ∉ cs) : ∀ p', (readBody read p h l cs).Twin
    (readBody (crlfRead read) p' h l (crlfChars cs)) := by
  fun_induction readBody read p h l cs with
  | case1 read p h l =>
    exact fun p' => ⟨rfl, rfl, rfl, rfl, rfl, rfl⟩
  | case2 read p h l r ih => simp at hcs
  | case3 read p h l c r hcut hclose =>
    intro p'
    obtain ⟨rfl, hclose⟩ := hclose
    obtain ⟨z, rfl, -⟩ := closes_iff.1 hclose
    rw [crlfChars_cons (by decide), readBody, if_pos ⟨rfl, (closes_crlfRead _).trans hclose⟩]
    · refine ⟨rfl, ?_, rfl, rfl, rfl, rfl⟩
      simp [crlfRead_cons, unescapeTags_crlfChars]
    · exact fun r' e => by cases e
  | case4 read p h l c r hcut hclose ih =>
    intro p'
    have hr := List.not_mem_of_not_mem_cons hcs
    by_cases hc : c = '\n'
    · subst hc
      have ih' := ih hr (p' + 2)
      rw [crlfRead_newline, Location.step_newline] at ih'
      rw [crlfChars_newline, readBody, Location.step_newline]
      exact ih'
    · have ih' := ih hr (p' + 1)
      rw [crlfRead_cons hc] at ih'
      rw [crlfChars_cons hc, readBody, closes_crlfRead, if_neg hclose]
      · exact ih'
      · exact cut_crlfChars hcs

theorem skipLineBreak_twin {c c' : Cursor} (hc : c.Twin c') (hcs : '\r' ∉ c.rest) :
    (skipLineBreak c).Twin (skipLineBreak c') := by
  obtain ⟨cs, p, here, last⟩ := c
  obtain ⟨cs', p', here', last'⟩ := c'
  obtain ⟨hrest, hhere, hlast⟩ := hc
  simp only at hrest hhere hlast
  subst hrest hhere hlast
  cases cs with
  | nil => exact ⟨rfl, rfl, rfl⟩
  | cons d r =>
    by_cases hd : d = '\n'
    · subst hd
      exact ⟨rfl, rfl, rfl⟩
    · have hr : d ≠ '\r' := (List.ne_of_not_mem_cons hcs).symm
      have hsame (cs : List Char) (p : Nat) :
          skipLineBreak ⟨d :: cs, p, here', last'⟩ = ⟨d :: cs, p, here', last'⟩ := by
        unfold skipLineBreak
        split <;> simp_all
      rw [crlfChars_cons hd, hsame, hsame]
      exact ⟨(crlfChars_cons hd r).symm, rfl, rfl⟩

theorem close_crlfChars {c : Char} (hclose : ∀ r, c = '#' → cs = '>' :: r → False) :
    ∀ r, c = '#' → crlfChars cs = '>' :: r → False := by
  intro r e hr
  obtain ⟨r', hr', -⟩ := eq_cons_of_crlfChars hr (by decide)
  exact hclose r' e hr'

theorem readDirective_twin (hcs : '\r' ∉ cs) : ∀ p', (readDirective p h l cs).Twin
    (readDirective p' h l (crlfChars cs)) := by
  fun_induction readDirective p h l cs with
  | case1 p h => exact fun p' => ⟨rfl, rfl, rfl, rfl, rfl, rfl⟩
  | case2 p h r ih => simp at hcs
  | case3 p h r =>
    intro p'
    simp only [List.mem_cons, not_or] at hcs
    rw [crlfChars_cons (by decide), crlfChars_cons (by decide), readDirective]
    exact ⟨rfl, rfl, rfl, skipLineBreak_twin ⟨rfl, rfl, rfl⟩ hcs.2.2⟩
  | case4 p h c r hcut hclose hc =>
    intro p'
    have hn : c ≠ '\n' := fun e => not_lineBreak_of_isAlphabetic hc (.inr e)
    rw [crlfChars_cons hn, readDirective, if_pos hc]
    · exact ⟨rfl, rfl, rfl, (crlfChars_cons hn r).symm, rfl, rfl⟩
    · exact cut_crlfChars hcs
    · exact close_crlfChars hclose
  | case5 p h r =>
    intro p'
    rw [crlfChars_cons (by decide), readDirective]
    · exact ⟨rfl, rfl, rfl, rfl, rfl, rfl⟩
    · rintro r' ⟨⟩
    · rintro r' ⟨⟩
  | case6 p h c r hcut hclose ha he hb ih =>
    intro p'
    have hr := List.not_mem_of_not_mem_cons hcs
    by_cases hc : c = '\n'
    · subst hc
      have ih' := ih hr (p' + 2)
      rw [Location.step_newline] at ih'
      rw [crlfChars_newline, readDirective, Location.step_newline]
      exact ih'
    · rw [crlfChars_cons hc, readDirective, if_neg ha, if_neg he, if_pos hb]
      · exact ih hr (p' + 1)
      · exact cut_crlfChars hcs
      · exact close_crlfChars hclose
  | case7 p h c r hcut hclose ha he hb =>
    intro p'
    have hc : c ≠ '\n' := by
      rintro rfl
      exact hb (by decide)
    rw [crlfChars_cons hc, readDirective, if_neg ha, if_neg he, if_neg hb]
    · exact ⟨rfl, rfl, rfl, (crlfChars_cons hc r).symm, rfl, rfl⟩
    · exact cut_crlfChars hcs
    · exact close_crlfChars hclose

theorem readName_twin (hcs : '\r' ∉ cs) (hread : '\n' ∉ read) : ∀ p', (readName read p h l cs).Twin
    (readName read p' h l (crlfChars cs)) := by
  fun_induction readName read p h l cs with
  | case1 read p h => exact fun p' => ⟨rfl, rfl, rfl, rfl, rfl, rfl⟩
  | case2 read p h c r hc ih =>
    intro p'
    have hn : c ≠ '\n' := fun e => not_lineBreak_of_isAlphanumeric hc (.inr e)
    rw [crlfChars_cons hn, readName, if_pos hc]
    exact ih (List.not_mem_of_not_mem_cons hcs) (List.not_mem_cons_of_ne_of_not_mem (Ne.symm hn) hread) (p' + 1)
  | case3 read p h c r hc =>
    intro p'
    have hvalue : some read.reverse = (some read.reverse).map crlfChars := by
      simp [crlfChars_of_not_mem, hread]
    by_cases hn : c = '\n'
    · subst hn
      rw [crlfChars_newline, readName, if_neg (by decide)]
      exact ⟨rfl, hvalue, rfl, rfl, rfl, rfl⟩
    · rw [crlfChars_cons hn, readName, if_neg hc]
      exact ⟨rfl, hvalue, rfl, (crlfChars_cons hn r).symm, rfl, rfl⟩

theorem readQuoted_twin {q : Char} (hq : IsQuote q) (hcs : '\r' ∉ cs) :
    ∀ p', (readQuoted q read p h l cs).Twin (readQuoted q (crlfRead read) p' h l (crlfChars cs)) := by
  fun_induction readQuoted q read p h l cs with
  | case1 read p h => exact fun p' => ⟨rfl, rfl, rfl, rfl, rfl, rfl⟩
  | case2 read p h r ih => simp at hcs
  | case3 read p h r hcut =>
    intro p'
    have hn : q ≠ '\n' := by rcases hq with rfl | rfl <;> decide
    rw [crlfChars_cons hn, readQuoted, if_pos rfl]
    · exact ⟨rfl, by simp, rfl, rfl, rfl, rfl⟩
    · exact cut_crlfChars hcs
  | case4 read p h c r hcut hc ih =>
    intro p'
    have hr := List.not_mem_of_not_mem_cons hcs
    by_cases hn : c = '\n'
    · subst hn
      have ih' := ih hr (p' + 2)
      rw [crlfRead_newline, Location.step_newline] at ih'
      rw [crlfChars_newline, readQuoted, Location.step_newline]
      exact ih'
    · have ih' := ih hr (p' + 1)
      rw [crlfRead_cons hn] at ih'
      rw [crlfChars_cons hn, readQuoted, if_neg hc]
      · exact ih'
      · exact cut_crlfChars hcs

theorem readValue_twin (hcs : '\r' ∉ cs) : ∀ p', (readValue p h l cs).Twin
    (readValue p' h l (crlfChars cs)) := by
  fun_induction readValue p h l cs with
  | case1 p h => exact fun p' => ⟨rfl, rfl, rfl, rfl, rfl, rfl⟩
  | case2 p h r ih => simp at hcs
  | case3 p h c r hcut hq =>
    intro p'
    have hn : c ≠ '\n' := by rcases hq with rfl | rfl <;> decide
    rw [crlfChars_cons hn, readValue, if_pos hq]
    · exact readQuoted_twin hq (List.not_mem_of_not_mem_cons hcs) (p' + 1)
    · exact cut_crlfChars hcs
  | case4 p h c r hcut hq hb ih =>
    intro p'
    have hr := List.not_mem_of_not_mem_cons hcs
    by_cases hn : c = '\n'
    · subst hn
      have ih' := ih hr (p' + 2)
      rw [Location.step_newline] at ih'
      rw [crlfChars_newline, readValue, Location.step_newline]
      exact ih'
    · rw [crlfChars_cons hn, readValue, if_neg hq, if_pos hb]
      · exact ih hr (p' + 1)
      · exact cut_crlfChars hcs
  | case5 p h c r hcut hq hb =>
    intro p'
    have hn : c ≠ '\n' := by
      rintro rfl
      exact hb (by decide)
    rw [crlfChars_cons hn, readValue, if_neg hq, if_neg hb]
    · exact ⟨rfl, rfl, rfl, (crlfChars_cons hn r).symm, rfl, rfl⟩
    · exact cut_crlfChars hcs

end

section
variable {s : Scan} {c c' : Cursor}

theorem Covers.not_mem {l : Location} {cs x : List Char} {n : Int} (hx : s.Covers l cs x n)
    (hcs : '\r' ∉ cs) : '\r' ∉ s.cursor.rest :=
  fun hm => hcs (hx.rest ▸ List.mem_append_right x hm)

theorem readBodyAndLineBreak_twin (hc : c.Twin c') (hcs : '\r' ∉ c.rest) :
    (readBodyAndLineBreak c).Twin (readBodyAndLineBreak c') := by
  have hbody : (readBody [] c.position c.here c.last c.rest).Twin
      (readBody [] c'.position c'.here c'.last c'.rest) := by
    rw [hc.rest, hc.here, hc.last]
    exact readBody_twin hcs _
  cases hk : (readBody [] c.position c.here c.last c.rest).next with
  | error f =>
    rw [readBodyAndLineBreak_of_error hk, readBodyAndLineBreak_of_error (hbody.next.trans hk)]
    exact hbody
  | ok k =>
    rw [readBodyAndLineBreak_of_ok hk, readBodyAndLineBreak_of_ok (hbody.next.trans hk)]
    obtain ⟨x, hx⟩ := readBody_covers [] c.position c.here c.last c.rest
    exact ⟨hbody.next, hbody.value, hbody.tagEnd, skipLineBreak_twin hbody.cursor (hx.not_mem hcs)⟩

theorem readNameFrom_twin (hc : c.Twin c') (hcs : '\r' ∉ c.rest) (hhead : ∀ x ∈ c.rest.head?, x ≠ '\n') :
    (readNameFrom c).Twin (readNameFrom c') := by
  unfold readNameFrom
  rw [hc.rest, hc.here, hc.last]
  cases hr : c.rest with
  | nil => exact readName_twin (by simp) (by simp) _
  | cons x r =>
    have hx : x ≠ '\n' := hhead x (by rw [hr]; rfl)
    rw [hr] at hcs
    rw [crlfChars_cons hx]
    exact readName_twin (List.not_mem_of_not_mem_cons hcs) (by simpa using hx.symm) _

end

end Scan

theorem TokenKind.scan_twin {kind : TokenKind} {c c' : Cursor} (hc : c.Twin c') (hcs : '\r' ∉ c.rest)
    (hname : kind = .directiveName → ∀ x ∈ c.rest.head?, x ≠ '\n') :
    (kind.scan c).Twin (kind.scan c') := by
  cases kind with
  | content =>
    unfold TokenKind.scan
    rw [hc.rest, hc.here, hc.last]
    exact Scan.readContent_twin hcs _
  | expression =>
    unfold TokenKind.scan
    rw [hc.rest, hc.here, hc.last]
    exact Scan.readBody_twin hcs _
  | block | helper => exact Scan.readBodyAndLineBreak_twin hc hcs
  | directive =>
    unfold TokenKind.scan
    rw [hc.rest, hc.here, hc.last]
    exact Scan.readDirective_twin hcs _
  | directiveName => exact Scan.readNameFrom_twin hc hcs (hname rfl)
  | directiveValue =>
    unfold TokenKind.scan
    rw [hc.rest, hc.here, hc.last]
    exact Scan.readValue_twin hcs _
  | eof => exact ⟨rfl, rfl, rfl, hc⟩

/-! ## Tokens -/

/-- A token with CRLF line endings. -/
def Token.crlf (t : Token) : Token :=
  { t with value := t.value.map Text.crlf }

def TokenStream.crlf (s : TokenStream) : TokenStream :=
  ⟨s.tokens.map Token.crlf, s.ending.map Token.crlf⟩

/-- Two scanners before the same token of texts alike but for line endings. -/
structure Scanner.Twin (s s' : Scanner) : Prop where
  next : s'.next = s.next
  tagEnd : s'.tagEnd = s.tagEnd
  cursor : s.cursor.Twin s'.cursor
  plain : '\r' ∉ s.cursor.rest
  name : s.next = .directiveName → ∀ x ∈ s.cursor.rest.head?, Text.isAlphabetic x

namespace Scanner

section
variable {s s' : Scanner} {k : TokenKind}

theorem Twin.scan (h : s.Twin s') : (s.next.scan s.cursor).Twin (s'.next.scan s'.cursor) := by
  rw [h.next]
  refine TokenKind.scan_twin h.cursor h.plain fun hn x hx e => ?_
  exact not_lineBreak_of_isAlphabetic (h.name hn x hx) (.inr e)

theorem Twin.after (h : s.Twin s') (hne : s.next ≠ .eof) (hk : (s.next.scan s.cursor).next = .ok k) :
    (s.after k).Twin (s'.after k) := by
  have hr := (scan_finds_iff hne).1 ⟨hk, rfl, rfl⟩
  obtain ⟨x, hx⟩ := scan_covers hne (fun hn x hx => not_lineBreak_of_isAlphabetic (h.name hn x hx)) hk
  refine ⟨rfl, ?_, h.scan.cursor, hx.not_mem h.plain, ?_⟩
  · simp only [Scanner.after, h.scan.tagEnd, h.tagEnd]
  · rintro rfl
    exact hr.head_isAlphabetic

theorem Twin.token (h : s.Twin s') (k : TokenKind) : (s'.after k).token = (s.after k).token.crlf := by
  have hvalue (v : Option (List Char)) :
      (v.map crlfChars).map String.ofList = (v.map String.ofList).map Text.crlf := by
    cases v <;> simp [Text.crlf]
  simp only [Scanner.token, Scanner.after, Scanner.arrive, Token.crlf, h.next, h.tagEnd, h.cursor.here,
    h.cursor.last]
  rw [← hvalue, ← h.scan.value, ← h.scan.tagEnd, h.next]

/-- Names have no line endings. -/
theorem Twin.name_eq (h : s.Twin s') (hn : s.next = .directiveName)
    (hk : (s.next.scan s.cursor).next = .ok k) : (s.after k).token.crlf = (s.after k).token := by
  have hr := (scan_finds_iff (by simp [hn])).1 ⟨hk, rfl, rfl⟩
  have hname := h.name hn
  rw [hn] at hr
  obtain ⟨-, c, n, hcs, -, halnum, -, hv⟩ := hr
  have hc : c ≠ '\n' := by
    rintro rfl
    exact absurd (hname '\n' (by rw [hcs]; rfl)) (by decide)
  have hmem : '\n' ∉ c :: n := by
    refine List.not_mem_cons_of_ne_of_not_mem hc.symm fun hm => ?_
    exact absurd (halnum _ hm) (by decide)
  simp only [Scanner.token, Scanner.after, Scanner.arrive, Token.crlf, hn, hv, Option.map_some, Text.crlf,
    String.toList_ofList, crlfChars_of_not_mem hmem]

theorem Twin.stream {s s' : Scanner} (h : s.Twin s') : s'.stream = s.stream.crlf ∧
    ∀ t ∈ s.stream.tokens, t.kind = .directiveName → t.crlf = t := by
  by_cases hne : s.next = .eof
  · rw [stream_of_eof hne, stream_of_eof (h.next.trans hne)]
    refine ⟨?_, by simp⟩
    simp [TokenStream.crlf, Token.crlf, Scanner.token, Scanner.arrive, h.next, h.tagEnd, h.cursor.here,
      h.cursor.last, Except.map]
  · have hne' : s'.next ≠ .eof := h.next ▸ hne
    cases hk : (s.next.scan s.cursor).next with
    | error f =>
      rw [stream_of_error hne hk, stream_of_error hne' (h.scan.next.trans hk)]
      exact ⟨rfl, by simp⟩
    | ok k =>
      obtain ⟨hstream, hnames⟩ := (h.after hne hk).stream
      rw [stream_of_ok hne hk, stream_of_ok hne' (h.scan.next.trans hk), hstream, h.token]
      refine ⟨rfl, List.forall_mem_cons.2 ⟨fun hn => h.name_eq hn hk, hnames⟩⟩
termination_by s.size
decreasing_by exact TokenKind.size_scan_lt hne hk

theorem twin_ofText (file : Option String) {text : String} (h : '\r' ∉ text.toList) :
    (ofText file text).Twin (ofText file (Text.crlf text)) :=
  ⟨rfl, rfl, ⟨String.toList_ofList, rfl, rfl⟩, h, by simp [ofText]⟩

end

end Scanner

/-- A text with CRLF line endings has the tokens of the text with LF line endings, or the same fault. -/
theorem tokenize_crlf (file : Option String) {text : String} (h : '\r' ∉ text.toList) :
    tokenize file (Text.crlf text) = (tokenize file text).map (List.map Token.crlf) := by
  unfold tokenize
  rw [(Scanner.twin_ofText file h).stream.1]
  simp only [TokenStream.crlf]
  cases (Scanner.ofText file text).stream.ending <;> simp [Except.map]

end Templating
