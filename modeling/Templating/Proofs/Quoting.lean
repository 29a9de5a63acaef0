import Mathlib
import Templating.Text.Quoted

/-!
# Quoted text

A reader of string literals takes the escapes that a literal may hold and stops at the first quote that no
backslash escapes. It reads every quoted text back, whatever stands behind it (`readLiteral_quote`). A
quoted text has printable characters only, so it lies on one line, and no quote in it ends it early
(`firstQuote?_quote`).
-/

namespace Templating.Text

/-! ## Literals -/

/-- Inside a literal: between characters, behind a backslash, behind `\u`, or among the digits of a code
point, with their value and their number so far. -/
inductive LiteralState
  | plain
  | escaped
  | opening
  | digits (value count : Nat)

/-- The character that a backslash and this one stand for. -/
def escaped? : Char → Option Char
  | 'n' => some '\n'
  | 'r' => some '\r'
  | 't' => some '\t'
  | '0' => some '\x00'
  | '\\' => some '\\'
  | '"' => some '"'
  | '\'' => some '\''
  | _ => none

def hexValue? (c : Char) : Option Nat :=
  if c.isDigit then some (c.toNat - '0'.toNat)
  else if 'a' ≤ c ∧ c ≤ 'f' then some (c.toNat - 'a'.toNat + 10)
  else if 'A' ≤ c ∧ c ≤ 'F' then some (c.toNat - 'A'.toNat + 10)
  else none

def put (c : Char) (read : Option (List Char × List Char)) : Option (List Char × List Char) :=
  read.map fun p => (c :: p.1, p.2)

/-- The text of a literal up to the quote that closes it, and what follows. A code point has one to six
digits, among which underscores are skipped. -/
def readInside : LiteralState → List Char → Option (List Char × List Char)
  | _, [] => none
  | .plain, c :: r =>
    if c = '"' then some ([], r)
    else if c = '\\' then readInside .escaped r
    else put c (readInside .plain r)
  | .escaped, c :: r =>
    if c = 'u' then readInside .opening r
    else match escaped? c with
      | some d => put d (readInside .plain r)
      | none => none
  | .opening, c :: r => if c = '\x7b' then readInside (.digits 0 0) r else none
  | .digits value count, c :: r =>
    if c = '\x7d' then
      if 1 ≤ count ∧ count ≤ 6 ∧ value.isValidChar then put (Char.ofNat value) (readInside .plain r)
      else none
    else if c = '_' ∧ 1 ≤ count then readInside (.digits value count) r
    else match hexValue? c with
      | some d => readInside (.digits (value * 16 + d) (count + 1)) r
      | none => none

/-- The text of a literal and what follows it. -/
def readLiteral : List Char → Option (List Char × List Char)
  | '"' :: r => readInside .plain r
  | _ => none

/-- Where the first quote stands that no backslash escapes. -/
def firstQuote? : List Char → Option Nat
  | [] => none
  | '\\' :: _ :: r => (firstQuote? r).map (· + 2)
  | c :: r => if c = '"' then some 0 else (firstQuote? r).map (· + 1)

/-! ## Digits -/

theorem hexValue?_digitChar : ∀ d < 16, hexValue? (Nat.digitChar d) = some d := by
  decide

theorem digitChar_plain : ∀ d < 16, Nat.digitChar d ≠ '\x7d' ∧ Nat.digitChar d ≠ '_' ∧
    Nat.digitChar d ≠ '"' ∧ Nat.digitChar d ≠ '\\' ∧ isPrintable (Nat.digitChar d) := by
  decide

theorem exists_digit {n : Nat} {c : Char} (h : c ∈ hexDigits n) : ∃ d < 16, c = Nat.digitChar d := by
  unfold hexDigits at h
  induction n using Nat.strong_induction_on with
  | _ n ih =>
    rw [Nat.toDigits_eq_if (by decide)] at h
    split at h
    · rename_i hn
      exact ⟨n, hn, List.mem_singleton.1 h⟩
    · rcases List.mem_append.1 h with h | h
      · exact ih (n / 16) (Nat.div_lt_self (by omega) (by decide)) h
      · exact ⟨n % 16, Nat.mod_lt _ (by decide), List.mem_singleton.1 h⟩

theorem readInside_digit {d : Nat} (hd : d < 16) (value count : Nat) (r : List Char) :
    readInside (.digits value count) (Nat.digitChar d :: r) =
      readInside (.digits (value * 16 + d) (count + 1)) r := by
  obtain ⟨hclose, hline, -⟩ := digitChar_plain d hd
  rw [readInside, if_neg hclose, if_neg fun h => hline h.1, hexValue?_digitChar d hd]

theorem readInside_hexDigits (n value count : Nat) (r : List Char) :
    readInside (.digits value count) (hexDigits n ++ r) = readInside
      (.digits (value * 16 ^ (hexDigits n).length + n) (count + (hexDigits n).length)) r := by
  unfold hexDigits
  induction n using Nat.strong_induction_on generalizing r with
  | _ n ih =>
    rw [Nat.toDigits_eq_if (by decide)]
    split
    · rename_i hn
      rw [List.singleton_append, readInside_digit hn, List.length_singleton, Nat.pow_one]
    · rw [List.append_assoc, ih (n / 16) (Nat.div_lt_self (by omega) (by decide)), List.singleton_append,
        readInside_digit (Nat.mod_lt _ (by decide)), List.length_append, List.length_singleton,
        Nat.pow_succ]
      have hdiv := Nat.div_add_mod n 16
      congr 2
      rw [Nat.add_mul, Nat.mul_assoc]
      omega

theorem length_hexDigits (c : Char) : 1 ≤ (hexDigits c.toNat).length ∧ (hexDigits c.toNat).length ≤ 6 := by
  have hlt : c.toNat < 16 ^ 6 := by
    rcases c.valid with h | ⟨-, h⟩
    · exact Nat.lt_trans h (by decide)
    · exact Nat.lt_trans h (by decide)
  exact ⟨Nat.length_toDigits_pos, (Nat.length_toDigits_le_iff (by decide) (by decide)).2 hlt⟩

/-! ## Quoted characters -/

def codePointEscape (c : Char) : List Char :=
  '\\' :: 'u' :: '\x7b' :: (hexDigits c.toNat ++ ['\x7d'])

theorem quoteChar_cases (c : Char) : (∃ e, quoteChar c = ['\\', e] ∧ e ≠ 'u' ∧ escaped? e = some c ∧ isPrintable e) ∨
    (quoteChar c = [c] ∧ c ≠ '"' ∧ c ≠ '\\' ∧ isPrintable c) ∨ quoteChar c = codePointEscape c := by
  unfold quoteChar
  split_ifs with h₁ h₂ h₃ h₄ h₅ h₆ h₇
  · exact .inl ⟨'0', rfl, by decide, by rw [h₁]; rfl, by decide⟩
  · exact .inl ⟨'t', rfl, by decide, by rw [h₂]; rfl, by decide⟩
  · exact .inl ⟨'r', rfl, by decide, by rw [h₃]; rfl, by decide⟩
  · exact .inl ⟨'n', rfl, by decide, by rw [h₄]; rfl, by decide⟩
  · exact .inl ⟨'"', rfl, by decide, by rw [h₅]; rfl, by decide⟩
  · exact .inl ⟨'\\', rfl, by decide, by rw [h₆]; rfl, by decide⟩
  · exact .inr (.inl ⟨rfl, h₅, h₆, h₇⟩)
  · exact .inr (.inr rfl)

theorem readInside_codePointEscape (c : Char) (r : List Char) :
    readInside .plain (codePointEscape c ++ r) = put c (readInside .plain r) := by
  obtain ⟨hpos, hsix⟩ := length_hexDigits c
  have hopen : readInside .plain (codePointEscape c ++ r) =
      readInside (.digits 0 0) (hexDigits c.toNat ++ '\x7d' :: r) := by
    simp [codePointEscape, readInside]
  have hvalid : c.toNat.isValidChar := c.valid
  rw [hopen, readInside_hexDigits, Nat.zero_mul, Nat.zero_add, Nat.zero_add, readInside, if_pos rfl,
    if_pos ⟨hpos, hsix, hvalid⟩, Char.ofNat_toNat]

theorem readInside_quoteChar (c : Char) (r : List Char) :
    readInside .plain (quoteChar c ++ r) = put c (readInside .plain r) := by
  rcases quoteChar_cases c with ⟨e, hc, hu, he, -⟩ | ⟨hc, hquote, hslash, -⟩ | hc <;> rw [hc]
  · rw [List.cons_append, List.singleton_append, readInside, if_neg (by decide), if_pos rfl, readInside,
      if_neg hu, he]
  · rw [List.singleton_append, readInside, if_neg hquote, if_neg hslash]
  · exact readInside_codePointEscape c r

theorem isPrintable_of_mem_quoteChar {c d : Char} (h : d ∈ quoteChar c) : isPrintable d := by
  rcases quoteChar_cases c with ⟨e, hc, -, -, he⟩ | ⟨hc, -, -, hp⟩ | hc <;> rw [hc] at h
  · simp only [List.mem_cons, List.not_mem_nil, or_false] at h
    rcases h with rfl | rfl
    · decide
    · exact he
  · rwa [List.mem_singleton.1 h]
  · simp only [codePointEscape, List.mem_cons, List.mem_append, List.not_mem_nil, or_false] at h
    rcases h with rfl | rfl | rfl | h | rfl
    · decide
    · decide
    · decide
    · obtain ⟨d', hd, rfl⟩ := exists_digit h
      exact (digitChar_plain d' hd).2.2.2.2
    · decide

theorem firstQuote?_plain : ∀ {cs : List Char}, (∀ c ∈ cs, c ≠ '"' ∧ c ≠ '\\') → ∀ r : List Char,
    firstQuote? (cs ++ r) = (firstQuote? r).map (· + cs.length)
  | [], _, r => by simp
  | c :: cs, h, r => by
    obtain ⟨⟨hquote, hslash⟩, hcs⟩ := List.forall_mem_cons.1 h
    rw [List.cons_append, firstQuote?, if_neg hquote, firstQuote?_plain hcs r, Option.map_map]
    · rfl
    · rintro _ _ rfl
      exact absurd rfl hslash

theorem firstQuote?_quoteChar (c : Char) (r : List Char) :
    firstQuote? (quoteChar c ++ r) = (firstQuote? r).map (· + (quoteChar c).length) := by
  rcases quoteChar_cases c with ⟨e, hc, -⟩ | ⟨hc, hquote, hslash, -⟩ | hc <;> rw [hc]
  · rfl
  · exact firstQuote?_plain (by simpa using ⟨hquote, hslash⟩) r
  · have hdigits : ∀ d ∈ '\x7b' :: (hexDigits c.toNat ++ ['\x7d']), d ≠ '"' ∧ d ≠ '\\' := by
      intro d hd
      simp only [List.mem_cons, List.mem_append, List.not_mem_nil, or_false] at hd
      rcases hd with rfl | hd | rfl
      · decide
      · obtain ⟨d', hd', rfl⟩ := exists_digit hd
        exact ⟨(digitChar_plain d' hd').2.2.1, (digitChar_plain d' hd').2.2.2.1⟩
      · decide
    have hescape : codePointEscape c ++ r =
        '\\' :: 'u' :: (('\x7b' :: (hexDigits c.toNat ++ ['\x7d'])) ++ r) := rfl
    rw [hescape, firstQuote?, firstQuote?_plain hdigits r, Option.map_map]
    rfl

/-! ## Quoted text -/

theorem readInside_flatMap (cs r : List Char) :
    readInside .plain (cs.flatMap quoteChar ++ '"' :: r) = some (cs, r) := by
  induction cs with
  | nil => rfl
  | cons c cs ih =>
    rw [List.flatMap_cons, List.append_assoc, readInside_quoteChar, ih]
    rfl

theorem firstQuote?_flatMap (cs r : List Char) :
    firstQuote? (cs.flatMap quoteChar ++ '"' :: r) = some (cs.flatMap quoteChar).length := by
  induction cs with
  | nil => rfl
  | cons c cs ih =>
    rw [List.flatMap_cons, List.append_assoc, firstQuote?_quoteChar, ih, List.length_append]
    simp [Nat.add_comm]

theorem quote_toList (s : String) : (quote s).toList = '"' :: (s.toList.flatMap quoteChar ++ ['"']) := by
  simp [quote, quoteChars]

theorem readLiteral_quote (s : String) (r : List Char) :
    readLiteral ((quote s).toList ++ r) = some (s.toList, r) := by
  rw [quote_toList, List.cons_append, List.append_assoc]
  exact readInside_flatMap s.toList r

/-- The first quote that closes a quoted text is its last character. -/
theorem firstQuote?_quote (s : String) (r : List Char) :
    ∃ inside, (quote s).toList = '"' :: (inside ++ ['"']) ∧
      firstQuote? (inside ++ '"' :: r) = some inside.length :=
  ⟨_, quote_toList s, firstQuote?_flatMap _ r⟩

theorem isPrintable_of_mem_quote {s : String} {c : Char} (h : c ∈ (quote s).toList) : isPrintable c := by
  rw [quote_toList, List.mem_cons, List.mem_append, List.mem_singleton] at h
  rcases h with rfl | h | rfl
  · decide
  · obtain ⟨d, -, hd⟩ := List.mem_flatMap.1 h
    exact isPrintable_of_mem_quoteChar hd
  · decide

end Templating.Text
