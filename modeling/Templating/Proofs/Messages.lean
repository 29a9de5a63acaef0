import Mathlib
import Templating.CompilerMessage

/-!
# Reading back a printed message

Each of the four layouts, printed, is read back as the message it was printed from. The layouts
overlap: a file or a text may hold parentheses, commas, colons and numbers, so the layouts tried
earlier, and the places of a layout tried before the right one, have to be ruled out. What rules
them out is the marker, the severity with the colon before it. Every place ends at one
(`parenthesized_eq_some`, `separated_eq_some`), and a printed line holds none within its file or
its text.
-/

namespace Templating.CompilerMessage

/-! ## Printing -/

inductive Layout where
  | parenthesized
  | separated
  | spaced
  | bracketed
deriving DecidableEq, Repr

def word (isWarning : Bool) : String :=
  if isWarning then "warning" else "error"

/-- What stands between the file and the severity. -/
def Layout.place (line column : Nat) : Layout → String
  | .parenthesized => "(" ++ toString line ++ "," ++ toString column ++ "): "
  | .separated => ":" ++ toString line ++ ":" ++ toString column ++ ": "
  | .spaced => ""
  | .bracketed => ""

def bracket (code : String) : String :=
  if code = "" then "" else "[" ++ code ++ "]"

/-- What stands between the severity and the colon before the text. -/
def Layout.tag (code : String) : Layout → String
  | .parenthesized => " " ++ code
  | .separated => bracket code
  | .spaced => " " ++ code
  | .bracketed => bracket code

/-- What stands after the file. -/
def Layout.rest (m : CompilerMessage) (layout : Layout) : String :=
  layout.place m.line m.column ++ word m.isWarning ++ layout.tag m.code ++ ": " ++ m.text

/-- A message as a compiler prints it. -/
def print (layout : Layout) (m : CompilerMessage) : String :=
  m.file.getD "" ++ layout.rest m

/-! ## What can be printed -/

def IsNumber (ds : List Char) : Prop :=
  ds ≠ [] ∧ ∀ c ∈ ds, c.isDigit

def IsCode (code : String) : Prop :=
  ∃ letters digits, code.toList = letters ++ digits ∧
    letters ≠ [] ∧ (∀ c ∈ letters, c.isAlpha) ∧ IsNumber digits

/-- The severity with the colon before it. -/
def marker (isWarning : Bool) : List Char :=
  ':' :: ' ' :: (word isWarning).toList

def Quiet (cs : List Char) : Prop :=
  ∀ isWarning, ¬ marker isWarning <:+: cs

instance (cs : List Char) : Decidable (Quiet cs) :=
  inferInstanceAs (Decidable (∀ _, ¬ _))

/-- The places and codes a layout has room for. -/
def Layout.Fits (m : CompilerMessage) : Layout → Prop
  | .parenthesized => m.file ≠ none ∧ IsCode m.code
  | .separated => m.file ≠ none ∧ m.file ≠ some "" ∧ (m.code = "" ∨ IsCode m.code)
  | .spaced => m.file = none ∧ m.line = 0 ∧ m.column = 0 ∧ IsCode m.code
  | .bracketed => m.file = none ∧ m.line = 0 ∧ m.column = 0 ∧ (m.code = "" ∨ IsCode m.code)

/-- The messages that a line can hold and that say something. -/
structure Printable (m : CompilerMessage) : Prop where
  line_lt : m.line < 2 ^ 32
  column_lt : m.column < 2 ^ 32
  file_oneLine : ∀ file ∈ m.file, '\n' ∉ file.toList
  file_quiet : ∀ file ∈ m.file, Quiet file.toList
  text_oneLine : '\n' ∉ m.text.toList
  text_quiet : Quiet m.text.toList
  text_ne_empty : m.text ≠ ""
  text_trimmed : Text.trimEnd m.text = m.text
  not_summary : isSummary m.text = false

/-! ## Parts of a line -/

section Parts

variable {cs r : List Char}

theorem literal_append (s : String) (r : List Char) : literal s (s.toList ++ r) = some ((), r) := by
  simp [literal, ← String.length_toList]

@[simp]
theorem literal_colon (r : List Char) : literal ":" (':' :: r) = some ((), r) :=
  literal_append ":" r

@[simp]
theorem literal_blank (r : List Char) : literal " " (' ' :: r) = some ((), r) :=
  literal_append " " r

@[simp]
theorem literal_colonBlank (r : List Char) : literal ": " (':' :: ' ' :: r) = some ((), r) :=
  literal_append ": " r

theorem literal_eq_some {s : String} {u : Unit} (h : literal s cs = some (u, r)) :
    cs = s.toList ++ r := by
  unfold literal at h
  split at h
  · rename_i hs
    obtain ⟨r', rfl⟩ := List.isPrefixOf_iff_prefix.mp hs
    obtain rfl : r' = r := by simpa [← String.length_toList] using h
    rfl
  · cases h

theorem run_append {p : Char → Bool} {ds : List Char} (hne : ds ≠ []) (hds : ∀ c ∈ ds, p c)
    (hr : ∀ c ∈ r.head?, p c = false) : run p (ds ++ r) = some (ds, r) := by
  have htake : r.takeWhile p = [] ∧ r.dropWhile p = r := by
    cases r with
    | nil => simp
    | cons c r => simp [hr c rfl]
  unfold run
  rw [List.takeWhile_append_of_pos hds, List.dropWhile_append_of_pos hds, htake.1, htake.2]
  simp [hne]

theorem run_eq_some {p : Char → Bool} {ds : List Char} (h : run p cs = some (ds, r)) :
    cs = ds ++ r ∧ ds ≠ [] ∧ ∀ c ∈ ds, p c := by
  dsimp only [run] at h
  split at h
  · cases h
  · rename_i hne
    obtain ⟨rfl, rfl⟩ : cs.takeWhile p = ds ∧ cs.dropWhile p = r := by simpa using h
    exact ⟨List.takeWhile_append_dropWhile.symm, by simpa using hne, fun c => List.mem_takeWhile_imp⟩

theorem isNumber_toDigits (n : Nat) : IsNumber (Nat.toDigits 10 n) :=
  ⟨Nat.toDigits_ne_nil, fun _ => Nat.isDigit_of_mem_toDigits (by decide) (by decide)⟩

theorem IsNumber.not_mem {ds : List Char} {c : Char} (hds : IsNumber ds) (hc : c.isDigit = false) :
    c ∉ ds :=
  fun hmem => by simp [hds.2 c hmem] at hc

theorem number_append {n : Nat} (hn : n < 2 ^ 32) (hr : ∀ c ∈ r.head?, c.isDigit = false) :
    number (Nat.toDigits 10 n ++ r) = some (n, r) := by
  have hrun : run Char.isDigit (Nat.toDigits 10 n ++ r) = some (Nat.toDigits 10 n, r) :=
    run_append (isNumber_toDigits n).1 (isNumber_toDigits n).2 hr
  have hvalue : (Nat.toDigits 10 n).foldl (fun n c => n * 10 + (c.toNat - '0'.toNat)) 0 = n := by
    simpa only [Nat.ofDigitChars, Nat.mul_comm] using
      Nat.ofDigitChars_toDigits (b := 10) (n := n) (by decide) (by decide)
  simp only [number, hrun, Option.map_some, hvalue]
  rw [if_pos (by omega)]

theorem number_eq_some {n : Nat} (h : number cs = some (n, r)) :
    ∃ ds, cs = ds ++ r ∧ IsNumber ds := by
  obtain ⟨⟨ds, r'⟩, hrun, heq⟩ := Option.map_eq_some_iff.mp h
  obtain rfl : r' = r := congrArg Prod.snd heq
  exact ⟨ds, run_eq_some hrun⟩

theorem severity_append (w : Bool) (r : List Char) :
    severity ((word w).toList ++ r) = some (w, r) := by
  cases w with
  | false =>
    have h := literal_append "error" r
    simp only [severity, word, Bool.false_eq_true, if_false, h]
  | true =>
    have h := literal_append "warning" r
    have hno : literal "error" ("warning".toList ++ r) = none := by simp [literal, List.isPrefixOf]
    simp only [severity, word, if_true, h, hno, Option.map_some]

theorem severity_eq_some {w : Bool} (h : severity cs = some (w, r)) : cs = (word w).toList ++ r := by
  unfold severity at h
  split at h
  · rename_i hl
    obtain ⟨rfl, rfl⟩ : false = w ∧ _ = r := by simpa using h
    exact literal_eq_some hl
  · obtain ⟨⟨u, r'⟩, hl, heq⟩ := Option.map_eq_some_iff.mp h
    obtain ⟨rfl, rfl⟩ : true = w ∧ r' = r := by simpa using heq
    exact literal_eq_some hl

theorem isAlpha_of_isDigit {c : Char} (h : c.isDigit) : c.isAlpha = false := by
  grind [Char.isDigit, Char.isAlpha, Char.isUpper, Char.isLower]

theorem codeWord_append {code : String} (hcode : IsCode code)
    (hr : ∀ c ∈ r.head?, c.isDigit = false) : codeWord (code.toList ++ r) = some (code, r) := by
  obtain ⟨letters, digits, hsplit, hletters, halpha, hdigits⟩ := hcode
  have hfirst : ∀ c ∈ (digits ++ r).head?, c.isAlpha = false := by
    cases digits with
    | nil => exact absurd rfl hdigits.1
    | cons d digits => simpa using isAlpha_of_isDigit (hdigits.2 d (by simp))
  have hback : String.ofList letters ++ String.ofList digits = code := by
    rw [← String.ofList_append, ← hsplit, String.ofList_toList]
  rw [hsplit, List.append_assoc]
  simp [codeWord, run_append hletters halpha hfirst, run_append hdigits.1 hdigits.2 hr, hback]

theorem lastPart_toList {text : String} (h : '\n' ∉ text.toList) : lastPart text.toList = some text := by
  simp [lastPart, h]

theorem codeAndText_append {code text : String} (hcode : IsCode code) (ht : '\n' ∉ text.toList) :
    codeAndText (code.toList ++ ':' :: ' ' :: text.toList) = some (code, text) := by
  have hword : codeWord (code.toList ++ ':' :: ' ' :: text.toList) =
      some (code, ':' :: ' ' :: text.toList) :=
    codeWord_append hcode (by simp)
  simp [codeAndText, hword, lastPart_toList ht]

theorem bracketedCodeAndText_append {code text : String} (hcode : code = "" ∨ IsCode code)
    (ht : '\n' ∉ text.toList) :
    bracketedCodeAndText ((bracket code).toList ++ ':' :: ' ' :: text.toList) =
      some (code, text) := by
  obtain rfl | hcode := hcode
  · simp [bracket, bracketedCodeAndText, lastPart_toList ht]
  · have hne : code ≠ "" := by
      rintro rfl
      obtain ⟨letters, digits, hsplit, hletters, -⟩ := hcode
      exact hletters (List.append_eq_nil_iff.mp hsplit.symm).1
    have hclose : literal "]: " (']' :: ':' :: ' ' :: text.toList) = some ((), text.toList) :=
      literal_append "]: " text.toList
    have hword : codeWord (code.toList ++ ']' :: ':' :: ' ' :: text.toList) =
        some (code, ']' :: ':' :: ' ' :: text.toList) :=
      codeWord_append hcode (by simp)
    simp [bracket, hne, bracketedCodeAndText, hword, hclose, lastPart_toList ht]

end Parts

/-! ## What follows the file -/

section Rest

variable {m : CompilerMessage}

theorem parenthesized_rest (hm : Printable m) (hcode : IsCode m.code) :
    parenthesized (Layout.parenthesized.rest m).toList = some { m with file := none } := by
  have hopen : ∀ r, literal "(" ('(' :: r) = some ((), r) := literal_append "("
  have hcomma : ∀ r, literal "," (',' :: r) = some ((), r) := literal_append ","
  have hclose : ∀ r, literal "): " (')' :: ':' :: ' ' :: r) = some ((), r) := literal_append "): "
  have hline : ∀ r, number (Nat.toDigits 10 m.line ++ ',' :: r) = some (m.line, ',' :: r) :=
    fun r => number_append hm.line_lt (by simp)
  have hcolumn : ∀ r, number (Nat.toDigits 10 m.column ++ ')' :: r) = some (m.column, ')' :: r) :=
    fun r => number_append hm.column_lt (by simp)
  simp [parenthesized, Layout.rest, Layout.place, Layout.tag, hopen, hline, hcomma, hcolumn, hclose,
    severity_append, codeAndText_append hcode hm.text_oneLine]

theorem separated_rest (hm : Printable m) (hcode : m.code = "" ∨ IsCode m.code) :
    separated (Layout.separated.rest m).toList = some { m with file := none } := by
  have hnumber : ∀ n < 2 ^ 32, ∀ r, number (Nat.toDigits 10 n ++ ':' :: r) = some (n, ':' :: r) :=
    fun n hn r => number_append hn (by simp)
  simp [separated, Layout.rest, Layout.place, Layout.tag, hnumber _ hm.line_lt,
    hnumber _ hm.column_lt, severity_append, bracketedCodeAndText_append hcode hm.text_oneLine]

theorem spaced_rest (hm : Printable m) (hcode : IsCode m.code) :
    spaced (Layout.spaced.rest m).toList = some ⟨none, 0, 0, m.isWarning, m.code, m.text⟩ := by
  simp [spaced, Layout.rest, Layout.place, Layout.tag, severity_append,
    codeAndText_append hcode hm.text_oneLine]

theorem bracketed_rest (hm : Printable m) (hcode : m.code = "" ∨ IsCode m.code) :
    bracketed (Layout.bracketed.rest m).toList = some ⟨none, 0, 0, m.isWarning, m.code, m.text⟩ := by
  simp [bracketed, Layout.rest, Layout.place, Layout.tag, severity_append,
    bracketedCodeAndText_append hcode hm.text_oneLine]

/-- No blank follows the severity of the bracketed layout. -/
theorem spaced_bracketed_rest (m : CompilerMessage) :
    spaced (Layout.bracketed.rest m).toList = none := by
  have htag : ∀ r, literal " " ((bracket m.code).toList ++ ':' :: ' ' :: r) = none := by
    intro r
    unfold bracket
    split <;> simp [literal, List.isPrefixOf]
  simp [spaced, Layout.rest, Layout.place, Layout.tag, severity_append, htag]

end Rest

/-! ## Places -/

section Places

variable {cs f r t text : List Char} {m : CompilerMessage} {w : Bool}

theorem Quiet.of_isInfix (hq : Quiet t) (h : cs <:+: t) : Quiet cs :=
  fun w hw => hq w (hw.trans h)

theorem parenthesized_eq_some (h : parenthesized cs = some m) :
    ∃ line column w r, IsNumber line ∧ IsNumber column ∧
      cs = ('(' :: (line ++ ',' :: (column ++ [')']))) ++ (marker w ++ r) := by
  simp only [parenthesized, Option.bind_eq_bind, Option.bind_eq_some_iff, Prod.exists] at h
  obtain ⟨_, r₁, hopen, line, r₂, hline, _, r₃, hcomma, column, r₄, hcolumn, _, r₅, hclose, w, r₆,
    hseverity, -⟩ := h
  obtain ⟨ls, rfl, hls⟩ := number_eq_some hline
  obtain ⟨ks, rfl, hks⟩ := number_eq_some hcolumn
  obtain rfl := literal_eq_some hopen
  obtain rfl := literal_eq_some hcomma
  obtain rfl := literal_eq_some hclose
  obtain rfl := severity_eq_some hseverity
  exact ⟨ls, ks, w, r₆, hls, hks, by simp [marker]⟩

theorem separated_eq_some (h : separated cs = some m) :
    ∃ line column w r, IsNumber line ∧ IsNumber column ∧
      cs = (':' :: (line ++ ':' :: column)) ++ (marker w ++ r) := by
  simp only [separated, Option.bind_eq_bind, Option.bind_eq_some_iff, Prod.exists] at h
  obtain ⟨_, r₁, hopen, line, r₂, hline, _, r₃, hcolon, column, r₄, hcolumn, _, r₅, hclose, w, r₆,
    hseverity, -⟩ := h
  obtain ⟨ls, rfl, hls⟩ := number_eq_some hline
  obtain ⟨ks, rfl, hks⟩ := number_eq_some hcolumn
  obtain rfl := literal_eq_some hopen
  obtain rfl := literal_eq_some hcolon
  obtain rfl := literal_eq_some hclose
  obtain rfl := severity_eq_some hseverity
  exact ⟨ls, ks, w, r₆, hls, hks, by simp [marker]⟩

theorem suffix_append_cases {s a b : List Char} (h : s <:+ a ++ b) :
    s <:+ b ∨ ∃ a', a' ≠ [] ∧ a' <:+ a ∧ s = a' ++ b := by
  obtain ⟨x, hx⟩ := h
  rcases List.append_eq_append_iff.mp hx with ⟨a', rfl, rfl⟩ | ⟨b', -, rfl⟩
  · rcases eq_or_ne a' [] with rfl | hne
    · exact .inl (List.suffix_refl b)
    · exact .inr ⟨a', hne, List.suffix_append x a', rfl⟩
  · exact .inl (List.suffix_append b' s)

/-- A suffix whose first character is not in `a` lies after `a`. -/
theorem suffix_of_head {c : Char} {s a b : List Char} (h : s <:+ a ++ b) (hs : s.head? = some c)
    (hc : c ∉ a) : s <:+ b := by
  rcases suffix_append_cases h with h | ⟨a', hne, ha, rfl⟩
  · exact h
  · have hmem : c ∈ a' := List.mem_of_mem_head? (by simpa [List.head?_append, hne] using hs)
    exact absurd (ha.subset hmem) hc

theorem Quiet.not_suffix {x : List Char} (ht : Quiet text) : ¬ x ++ (marker w ++ r) <:+ text :=
  fun h => ht w ((List.infix_append' x (marker w) r).trans h.isInfix)

/-- No parenthesized place within a quiet text, nor before it where no parenthesis opens. -/
theorem parenthesized_eq_none {pre s : List Char} (hpre : '(' ∉ pre) (ht : Quiet text)
    (hs : s <:+ pre ++ text) : parenthesized s = none := by
  refine Option.eq_none_iff_forall_ne_some.mpr fun m hm => ?_
  obtain ⟨line, column, w, r, -, -, rfl⟩ := parenthesized_eq_some hm
  exact ht.not_suffix (suffix_of_head hs rfl hpre)

theorem IsNumber.blank_ne {ds : List Char} (hds : IsNumber ds) : ' ' :: r ≠ ds ++ t := by
  intro heq
  obtain ⟨d, ds, rfl⟩ := List.exists_cons_of_ne_nil hds.1
  obtain rfl : ' ' = d := (List.cons.inj heq).1
  exact hds.not_mem (c := ' ') rfl (by simp)

/-- No separated place within `": "` and a quiet text, nor before them where there is no colon. -/
theorem separated_eq_none {pre s : List Char} (hpre : ':' ∉ pre) (ht : Quiet text)
    (hs : s <:+ pre ++ ':' :: ' ' :: text) : separated s = none := by
  refine Option.eq_none_iff_forall_ne_some.mpr fun m hm => ?_
  obtain ⟨line, column, w, r, hline, -, rfl⟩ := separated_eq_some hm
  have hin := suffix_of_head hs rfl hpre
  -- the colon before the text is followed by a blank, not by a number
  rcases List.suffix_cons_iff.mp hin with heq | hin
  · have hblank := (List.cons.inj heq).2
    exact absurd hblank.symm (by simpa using hline.blank_ne)
  · exact ht.not_suffix (suffix_of_head (a := [' ']) hin rfl (by decide))

theorem colon_not_mem_tail {w : Bool} : ':' ∉ (marker w).tail := by
  cases w <;> decide

/-- With no marker in `f` and a colon after it, a marker that ends after `f` starts after it. -/
theorem exists_of_marker {x b : List Char} (hf : Quiet f)
    (h : x ++ (marker w ++ r) = f ++ ':' :: b) :
    ∃ x', x = f ++ x' ∧ x' ++ (marker w ++ r) = ':' :: b := by
  rcases List.append_eq_append_iff.mp h with ⟨a, rfl, hb⟩ | ⟨x', rfl, hb⟩
  · rcases List.append_eq_append_iff.mp hb with ⟨a', rfl, -⟩ | ⟨b', hmarker, hb'⟩
    · exact absurd ⟨x, a', by simp⟩ (hf w)
    · cases a with
      | nil => exact ⟨[], by simp, hb⟩
      | cons c a =>
        -- the rest of the marker would have to start with a colon
        cases b' with
        | nil => exact absurd ⟨x, [], by simp [hmarker]⟩ (hf w)
        | cons d b' =>
          obtain rfl : ':' = d := (List.cons.inj hb').1
          exact absurd (by simp [hmarker]) (colon_not_mem_tail (w := w))
  · exact ⟨x', rfl, hb.symm⟩

/-- Before a marker in `":" line ":" column` and what follows them stand both colons. -/
theorem two_le_count {x line column : List Char} (hline : IsNumber line) (hcolumn : IsNumber column)
    (h : x ++ (marker w ++ r) = ':' :: (line ++ ':' :: (column ++ t))) : 2 ≤ x.count ':' := by
  cases x with
  | nil => exact absurd (List.cons.inj h).2 hline.blank_ne
  | cons c x =>
    obtain ⟨rfl, htail⟩ := List.cons.inj h
    suffices hcolon : ':' ∈ x by
      have hpos := List.count_pos_iff.mpr hcolon
      simp only [List.count_cons_self]
      omega
    rcases List.append_eq_append_iff.mp htail with ⟨a, rfl, hr⟩ | ⟨b, rfl, hr⟩
    · cases a with
      | nil => exact absurd (List.cons.inj hr).2 hcolumn.blank_ne
      | cons c a =>
        obtain rfl : ':' = c := (List.cons.inj hr).1
        exact absurd (by simp) (hline.not_mem (c := ':') rfl)
    · cases b with
      | nil => exact absurd (List.cons.inj hr).2.symm hcolumn.blank_ne
      | cons c b =>
        obtain rfl : ':' = c := (List.cons.inj hr).1
        simp

variable {line column : List Char}

theorem IsNumber.count_colon {ds : List Char} (hds : IsNumber ds) : ds.count ':' = 0 :=
  List.count_eq_zero.mpr (hds.not_mem rfl)

/-- No parenthesized place starts in a quiet file before a separated place. -/
theorem parenthesized_of_separated (hline : IsNumber line) (hcolumn : IsNumber column)
    (hf : Quiet f) :
    parenthesized (f ++ ':' :: (line ++ ':' :: (column ++ t))) = none := by
  refine Option.eq_none_iff_forall_ne_some.mpr fun m hm => ?_
  obtain ⟨ls, ks, w, r, hls, hks, heq⟩ := parenthesized_eq_some hm
  obtain ⟨x, hx, hrest⟩ := exists_of_marker hf heq.symm
  have hmore : 2 ≤ x.count ':' := two_le_count hline hcolumn hrest
  have hcount : 0 = f.count ':' + x.count ':' := by
    simpa [hls.count_colon, hks.count_colon] using congrArg (List.count ':') hx
  omega

/-- No separated place starts in a quiet file before the separated place at its end. -/
theorem separated_of_separated (hline : IsNumber line) (hcolumn : IsNumber column)
    (hf : Quiet f) (hne : f ≠ []) :
    separated (f ++ ':' :: (line ++ ':' :: (column ++ t))) = none := by
  refine Option.eq_none_iff_forall_ne_some.mpr fun m hm => ?_
  obtain ⟨ls, ks, w, r, hls, hks, heq⟩ := separated_eq_some hm
  obtain ⟨x, hx, hrest⟩ := exists_of_marker hf heq.symm
  have hmore : 2 ≤ x.count ':' := two_le_count hline hcolumn hrest
  have hcount : 2 = f.count ':' + x.count ':' := by
    simpa [hls.count_colon, hks.count_colon] using congrArg (List.count ':') hx
  -- the place starts with a colon, which is in the file
  obtain ⟨c, f, rfl⟩ := List.exists_cons_of_ne_nil hne
  obtain rfl : ':' = c := (List.cons.inj hx).1
  simp only [List.count_cons_self] at hcount
  omega

end Places

/-! ## The searches -/

section Search

variable {cs rest read file : List Char} {m : CompilerMessage}

theorem findLast_eq_none (h : ∀ s, s <:+ cs → parenthesized s = none) : findLast read cs = none := by
  induction cs generalizing read with
  | nil => rfl
  | cons c cs ih =>
    have hhere := h _ (List.suffix_refl _)
    have hlater : findLast (c :: read) cs = none :=
      ih fun s hs => h s (hs.trans (List.suffix_cons c cs))
    simp [findLast, hhere, hlater]

theorem findFirst_eq_none (h : ∀ s, s <:+ cs → separated s = none) : findFirst read cs = none := by
  induction cs generalizing read with
  | nil => rfl
  | cons c cs ih =>
    have hhere := h _ (List.suffix_refl _)
    have hlater : findFirst (c :: read) cs = none :=
      ih fun s hs => h s (hs.trans (List.suffix_cons c cs))
    simp [findFirst, hhere, hlater]

/-- The last place is found, after whatever stands before it on its line. -/
theorem findLast_append (hfile : '\n' ∉ file) (hrest : parenthesized rest = some m)
    (hlater : ∀ s, s <:+ rest.tail → parenthesized s = none) :
    findLast read (file ++ rest) = some (withFile (file.reverse ++ read) m) := by
  induction file generalizing read with
  | nil =>
    cases rest with
    | nil => cases hrest
    | cons c rest =>
      have hnone : findLast (c :: read) rest = none := findLast_eq_none hlater
      simp [findLast, hrest, hnone]
  | cons c file ih =>
    have hnl : c ≠ '\n' := fun h => hfile (by simp [h])
    have hfound : findLast (c :: read) (file ++ rest) =
        some (withFile (file.reverse ++ c :: read) m) := ih fun h => hfile (by simp [h])
    simp [findLast, hnl, hfound]

/-- The first place after a non-empty file is found. -/
theorem findFirst_append (hfile : '\n' ∉ file) (hne : file ++ read ≠ [])
    (hrest : separated rest = some m)
    (hearlier : ∀ s, s <:+ file → s ≠ [] → separated (s ++ rest) = none) :
    findFirst read (file ++ rest) = some (withFile (file.reverse ++ read) m) := by
  induction file generalizing read with
  | nil =>
    cases rest with
    | nil => cases hrest
    | cons c rest =>
      have hread : read ≠ [] := by simpa using hne
      simp [findFirst, hrest, hread]
  | cons c file ih =>
    have hnl : c ≠ '\n' := fun h => hfile (by simp [h])
    have hhere : separated (c :: (file ++ rest)) = none :=
      hearlier _ (List.suffix_refl _) (by simp)
    have hfound : findFirst (c :: read) (file ++ rest) =
        some (withFile (file.reverse ++ c :: read) m) :=
      ih (fun h => hfile (by simp [h])) (by simp)
        fun s hs => hearlier s (hs.trans (List.suffix_cons c file))
    simp [findFirst, hnl, hhere, hfound]

end Search

/-! ## Reading back -/

section Print

variable {m : CompilerMessage} {file : String} {layout : Layout}

theorem toList_rest (layout : Layout) (m : CompilerMessage) :
    (layout.rest m).toList =
      (layout.place m.line m.column).toList ++ (word m.isWarning ++ layout.tag m.code).toList ++
        ':' :: ' ' :: m.text.toList := by
  simp [Layout.rest]

theorem toList_separated_rest (m : CompilerMessage) :
    ∃ t, (Layout.separated.rest m).toList =
      ':' :: (Nat.toDigits 10 m.line ++ ':' :: (Nat.toDigits 10 m.column ++ t)) := by
  simp [Layout.rest, Layout.place]

theorem not_mem_code {code : String} {c : Char} (hcode : IsCode code) (hc : c.isAlphanum = false) :
    c ∉ code.toList := by
  obtain ⟨letters, digits, hsplit, -, halpha, hdigits⟩ := hcode
  simp only [Char.isAlphanum, Bool.or_eq_false_iff] at hc
  rw [hsplit, List.mem_append, not_or]
  exact ⟨fun h => by simp [halpha c h] at hc, hdigits.not_mem hc.2⟩

/-- Neither a parenthesis nor a colon stands between the place and the colon before the text. -/
theorem not_mem_wordTag {c : Char} (hc : c = '(' ∨ c = ':') (hcode : m.code = "" ∨ IsCode m.code) :
    c ∉ (word m.isWarning ++ layout.tag m.code).toList := by
  have hword : c ∉ (word m.isWarning).toList := by
    rcases hc with rfl | rfl <;> cases m.isWarning <;> decide
  have hcodeword : c ∉ m.code.toList := by
    rcases hcode with h | h
    · simp [h]
    · exact not_mem_code h (by rcases hc with rfl | rfl <;> rfl)
  have hbracket : c ∉ (bracket m.code).toList := by
    unfold bracket
    split
    · simp
    · rcases hc with rfl | rfl <;> simpa using hcodeword
  have hblank : c ≠ ' ' := by rcases hc with rfl | rfl <;> decide
  rw [String.toList_append, List.mem_append, not_or]
  cases layout <;> simp [Layout.tag, hword, hcodeword, hbracket, hblank]

/-- No parenthesized place starts after what stands before the severity. -/
theorem parenthesized_of_suffix {pre s : List Char} (layout : Layout) (hm : Printable m)
    (hcode : m.code = "" ∨ IsCode m.code) (hpre : '(' ∉ pre)
    (hs : s <:+ pre ++ (word m.isWarning ++ layout.tag m.code).toList ++ ':' :: ' ' :: m.text.toList) :
    parenthesized s = none := by
  have hhead : '(' ∉ pre ++ (word m.isWarning ++ layout.tag m.code).toList ++ [':', ' '] := by
    simp only [List.mem_append, not_or]
    exact ⟨⟨hpre, not_mem_wordTag (.inl rfl) hcode⟩, by decide⟩
  exact parenthesized_eq_none hhead hm.text_quiet (by simpa using hs)

theorem not_mem_digits {n : Nat} : '(' ∉ Nat.toDigits 10 n :=
  (isNumber_toDigits n).not_mem rfl

theorem findLast_parenthesized (hm : Printable m) (hfile : m.file = some file)
    (hcode : IsCode m.code) :
    findLast [] (file.toList ++ (Layout.parenthesized.rest m).toList) = some m := by
  rw [findLast_append (hm.file_oneLine file hfile) (parenthesized_rest hm hcode)]
  · simp [withFile, ← hfile]
  · intro s hs
    have hpre : '(' ∉ (Layout.parenthesized.place m.line m.column).toList.tail := by
      simp [Layout.place, not_mem_digits]
    exact parenthesized_of_suffix .parenthesized hm (.inr hcode) hpre
      (by simpa [toList_rest, Layout.place] using hs)

/-- A layout without a place has no place in its printed form. -/
theorem find_unplaced (layout : Layout) (hm : Printable m) (hcode : m.code = "" ∨ IsCode m.code)
    (hplace : layout.place m.line m.column = "") :
    findLast [] (layout.rest m).toList = none ∧ findFirst [] (layout.rest m).toList = none := by
  rw [toList_rest, hplace]
  constructor
  · exact findLast_eq_none fun s hs => parenthesized_of_suffix layout hm hcode (by decide) hs
  · exact findFirst_eq_none fun s hs =>
      separated_eq_none (not_mem_wordTag (.inr rfl) hcode) hm.text_quiet (by simpa using hs)

theorem find_separated (hm : Printable m) (hfile : m.file = some file) (hne : file ≠ "")
    (hcode : m.code = "" ∨ IsCode m.code) :
    findLast [] (file.toList ++ (Layout.separated.rest m).toList) = none ∧
      findFirst [] (file.toList ++ (Layout.separated.rest m).toList) = some m := by
  have hquiet : ∀ s, s <:+ file.toList → Quiet s := fun s hs =>
    (hm.file_quiet file hfile).of_isInfix hs.isInfix
  obtain ⟨t, ht⟩ := toList_separated_rest m
  constructor
  · refine findLast_eq_none fun s hs => ?_
    rcases suffix_append_cases hs with hs | ⟨f, -, hf, rfl⟩
    · have hpre : '(' ∉ (Layout.separated.place m.line m.column).toList := by
        simp [Layout.place, not_mem_digits]
      exact parenthesized_of_suffix .separated hm hcode hpre (toList_rest .separated m ▸ hs)
    · rw [ht]
      exact parenthesized_of_separated (isNumber_toDigits _) (isNumber_toDigits _) (hquiet f hf)
  · rw [findFirst_append (hm.file_oneLine file hfile) (by simpa using hne) (separated_rest hm hcode)]
    · simp [withFile, ← hfile]
    · intro f hf hfne
      rw [ht]
      exact separated_of_separated (isNumber_toDigits _) (isNumber_toDigits _) (hquiet f hf) hfne

theorem unplaced_eq (hfile : m.file = none) (hline : m.line = 0) (hcolumn : m.column = 0) :
    ⟨none, 0, 0, m.isWarning, m.code, m.text⟩ = m := by
  cases m
  simp_all only

/-- The layouts tried in turn agree on the layout printed. -/
theorem found_print (hm : Printable m) (hfits : layout.Fits m) :
    (findLast [] (print layout m).toList <|> findFirst [] (print layout m).toList <|>
      spaced (print layout m).toList <|> bracketed (print layout m).toList) = some m := by
  have htoList : ∀ file, m.file = some file →
      (print layout m).toList = file.toList ++ (layout.rest m).toList := by
    intro file hfile
    simp [print, hfile]
  cases layout with
  | parenthesized =>
    obtain ⟨hfile, hcode⟩ := hfits
    obtain ⟨file, hfile⟩ := Option.ne_none_iff_exists'.mp hfile
    rw [htoList file hfile, findLast_parenthesized hm hfile hcode]
    rfl
  | separated =>
    obtain ⟨hfile, hne, hcode⟩ := hfits
    obtain ⟨file, hfile⟩ := Option.ne_none_iff_exists'.mp hfile
    have hfind := find_separated hm hfile (fun h => hne (by rw [hfile, h])) hcode
    rw [htoList file hfile, hfind.1, hfind.2]
    rfl
  | spaced =>
    obtain ⟨hfile, hline, hcolumn, hcode⟩ := hfits
    have hfind := find_unplaced .spaced hm (.inr hcode) rfl
    have hprint : print .spaced m = Layout.spaced.rest m := by simp [print, hfile]
    rw [hprint, hfind.1, hfind.2, spaced_rest hm hcode, unplaced_eq hfile hline hcolumn]
    rfl
  | bracketed =>
    obtain ⟨hfile, hline, hcolumn, hcode⟩ := hfits
    have hfind := find_unplaced .bracketed hm hcode rfl
    have hprint : print .bracketed m = Layout.bracketed.rest m := by simp [print, hfile]
    rw [hprint, hfind.1, hfind.2, spaced_bracketed_rest, bracketed_rest hm hcode,
      unplaced_eq hfile hline hcolumn]
    rfl

theorem trimEnd_append {a text : String} (hne : text ≠ "") (ht : Text.trimEnd text = text) :
    Text.trimEnd (a ++ text) = a ++ text := by
  have hkept : text.toList.reverse.dropWhile Text.isBlank = text.toList.reverse := by
    have h := congrArg String.toList ht
    rw [Text.trimEnd, String.toList_ofList] at h
    exact List.reverse_eq_iff.mp h
  simp [Text.trimEnd, Text.dropEndWhile, List.dropWhile_append, hkept, hne]

/-- A printed message is read back. -/
theorem ofLine?_print (hm : Printable m) (hfits : layout.Fits m) :
    ofLine? (print layout m) = some m := by
  have htrim : Text.trimEnd (print layout m) = print layout m := by
    have hsplit : print layout m = (m.file.getD "" ++ (layout.place m.line m.column ++
        word m.isWarning ++ layout.tag m.code ++ ": ")) ++ m.text := by
      simp only [print, Layout.rest, String.append_assoc]
    rw [hsplit, trimEnd_append hm.text_ne_empty hm.text_trimmed]
  simp only [ofLine?, htrim, found_print hm hfits]
  simp [hm.not_summary]

end Print

/-- A file that looks like places and a text that looks like an error of its own. -/
def lookalike : CompilerMessage :=
  ⟨some "a(1,2):3:4 error E5", 4294967295, 0, true, "E0425", "error[E1]: b(6,7): c:8:9: d"⟩

theorem printable_lookalike : Printable lookalike where
  line_lt := by decide
  column_lt := by decide
  file_oneLine := by
    rintro _ ⟨rfl⟩
    decide
  file_quiet := by
    rintro _ ⟨rfl⟩
    decide +kernel
  text_oneLine := by decide
  text_quiet := by decide +kernel
  text_ne_empty := by decide
  text_trimmed := by decide
  not_summary := by decide

theorem ofLine?_print_lookalike :
    (Printable lookalike ∧ Layout.separated.Fits lookalike) ∧
      ofLine? "a(1,2):3:4 error E5:4294967295:0: warning[E0425]: error[E1]: b(6,7): c:8:9: d" =
        some lookalike := by
  have hcode : IsCode lookalike.code := by
    exact ⟨['E'], ['0', '4', '2', '5'], rfl, by simp, by simp, by simp, by simp⟩
  have hfits : Layout.separated.Fits lookalike := ⟨by decide, by decide, .inr hcode⟩
  have hprint : print .separated lookalike =
      "a(1,2):3:4 error E5:4294967295:0: warning[E0425]: error[E1]: b(6,7): c:8:9: d" := by
    decide +kernel
  exact ⟨⟨printable_lookalike, hfits⟩, hprint ▸ ofLine?_print printable_lookalike hfits⟩

end Templating.CompilerMessage
