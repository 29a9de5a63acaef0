import Mathlib
import Templating.Scanner

/-!
# The template grammar

A reading of a text is literal text with tags between. A tag takes the line break after it along,
unless it is an expression. The grammar is unambiguous: a text has at most one reading
(`Reading.eq_of_source`).
-/

namespace Templating

/-- A token without its places. -/
def Token.face (t : Token) : TokenKind × Option String := (t.kind, t.value)

namespace Grammar

inductive CodeKind
  | expression
  | helper
  | block
deriving DecidableEq, Repr

def CodeKind.token : CodeKind → TokenKind
  | .expression => .expression
  | .helper => .helper
  | .block => .block

/-- What stands between `<#` and the body. -/
def CodeKind.mark : CodeKind → List Char
  | .expression => ['=']
  | .helper => ['+']
  | .block => []

/-! ## The pieces of a text -/

/-- Literal text before a tag. -/
def NoOpening (cs : List Char) : Prop := ¬ ['<', '#'] <:+: cs

/-- Literal text at the end of a source, where `<#` may be the last two characters. -/
def NoTag (cs : List Char) : Prop := ∀ k, ¬ ['<', '#', k] <:+: cs

/-- A body up to the first `#>` that no backslash stands before. -/
structure IsBody (r : List Char) : Prop where
  closed : r.getLast? ≠ some '\\'
  shortest : ∀ r', r' ++ ['#', '>'] <+: r ++ ['#', '>'] → r'.getLast? ≠ some '\\' → r' = r

/-- `v` is `r` with every occurrence of `old` replaced by `new`. -/
def Replaced (old new r v : List Char) : Prop :=
  ∃ p ps, (∀ x ∈ p :: ps, ¬ old <:+: x) ∧ r = old.intercalate (p :: ps) ∧ v = new.intercalate (p :: ps)

/-- The body of a block must not read as the mark of another tag. -/
def CodeKind.Admits (k : CodeKind) (r : List Char) : Prop :=
  k = .block → ∀ c ∈ r.head?, c ≠ '@' ∧ c ≠ '=' ∧ c ≠ '+'

def lineBreaks : List (List Char) := [[], ['\n'], ['\r'], ['\r', '\n']]

/-- The longest line break before a text, or nothing. -/
structure IsLineBreak (n following : List Char) : Prop where
  mem : n ∈ lineBreaks
  longest : ∀ m ∈ lineBreaks, m <+: n ++ following → m.length ≤ n.length

/-- What a code tag takes along. -/
def CodeKind.Takes (k : CodeKind) (n following : List Char) : Prop :=
  if k = .expression then n = [] else IsLineBreak n following

def Blanks (cs : List Char) : Prop := ∀ c ∈ cs, Text.isBlank c

/-- A letter and the longest run of letters and digits after it. -/
structure IsName (n following : List Char) : Prop where
  letter : ∃ c r, n = c :: r ∧ Text.isAlphabetic c
  all : ∀ c ∈ n, Text.isAlphanumeric c
  longest : ∀ c ∈ following.head?, ¬ Text.isAlphanumeric c

def IsQuote (q : Char) : Prop := q = '\'' ∨ q = '"'

instance (q : Char) : Decidable (IsQuote q) := inferInstanceAs (Decidable (_ ∨ _))

/-- The inside of a directive tag: names and values with blanks before them, then `#>`. -/
inductive DirectiveText
  | close (gap : List Char)
  | name (gap name : List Char) (rest : DirectiveText)
  | value (gap inner : List Char) (quote : Char) (text : List Char) (rest : DirectiveText)

namespace DirectiveText

def source : DirectiveText → List Char
  | close gap => gap ++ ['#', '>']
  | name gap n rest => gap ++ (n ++ rest.source)
  | value gap inner q text rest => gap ++ '=' :: (inner ++ q :: (text ++ q :: rest.source))

def Valid : DirectiveText → Prop
  | close gap => Blanks gap
  | name gap n rest => Blanks gap ∧ IsName n rest.source ∧ rest.Valid
  | value gap inner q text rest => Blanks gap ∧ Blanks inner ∧ IsQuote q ∧ q ∉ text ∧ rest.Valid

/-- The tokens after the one that opens the directive. -/
def faces : DirectiveText → List (TokenKind × Option String)
  | close _ => []
  | name _ n rest => (.directiveName, some (String.ofList n)) :: (.directive, none) :: rest.faces
  | value _ _ _ text rest =>
    (.directiveValue, some (String.ofList text)) :: (.directive, none) :: rest.faces

end DirectiveText

/-- A text read as literal text, a tag with its line break, and what follows, in turn. -/
inductive Reading
  | text (content : List Char)
  | code (content : List Char) (kind : CodeKind) (body lineBreak : List Char) (rest : Reading)
  | directive (content : List Char) (inside : DirectiveText) (lineBreak : List Char)
    (rest : Reading)

namespace Reading

def source : Reading → List Char
  | text c => c
  | code c k r n rest => c ++ '<' :: '#' :: (k.mark ++ (r ++ '#' :: '>' :: (n ++ rest.source)))
  | directive c d n rest => c ++ '<' :: '#' :: '@' :: (d.source ++ (n ++ rest.source))

def Valid : Reading → Prop
  | text c => NoTag c
  | code c k r n rest =>
    NoOpening c ∧ k.Admits r ∧ IsBody r ∧ k.Takes n rest.source ∧ rest.Valid
  | directive c d n rest => NoOpening c ∧ d.Valid ∧ IsLineBreak n rest.source ∧ rest.Valid

/-- The tokens of the text. Literal text leaves a token even where it is empty. -/
def faces : Reading → List (TokenKind × Option String)
  | text c => [(.content, some (String.ofList c)), (.eof, none)]
  | code c k r _ rest =>
    (.content, some (String.ofList c)) ::
      (k.token, some (String.ofList (Scan.unescapeTags r))) :: rest.faces
  | directive c d _ rest =>
    (.content, some (String.ofList c)) :: (.directive, none) :: (d.faces ++ rest.faces)

end Reading

theorem Replaced.cons {old new r v : List Char} (c : Char) (h : Replaced old new r v)
    (hc : ¬ old <+: c :: r) : Replaced old new (c :: r) (c :: v) := by
  obtain ⟨p, ps, hp, rfl, rfl⟩ := h
  have hx : ¬ old <:+: c :: p := by
    rw [List.infix_cons_iff, not_or]
    refine ⟨fun h => hc (h.trans ?_), hp p (by simp)⟩
    cases ps <;> simp
  refine ⟨c :: p, ps, ?_, List.intercalate_cons_cons_left.symm, List.intercalate_cons_cons_left.symm⟩
  rintro x (_ | ⟨_, hm⟩)
  · exact hx
  · exact hp x (List.mem_cons_of_mem _ hm)

/-- A body loses the backslash of every escaped closing tag and nothing else. -/
theorem replaced_unescapeTags (r : List Char) :
    Replaced ['\\', '#', '>'] ['#', '>'] r (Scan.unescapeTags r) := by
  fun_induction Scan.unescapeTags r with
  | case1 r ih =>
    obtain ⟨p, ps, hp, hr, hv⟩ := ih
    refine ⟨[], p :: ps, ?_, ?_, ?_⟩
    · rintro x (_ | ⟨_, hm⟩)
      · simp
      · exact hp x hm
    · rw [List.intercalate_cons_cons, ← hr]; rfl
    · rw [List.intercalate_cons_cons, ← hv]; rfl
  | case2 c r hc ih =>
    refine ih.cons c ?_
    intro h₀
    obtain ⟨z, hz⟩ := h₀
    obtain ⟨rfl, rfl⟩ := List.cons.inj hz
    exact hc z rfl rfl
  | case3 => exact ⟨[], [], by simp, rfl, rfl⟩

/-! ## Blanks are no letters -/

def blankRanges : List (Nat × Nat) :=
  [(0x85, 0x85), (0xA0, 0xA0), (0x1680, 0x1680), (0x2000, 0x200A), (0x2028, 0x2029), (0x202F, 0x202F),
    (0x205F, 0x205F), (0x3000, 0x3000)]

/-- No range has a blank in it. -/
def FreeOfBlanks (ranges : List (Nat × Nat)) : Bool :=
  blankRanges.all fun b => ranges.all fun r => r.2.blt b.1 || b.2.blt r.1

theorem alphabeticRanges_freeOfBlanks : FreeOfBlanks Text.alphabeticRanges := by
  decide +kernel

theorem numericRanges_freeOfBlanks : FreeOfBlanks Text.numericRanges := by
  decide +kernel

theorem isBlank_cases {c : Char} (h : Text.isBlank c) :
    ((9 ≤ c.toNat ∧ c.toNat ≤ 13) ∨ c.toNat = 0x20) ∨ ∃ b ∈ blankRanges, b.1 ≤ c.toNat ∧ c.toNat ≤ b.2 := by
  simp only [Text.isBlank, Bool.or_eq_true, Bool.and_eq_true, decide_eq_true_eq, beq_iff_eq] at h
  simp only [blankRanges, List.mem_cons, List.not_mem_nil, or_false, exists_eq_or_imp, exists_eq_left]
  omega

theorem not_inRanges_of_freeOfBlanks {ranges : List (Nat × Nat)} (h : FreeOfBlanks ranges) {b : Nat × Nat}
    (hb : b ∈ blankRanges) {n : Nat} (hn : b.1 ≤ n ∧ n ≤ b.2) : ¬ Text.inRanges ranges n := by
  simp only [Text.inRanges, List.any_eq_true, Bool.and_eq_true, decide_eq_true_eq, not_exists, not_and]
  intro r hr h₁
  have := List.all_eq_true.1 (List.all_eq_true.1 h b hb) r hr
  rw [Bool.or_eq_true, Nat.blt_eq, Nat.blt_eq] at this
  omega

theorem not_isAlphanumeric_of_isBlank {c : Char} (h : Text.isBlank c) : ¬ Text.isAlphanumeric c := by
  unfold Text.isAlphanumeric Text.isAlphabetic Text.isNumeric
  rcases isBlank_cases h with hn | ⟨b, hb, hn⟩
  · have hv : c.val.toNat = c.toNat := rfl
    rw [if_pos (by omega), if_pos (by omega)]
    simp only [Char.isAlpha, Char.isUpper, Char.isLower, Char.isDigit, ge_iff_le, Bool.or_eq_true,
      Bool.and_eq_true, decide_eq_true_eq, UInt32.le_iff_toNat_le, hv]
    simp
    omega
  · have hlow : ∀ b ∈ blankRanges, 128 ≤ b.1 := by decide
    have hhigh : ¬ c.toNat < 128 := by
      have := hlow b hb
      omega
    rw [if_neg hhigh, if_neg hhigh, Bool.or_eq_true, not_or]
    exact ⟨not_inRanges_of_freeOfBlanks alphabeticRanges_freeOfBlanks hb hn,
      not_inRanges_of_freeOfBlanks numericRanges_freeOfBlanks hb hn⟩

theorem not_isAlphabetic_of_isBlank {c : Char} (h : Text.isBlank c) : ¬ Text.isAlphabetic c := by
  intro ha
  exact not_isAlphanumeric_of_isBlank h (by simp [Text.isAlphanumeric, ha])

theorem IsQuote.not_isBlank {q : Char} (h : IsQuote q) : ¬ Text.isBlank q := by
  rcases h with rfl | rfl <;> decide

/-! ## Pieces are determined by the text they begin -/

theorem span_inj (p : Char → Bool) : ∀ {a a' b b' : List Char}, (∀ x ∈ a, p x) → (∀ x ∈ a', p x) →
    (∀ x ∈ b.head?, ¬ p x) → (∀ x ∈ b'.head?, ¬ p x) → a ++ b = a' ++ b' → a = a' ∧ b = b'
  | [], [], _, _, _, _, _, _, h => ⟨rfl, h⟩
  | [], x :: a', b, _, _, ha', hb, _, h => by
    have : x ∈ b.head? := by rw [show b = x :: (a' ++ _) from h]; rfl
    exact absurd (ha' x (by simp)) (hb x this)
  | x :: a, [], _, b', ha, _, _, hb', h => by
    have : x ∈ b'.head? := by rw [show b' = x :: (a ++ _) from h.symm]; rfl
    exact absurd (ha x (by simp)) (hb' x this)
  | x :: a, x' :: a', b, b', ha, ha', hb, hb', h => by
    simp only [List.cons_append, List.cons.injEq] at h
    obtain ⟨rfl, h⟩ := h
    obtain ⟨rfl, rfl⟩ := span_inj p (fun y hy => ha y (by simp [hy])) (fun y hy => ha' y (by simp [hy]))
      hb hb' h
    exact ⟨rfl, rfl⟩

theorem content_not_longer {c c' y y' : List Char} (hc' : NoOpening c')
    (h : c ++ '<' :: '#' :: y = c' ++ y') : c'.length ≤ c.length ∨ ∃ x, c' = c ++ ['<'] ∧ y' = '#' :: x := by
  rcases List.append_eq_append_iff.1 h with ⟨d, hd, hy⟩ | ⟨d, hd, -⟩
  · match d, hy with
    | [], _ => left; simp [hd]
    | [a], hy =>
      right
      simp only [List.singleton_append, List.cons.injEq] at hy
      exact ⟨y, by rw [hd, hy.1], hy.2.symm⟩
    | a :: b :: d, hy =>
      exfalso
      simp only [List.cons_append, List.cons.injEq] at hy
      exact hc' ⟨c, d, by rw [hd, ← hy.1, ← hy.2.1]; simp⟩
  · left; simp [hd]

theorem content_inj {c c' y y' : List Char} (hc : NoOpening c) (hc' : NoOpening c')
    (h : c ++ '<' :: '#' :: y = c' ++ '<' :: '#' :: y') : c = c' ∧ y = y' := by
  have hl : c.length = c'.length := by
    rcases content_not_longer hc' h with h1 | ⟨x, -, hx⟩
    · rcases content_not_longer hc h.symm with h2 | ⟨x, -, hx⟩
      · omega
      · simp at hx
    · simp at hx
  obtain ⟨rfl, h⟩ := List.append_inj h hl
  exact ⟨rfl, by simpa using h⟩

theorem NoTag.ne_opening {c c' y : List Char} (hc : NoTag c) (hy : y ≠ []) : c ≠ c' ++ '<' :: '#' :: y := by
  rintro rfl
  cases y with
  | nil => exact hy rfl
  | cons k y => exact hc k ⟨c', y, by simp⟩

theorem CodeKind.Admits.head {r y z : List Char} {a : Char} (h : CodeKind.block.Admits r)
    (e : r ++ '#' :: y = a :: z) : a ≠ '@' ∧ a ≠ '=' ∧ a ≠ '+' := by
  cases r with
  | nil =>
    simp only [List.nil_append, List.cons.injEq] at e
    rw [← e.1]; decide
  | cons c r =>
    simp only [List.cons_append, List.cons.injEq] at e
    rw [← e.1]; exact h rfl c (by simp)

theorem mark_inj {k k' : CodeKind} {r r' y y' : List Char} (hk : k.Admits r) (hk' : k'.Admits r')
    (h : k.mark ++ (r ++ '#' :: y) = k'.mark ++ (r' ++ '#' :: y')) :
    k = k' ∧ r ++ '#' :: y = r' ++ '#' :: y' := by
  cases k with
  | expression =>
    cases k' with
    | expression => exact ⟨rfl, by simpa [CodeKind.mark] using h⟩
    | helper => simp [CodeKind.mark] at h
    | block => exact absurd rfl (hk'.head h.symm).2.1
  | helper =>
    cases k' with
    | expression => simp [CodeKind.mark] at h
    | helper => exact ⟨rfl, by simpa [CodeKind.mark] using h⟩
    | block => exact absurd rfl (hk'.head h.symm).2.2
  | block =>
    cases k' with
    | expression => exact absurd rfl (hk.head h).2.1
    | helper => exact absurd rfl (hk.head h).2.2
    | block => exact ⟨rfl, h⟩

theorem mark_ne_directive {k : CodeKind} {r y z : List Char} (hk : k.Admits r) :
    k.mark ++ (r ++ '#' :: y) ≠ '@' :: z := by
  intro h
  cases k with
  | expression => simp [CodeKind.mark] at h
  | helper => simp [CodeKind.mark] at h
  | block => exact (hk.head h).1 rfl

theorem body_inj {r r' y y' : List Char} (hr : IsBody r) (hr' : IsBody r')
    (h : r ++ '#' :: '>' :: y = r' ++ '#' :: '>' :: y') : r = r' ∧ y = y' := by
  have e : r = r' := by
    have h₁ : r ++ ['#', '>'] <+: r ++ '#' :: '>' :: y := ⟨y, by simp⟩
    have h₂ : r' ++ ['#', '>'] <+: r ++ '#' :: '>' :: y := ⟨y', by simp [h]⟩
    rcases List.prefix_or_prefix_of_prefix h₁ h₂ with hp | hp
    · exact hr'.shortest r hp hr.closed
    · exact (hr.shortest r' hp hr'.closed).symm
  subst e
  exact ⟨rfl, by simpa using h⟩

theorem lineBreak_inj {n n' y y' : List Char} (hn : IsLineBreak n y) (hn' : IsLineBreak n' y')
    (h : n ++ y = n' ++ y') : n = n' ∧ y = y' := by
  have h₁ : n'.length ≤ n.length := hn.longest n' hn'.mem ⟨y', h.symm⟩
  have h₂ : n.length ≤ n'.length := hn'.longest n hn.mem ⟨y, h⟩
  exact List.append_inj h (Nat.le_antisymm h₂ h₁)

theorem takes_inj {k : CodeKind} {n n' y y' : List Char} (hn : k.Takes n y) (hn' : k.Takes n' y')
    (h : n ++ y = n' ++ y') : n = n' ∧ y = y' := by
  unfold CodeKind.Takes at hn hn'
  split at hn
  · rename_i hk
    rw [if_pos hk] at hn'
    subst hn hn'
    exact ⟨rfl, h⟩
  · rename_i hk
    rw [if_neg hk] at hn'
    exact lineBreak_inj hn hn' h

theorem gap_inj {g g' y y' : List Char} (a a' : Char) (hg : Blanks g) (hg' : Blanks g')
    (ha : ¬ Text.isBlank a) (ha' : ¬ Text.isBlank a') (h : g ++ a :: y = g' ++ a' :: y') :
    g = g' ∧ a = a' ∧ y = y' := by
  obtain ⟨rfl, e⟩ := span_inj Text.isBlank hg hg' (by simpa using ha) (by simpa using ha') h
  exact ⟨rfl, List.cons.inj e⟩

theorem quoted_inj {q : Char} {t t' y y' : List Char} (ht : q ∉ t) (ht' : q ∉ t')
    (h : t ++ q :: y = t' ++ q :: y') : t = t' ∧ y = y' := by
  have hne : ∀ {t : List Char}, q ∉ t → ∀ x ∈ t, decide (x ≠ q) := by
    intro t ht x hx
    rw [decide_eq_true_eq]
    rintro rfl
    exact ht hx
  obtain ⟨rfl, e⟩ := span_inj (· ≠ q) (hne ht) (hne ht') (by simp) (by simp) h
  exact ⟨rfl, (List.cons.inj e).2⟩

theorem IsName.head_not_isBlank {n y : List Char} (h : IsName n y) :
    ∃ c r, n = c :: r ∧ Text.isAlphabetic c ∧ ¬ Text.isBlank c := by
  obtain ⟨c, r, rfl, hc⟩ := h.letter
  exact ⟨c, r, rfl, hc, fun hb => not_isAlphabetic_of_isBlank hb hc⟩

theorem DirectiveText.source_ne_nil (d : DirectiveText) : d.source ≠ [] := by
  induction d with
  | close => simp [source]
  | name _ _ _ ih => simp [source, ih]
  | value => simp [source]

theorem DirectiveText.head?_source_append (d : DirectiveText) (y : List Char) :
    (d.source ++ y).head? = d.source.head? := by
  rw [List.head?_append, Option.or_of_isSome (List.isSome_head?.2 d.source_ne_nil)]

theorem name_inj {n n' : List Char} {d d' : DirectiveText} (y y' : List Char) (hn : IsName n d.source)
    (hn' : IsName n' d'.source) (h : n ++ (d.source ++ y) = n' ++ (d'.source ++ y')) :
    n = n' ∧ d.source ++ y = d'.source ++ y' := by
  refine span_inj Text.isAlphanumeric hn.all hn'.all ?_ ?_ h
  · rw [d.head?_source_append]; exact hn.longest
  · rw [d'.head?_source_append]; exact hn'.longest

/-! ## Readings are determined by their text -/

theorem DirectiveText.eq_of_source : ∀ {d d' : DirectiveText} {y y' : List Char}, d.Valid → d'.Valid →
    d.source ++ y = d'.source ++ y' → d = d' ∧ y = y' := by
  intro d
  induction d with
  | close g =>
    intro d' y y' hd hd' h
    cases d' with
    | close g' =>
      obtain ⟨rfl, -, e⟩ := gap_inj '#' '#' hd hd' (by decide) (by decide)
        (by simpa [source] using h)
      exact ⟨rfl, by simpa using e⟩
    | name g' n' rest' =>
      obtain ⟨c, r, rfl, hc, hb⟩ := hd'.2.1.head_not_isBlank
      obtain ⟨-, rfl, -⟩ := gap_inj '#' c hd hd'.1 (by decide) hb
        (by simpa [source] using h)
      exact absurd hc (by decide)
    | value g' i' q' t' rest' =>
      obtain ⟨-, e, -⟩ := gap_inj '#' '=' hd hd'.1 (by decide) (by decide)
        (by simpa [source] using h)
      exact absurd e (by decide)
  | name g n rest ih =>
    intro d' y y' hd hd' h
    obtain ⟨c, r, rfl, hc, hb⟩ := hd.2.1.head_not_isBlank
    cases d' with
    | close g' =>
      obtain ⟨-, rfl, -⟩ := gap_inj c '#' hd.1 hd' hb (by decide)
        (by simpa [source] using h)
      exact absurd hc (by decide)
    | name g' n' rest' =>
      obtain ⟨c', r', rfl, hc', hb'⟩ := hd'.2.1.head_not_isBlank
      obtain ⟨rfl, rfl, e⟩ := gap_inj c c' hd.1 hd'.1 hb hb'
        (by simpa [source] using h)
      obtain ⟨hr, e₁⟩ := name_inj y y' hd.2.1 hd'.2.1 (by simpa using e)
      obtain ⟨rfl, rfl⟩ := ih hd.2.2 hd'.2.2 e₁
      exact ⟨by rw [hr], rfl⟩
    | value g' i' q' t' rest' =>
      obtain ⟨-, rfl, -⟩ := gap_inj c '=' hd.1 hd'.1 hb (by decide)
        (by simpa [source] using h)
      exact absurd hc (by decide)
  | value g i q t rest ih =>
    intro d' y y' hd hd' h
    cases d' with
    | close g' =>
      obtain ⟨-, e, -⟩ := gap_inj '=' '#' hd.1 hd' (by decide) (by decide)
        (by simpa [source] using h)
      exact absurd e (by decide)
    | name g' n' rest' =>
      obtain ⟨c, r, rfl, hc, hb⟩ := hd'.2.1.head_not_isBlank
      obtain ⟨-, rfl, -⟩ := gap_inj '=' c hd.1 hd'.1 (by decide) hb
        (by simpa [source] using h)
      exact absurd hc (by decide)
    | value g' i' q' t' rest' =>
      obtain ⟨rfl, -, e⟩ := gap_inj '=' '=' hd.1 hd'.1 (by decide) (by decide)
        (by simpa [source] using h)
      obtain ⟨-, hi, hq, ht, hr⟩ := hd
      obtain ⟨-, hi', hq', ht', hr'⟩ := hd'
      obtain ⟨rfl, rfl, e₁⟩ := gap_inj q q' hi hi' hq.not_isBlank hq'.not_isBlank (by simpa using e)
      obtain ⟨rfl, e₂⟩ := quoted_inj ht ht' e₁
      obtain ⟨rfl, rfl⟩ := ih hr hr' e₂
      exact ⟨rfl, rfl⟩

/-- **Unambiguity.** A text has at most one reading. -/
theorem Reading.eq_of_source : ∀ {ρ ρ' : Reading}, ρ.Valid → ρ'.Valid → ρ.source = ρ'.source → ρ = ρ' := by
  intro ρ
  induction ρ with
  | text c =>
    intro ρ' h h' e
    cases ρ' with
    | text c' => exact congrArg text e
    | code c' k' r' n' rest' => exact absurd e (h.ne_opening (by simp))
    | directive c' d' n' rest' => exact absurd e (h.ne_opening (by simp))
  | code c k r n rest ih =>
    intro ρ' h h' e
    obtain ⟨hc, hk, hr, hn, hrest⟩ := h
    cases ρ' with
    | text c' => exact absurd e.symm (NoTag.ne_opening h' (by simp))
    | code c' k' r' n' rest' =>
      obtain ⟨hc', hk', hr', hn', hrest'⟩ := h'
      obtain ⟨rfl, e₁⟩ := content_inj hc hc' e
      obtain ⟨rfl, e₂⟩ := mark_inj hk hk' e₁
      obtain ⟨rfl, e₃⟩ := body_inj hr hr' e₂
      obtain ⟨rfl, e₄⟩ := takes_inj hn hn' e₃
      rw [ih hrest hrest' e₄]
    | directive c' d' n' rest' => exact absurd (content_inj hc h'.1 e).2 (mark_ne_directive hk)
  | directive c d n rest ih =>
    intro ρ' h h' e
    obtain ⟨hc, hd, hn, hrest⟩ := h
    cases ρ' with
    | text c' => exact absurd e.symm (NoTag.ne_opening h' (by simp))
    | code c' k' r' n' rest' =>
      exact absurd (content_inj hc h'.1 e).2.symm (mark_ne_directive h'.2.1)
    | directive c' d' n' rest' =>
      obtain ⟨hc', hd', hn', hrest'⟩ := h'
      obtain ⟨rfl, e₁⟩ := content_inj hc hc' e
      obtain ⟨rfl, e₂⟩ := DirectiveText.eq_of_source hd hd' (List.cons.inj e₁).2
      obtain ⟨rfl, e₃⟩ := lineBreak_inj hn hn' e₂
      rw [ih hrest hrest' e₃]

example : (Reading.code ['a'] .helper ['x'] ['\n'] (.text ['<', '#'])).source = "a<#+x#>\n<#".toList := by
  decide

end Grammar

end Templating
