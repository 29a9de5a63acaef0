import Templating.Proofs.Grammar

/-!
# Scanning reads the grammar

Each scan reads one piece of the grammar and nothing else (`scan_finds_iff`). A run of scans to the
end of a text therefore follows a reading of it (`run_content_iff`), so a text has tokens exactly if
it has a reading, and the tokens are those of the reading.
-/

namespace Templating

open Grammar

/-- A scan succeeds with a next kind, a value and the text left. -/
structure Scan.Finds (s : Scan) (k : TokenKind) (v : Option (List Char)) (t : List Char) : Prop where
  next : s.next = .ok k
  value : s.value = v
  rest : s.cursor.rest = t

namespace Grammar

/-- What may follow the blanks inside a directive: the end of the directive, a name, or a value. -/
def Announces (y : List Char) (k : TokenKind) (t : List Char) : Prop :=
  (k = .content ∧ ∃ n, y = '#' :: '>' :: (n ++ t) ∧ IsLineBreak n t) ∨
    (k = .directiveName ∧ y = t ∧ ∃ c ∈ t.head?, Text.isAlphabetic c) ∨
    k = .directiveValue ∧ y = '=' :: t

/-- What the scan for a token of a kind may read of a text: the next kind, the value and the text
left. -/
def Reads (kind : TokenKind) (cs : List Char) (k : TokenKind) (v : Option (List Char))
    (t : List Char) : Prop :=
  match kind with
  | .content =>
    (k = .eof ∧ NoTag cs ∧ v = some cs ∧ t = []) ∨
      ∃ x r c, cs = c ++ '<' :: '#' :: x :: r ∧ NoOpening c ∧ k = Scan.opened x ∧ v = some c ∧
        t = if Scan.opened x = .block then x :: r else r
  | .expression => k = .content ∧ ∃ r, cs = r ++ '#' :: '>' :: t ∧ IsBody r ∧ v = some (Scan.unescapeTags r)
  | .block | .helper =>
    k = .content ∧ ∃ r n, cs = r ++ '#' :: '>' :: (n ++ t) ∧ IsBody r ∧ IsLineBreak n t ∧
      v = some (Scan.unescapeTags r)
  | .directive =>
    v = none ∧ ∃ gap y, cs = gap ++ y ∧ Blanks gap ∧ Announces y k t
  | .directiveName =>
    k = .directive ∧ ∃ c n, cs = c :: (n ++ t) ∧ t ≠ [] ∧ (∀ x ∈ n, Text.isAlphanumeric x) ∧
      (∀ x ∈ t.head?, ¬ Text.isAlphanumeric x) ∧ v = some (c :: n)
  | .directiveValue =>
    k = .directive ∧ ∃ q text inner, cs = inner ++ q :: (text ++ q :: t) ∧ Blanks inner ∧ IsQuote q ∧
      q ∉ text ∧ v = some text
  | .eof => False

theorem reads_code_iff (kind : CodeKind) {cs t : List Char} {k : TokenKind} {v : Option (List Char)} :
    Reads kind.token cs k v t ↔ k = .content ∧ ∃ r n, cs = r ++ '#' :: '>' :: (n ++ t) ∧ IsBody r ∧
      kind.Takes n t ∧ v = some (Scan.unescapeTags r) := by
  cases kind with
  | expression =>
    refine and_congr_right fun _ => exists_congr fun r => ⟨?_, ?_⟩
    · intro h₀
      obtain ⟨h, hr, hv⟩ := h₀
      exact ⟨[], h, hr, rfl, hv⟩
    · intro h₀
      obtain ⟨n, h, hr, hn, hv⟩ := h₀
      obtain rfl : n = [] := hn
      exact ⟨h, hr, hv⟩
  | helper => exact Iff.rfl
  | block => exact Iff.rfl

/-! ## Where a text divides -/

theorem exists_split_cons {c d : Char} {r t : List Char} {Q : List Char → Prop} :
    (∃ b, c :: r = b ++ d :: t ∧ Q b) ↔ (c = d ∧ r = t ∧ Q []) ∨ ∃ b, r = b ++ d :: t ∧ Q (c :: b) := by
  constructor
  · intro h₀
    obtain ⟨b, h, hq⟩ := h₀
    cases b with
    | nil => left; simpa using ⟨(List.cons.inj h).1, (List.cons.inj h).2, hq⟩
    | cons x b =>
      simp only [List.cons_append, List.cons.injEq] at h
      right; exact ⟨b, h.2, h.1 ▸ hq⟩
  · intro h₀
    rcases h₀ with ⟨rfl, rfl, hq⟩ | ⟨b, rfl, hq⟩
    · exact ⟨[], rfl, hq⟩
    · exact ⟨c :: b, rfl, hq⟩

theorem forall_split_cons {c d : Char} {b : List Char} {P : List Char → Prop} :
    (∀ b₁ b₂, c :: b = b₁ ++ d :: b₂ → P b₁) ↔
      (c = d → P []) ∧ ∀ b₁ b₂, b = b₁ ++ d :: b₂ → P (c :: b₁) := by
  constructor
  · intro h
    exact ⟨fun e => h [] b (by simp [e]), fun b₁ b₂ e => h (c :: b₁) b₂ (by simp [e])⟩
  · rintro ⟨h0, h1⟩ b₁ b₂ e
    cases b₁ with
    | nil => exact h0 (List.cons.inj e).1
    | cons x b₁ =>
      simp only [List.cons_append, List.cons.injEq] at e
      exact e.1 ▸ h1 b₁ b₂ e.2

theorem noOpening_cons {c : Char} {r : List Char} :
    NoOpening (c :: r) ↔ NoOpening r ∧ ∀ r', c = '<' → r ≠ '#' :: r' := by
  unfold NoOpening
  rw [List.infix_cons_iff, not_or, and_comm]
  refine and_congr_right fun _ => ⟨fun h r' hc hr => h ⟨r', by simp [hc, hr]⟩, ?_⟩
  rintro h ⟨z, hz⟩
  simp only [List.cons_append, List.nil_append, List.cons.injEq] at hz
  exact h z hz.1.symm hz.2.symm

theorem noTag_cons {c : Char} {r : List Char} :
    NoTag (c :: r) ↔ NoTag r ∧ ∀ k r', c = '<' → r ≠ '#' :: k :: r' := by
  unfold NoTag
  simp only [List.infix_cons_iff, not_or]
  refine ⟨fun h => ⟨fun k => (h k).2, fun k r' hc hr => (h k).1 ⟨r', by simp [hc, hr]⟩⟩, ?_⟩
  rintro ⟨h, h'⟩ k
  refine ⟨?_, h k⟩
  intro h₀
  obtain ⟨z, hz⟩ := h₀
  simp only [List.cons_append, List.nil_append, List.cons.injEq] at hz
  exact h' k z hz.1.symm hz.2.symm

/-! ## Single scans -/

theorem finds_ok {k k' : TokenKind} {v v' : Option (List Char)} {t : List Char} {e : Option Location}
    {c : Cursor} : (Scan.mk (.ok k') v' e c).Finds k v t ↔ k = k' ∧ v = v' ∧ t = c.rest :=
  ⟨fun ⟨hk, hv, ht⟩ => ⟨(Except.ok.inj hk).symm, hv.symm, ht.symm⟩,
    fun ⟨hk, hv, ht⟩ => ⟨congrArg _ hk.symm, hv.symm, ht.symm⟩⟩

theorem not_finds_error {k : TokenKind} {v v' : Option (List Char)} {t : List Char} {f : SyntaxFault}
    {e : Option Location} {c : Cursor} : ¬ (Scan.mk (.error f) v' e c).Finds k v t := by
  rintro ⟨hn, -, -⟩; cases hn

section
variable {k : TokenKind} {v : Option (List Char)} {t : List Char}

theorem readContent_finds {read cs : List Char} {p : Nat} {h l : Location} :
    (Scan.readContent read p h l cs).Finds k v t ↔
      (k = .eof ∧ NoTag cs ∧ v = some (read.reverse ++ cs) ∧ t = []) ∨
        ∃ x r c, cs = c ++ '<' :: '#' :: x :: r ∧ NoOpening c ∧ k = Scan.opened x ∧
          v = some (read.reverse ++ c) ∧ t = if Scan.opened x = .block then x :: r else r := by
  fun_induction Scan.readContent read p h l cs with
  | case1 read p h l =>
    rw [finds_ok]
    simp [NoTag]
  | case2 read p h l r ih =>
    rw [ih]
    simp [exists_split_cons, noTag_cons, noOpening_cons]
  | case3 read p h l x r =>
    rw [finds_ok]
    have hnil : NoOpening [] := by simp [NoOpening]
    constructor
    · intro h₀
      obtain ⟨hk, hv, ht⟩ := h₀
      refine .inr ⟨x, r, [], rfl, hnil, hk, by simpa using hv, ?_⟩
      rw [ht]; split <;> rfl
    · intro h₀
      rcases h₀ with ⟨-, h, -⟩ | ⟨x', r', c, e, hc, hk, hv, ht⟩
      · exact absurd rfl ((noTag_cons.1 h).2 x r rfl)
      · obtain ⟨rfl, e'⟩ := content_inj hnil hc e
        obtain ⟨rfl, rfl⟩ := List.cons.inj e'
        refine ⟨hk, by simpa using hv, ?_⟩
        rw [ht]; split <;> rfl
  | case4 read p h l c r _ hc ih =>
    rw [ih]
    have h₁ : NoTag (c :: r) ↔ NoTag r := by
      rw [noTag_cons]
      exact and_iff_left fun k r' e e' => hc k r' e e'
    have h₂ : ∀ x r' c', r = c' ++ '<' :: '#' :: x :: r' → (NoOpening (c :: c') ↔ NoOpening c') := by
      intro x r' c' e
      rw [noOpening_cons]
      refine and_iff_left fun z e₁ e₂ => ?_
      cases z with
      | nil => exact hc '<' ('#' :: x :: r') e₁ (by rw [e, e₂]; rfl)
      | cons y z => exact hc y (z ++ '<' :: '#' :: x :: r') e₁ (by rw [e, e₂]; rfl)
    simp only [exists_split_cons, h₁, List.reverse_cons, List.append_assoc, List.singleton_append]
    refine or_congr_right ⟨?_, ?_⟩
    · intro h₀
      obtain ⟨x, r', c', e, hc', h⟩ := h₀
      exact ⟨x, r', .inr ⟨c', e, (h₂ x r' c' e).2 hc', h⟩⟩
    · intro h₀
      obtain ⟨x, r', ⟨e₁, e₂, -⟩ | ⟨c', e, hc', h⟩⟩ := h₀
      · exact absurd e₂ (fun e₂ => hc x r' e₁ e₂)
      · exact ⟨x, r', c', e, (h₂ x r' c' e).1 hc', h⟩

theorem readBody_finds {read cs : List Char} {p : Nat} {h l : Location} :
    (Scan.readBody read p h l cs).Finds k v t ↔
      k = .content ∧ ∃ b, cs = b ++ '>' :: t ∧ Scan.closes (b.reverse ++ read) ∧
        (∀ b₁ b₂, b = b₁ ++ '>' :: b₂ → ¬ Scan.closes (b₁.reverse ++ read)) ∧
        v = some (Scan.unescapeTags ((b.reverse ++ read).drop 1).reverse) := by
  fun_induction Scan.readBody read p h l cs with
  | case1 read p h l => simp [not_finds_error]
  | case2 read p h l r ih =>
    rw [ih]
    simp [exists_split_cons, forall_split_cons]
  | case3 read p h l c r _ hc =>
    obtain ⟨rfl, hc⟩ := hc
    rw [finds_ok]
    simp only [exists_split_cons, forall_split_cons]
    constructor
    · intro h₀
      obtain ⟨rfl, rfl, rfl⟩ := h₀
      exact ⟨rfl, .inl ⟨trivial, rfl, hc, by simp, rfl⟩⟩
    · intro h₀
      obtain ⟨rfl, ⟨-, rfl, -, -, rfl⟩ | ⟨b, -, -, ⟨h0, -⟩, -⟩⟩ := h₀
      · exact ⟨rfl, rfl, rfl⟩
      · exact absurd hc (h0 trivial)
  | case4 read p h l c r _ hc ih =>
    rw [ih]
    simp only [exists_split_cons, forall_split_cons, List.reverse_cons, List.append_assoc,
      List.singleton_append]
    constructor
    · intro h₀
      obtain ⟨hk, b, hb, hcl, hmin, hv⟩ := h₀
      exact ⟨hk, .inr ⟨b, hb, hcl, ⟨fun e h0 => hc ⟨e, h0⟩, hmin⟩, hv⟩⟩
    · intro h₀
      obtain ⟨hk, ⟨e, -, h0, -⟩ | ⟨b, hb, hcl, ⟨-, hmin⟩, hv⟩⟩ := h₀
      · exact absurd ⟨e, h0⟩ hc
      · exact ⟨hk, b, hb, hcl, hmin, hv⟩

theorem readQuoted_finds {q : Char} (hq : IsQuote q) {read cs : List Char} {p : Nat} {h l : Location} :
    (Scan.readQuoted q read p h l cs).Finds k v t ↔
      k = .directive ∧ ∃ b, cs = b ++ q :: t ∧ q ∉ b ∧ v = some (read.reverse ++ b) := by
  fun_induction Scan.readQuoted q read p h l cs with
  | case1 => simp [not_finds_error]
  | case2 read p h r ih =>
    rw [ih]
    rcases hq with rfl | rfl <;> simp [exists_split_cons]
  | case3 read p h r hc =>
    rw [finds_ok]
    simp only [exists_split_cons, List.mem_cons, true_or, not_true, false_and, and_false, exists_false,
      or_false, true_and, List.not_mem_nil, not_false_eq_true, List.append_nil]
    exact and_congr_right fun _ => and_comm.trans (and_congr_left fun _ => eq_comm)
  | case4 read p h c r _ hc ih =>
    rw [ih]
    simp only [exists_split_cons, List.mem_cons, Ne.symm hc, hc, false_or, false_and, List.reverse_cons,
      List.append_assoc, List.singleton_append]

theorem Blanks.cons {c : Char} {cs : List Char} : Blanks (c :: cs) ↔ Text.isBlank c ∧ Blanks cs := by
  simp [Blanks]

theorem exists_value_cons {c : Char} {r : List Char} (hc : ¬ IsQuote c) (hb : Text.isBlank c) :
    (∃ q text inner, c :: r = inner ++ q :: (text ++ q :: t) ∧ Blanks inner ∧ IsQuote q ∧ q ∉ text ∧
      v = some text) ↔
    ∃ q text inner, r = inner ++ q :: (text ++ q :: t) ∧ Blanks inner ∧ IsQuote q ∧ q ∉ text ∧
      v = some text := by
  simp only [exists_split_cons, Blanks.cons, hb, true_and]
  refine exists_congr fun q => exists_congr fun text => or_iff_right ?_
  intro h₀
  obtain ⟨rfl, -, -, hq, -⟩ := h₀
  exact hc hq

theorem readValue_finds {cs : List Char} {p : Nat} {h l : Location} :
    (Scan.readValue p h l cs).Finds k v t ↔
      k = .directive ∧ ∃ q text inner, cs = inner ++ q :: (text ++ q :: t) ∧ Blanks inner ∧ IsQuote q ∧
        q ∉ text ∧ v = some text := by
  fun_induction Scan.readValue p h l cs with
  | case1 => simp [not_finds_error]
  | case2 p h r ih =>
    rw [ih, exists_value_cons (by decide) (by decide), exists_value_cons (by decide) (by decide)]
  | case3 p h c r _ hc =>
    rw [readQuoted_finds hc]
    refine and_congr_right fun _ => ⟨?_, ?_⟩
    · intro h₀
      obtain ⟨b, rfl, hb, hv⟩ := h₀
      exact ⟨c, b, [], rfl, by simp [Blanks], hc, hb, by simpa using hv⟩
    · intro h₀
      obtain ⟨q, text, inner, e, hi, hq, ht, hv⟩ := h₀
      cases inner with
      | nil =>
        obtain ⟨rfl, rfl⟩ := List.cons.inj e
        exact ⟨text, rfl, ht, by simpa using hv⟩
      | cons x inner =>
        obtain ⟨rfl, -⟩ := List.cons.inj e
        exact absurd (Blanks.cons.1 hi).1 (IsQuote.not_isBlank hc)
  | case4 p h c r _ hc hb ih => rw [ih, exists_value_cons hc hb]
  | case5 p h c r _ hc hb =>
    refine iff_of_false not_finds_error ?_
    intro h₀
    obtain ⟨-, q, text, inner, e, hi, hq, -⟩ := h₀
    cases inner with
    | nil => exact hc ((List.cons.inj e).1 ▸ hq)
    | cons x inner => exact hb ((List.cons.inj e).1 ▸ (Blanks.cons.1 hi).1)

theorem readName_finds {read cs : List Char} {p : Nat} {h l : Location} :
    (Scan.readName read p h l cs).Finds k v t ↔
      k = .directive ∧ ∃ n, cs = n ++ t ∧ t ≠ [] ∧ (∀ x ∈ n, Text.isAlphanumeric x) ∧
        (∀ x ∈ t.head?, ¬ Text.isAlphanumeric x) ∧ v = some (read.reverse ++ n) := by
  fun_induction Scan.readName read p h l cs with
  | case1 =>
    refine iff_of_false not_finds_error ?_
    intro h₀
    obtain ⟨-, n, e, ht, -⟩ := h₀
    exact ht (List.append_eq_nil_iff.1 e.symm).2
  | case2 read p h c r hc ih =>
    rw [ih]
    refine and_congr_right fun _ => ⟨?_, ?_⟩
    · intro h₀
      obtain ⟨n, rfl, ht, hn, hl, hv⟩ := h₀
      exact ⟨c :: n, rfl, ht, by simpa [hc] using hn, hl, by simpa using hv⟩
    · intro h₀
      obtain ⟨n, e, ht, hn, hl, hv⟩ := h₀
      cases n with
      | nil => exact absurd hc (hl c (by rw [← show c :: r = t from e]; rfl))
      | cons x n =>
        obtain ⟨rfl, rfl⟩ := List.cons.inj e
        exact ⟨n, rfl, ht, fun y hy => hn y (by simp [hy]), hl, by simpa using hv⟩
  | case3 read p h c r hc =>
    rw [finds_ok]
    refine and_congr_right fun _ => ⟨?_, ?_⟩
    · intro h₀
      obtain ⟨hv, rfl⟩ := h₀
      exact ⟨[], rfl, by simp, by simp, by simpa using hc, by simpa using hv⟩
    · intro h₀
      obtain ⟨n, e, ht, hn, hl, hv⟩ := h₀
      cases n with
      | nil => exact ⟨by simpa using hv, e.symm⟩
      | cons x n =>
        obtain ⟨rfl, -⟩ := List.cons.inj e
        exact absurd (hn c (by simp)) hc

theorem readNameFrom_finds {c : Cursor} : (Scan.readNameFrom c).Finds k v t ↔
    Reads .directiveName c.rest k v t := by
  unfold Scan.readNameFrom Reads
  split
  · rename_i hc
    rw [hc]
    exact iff_of_false not_finds_error (by simp)
  · rename_i x r hc
    rw [hc, readName_finds]
    refine and_congr_right fun _ => ⟨?_, ?_⟩
    · intro h₀
      obtain ⟨n, rfl, ht, hn, hl, hv⟩ := h₀
      exact ⟨x, n, rfl, ht, hn, hl, by simpa using hv⟩
    · intro h₀
      obtain ⟨y, n, e, ht, hn, hl, hv⟩ := h₀
      obtain ⟨rfl, rfl⟩ := List.cons.inj e
      exact ⟨n, rfl, ht, hn, hl, by simpa using hv⟩

/-! ## Line breaks and bodies -/

theorem skipLineBreak_rest (c : Cursor) :
    ∃ n, c.rest = n ++ (Scan.skipLineBreak c).rest ∧ IsLineBreak n (Scan.skipLineBreak c).rest := by
  unfold Scan.skipLineBreak
  split
  · rename_i r hc
    exact ⟨['\r', '\n'], hc, by simp [lineBreaks], by simp [lineBreaks]⟩
  · rename_i r hr hc
    refine ⟨['\r'], hc, by simp [lineBreaks], ?_⟩
    have : ¬ ['\r', '\n'] <+: '\r' :: r := fun ⟨z, hz⟩ => hr z (List.cons.inj hz).2.symm
    simp [lineBreaks, this]
  · rename_i r hc
    exact ⟨['\n'], hc, by simp [lineBreaks], by simp [lineBreaks, List.cons_prefix_cons]⟩
  · rename_i h₁ h₂ h₃
    refine ⟨[], rfl, by simp [lineBreaks], fun m hm hp => ?_⟩
    obtain ⟨z, hz⟩ := hp
    rcases List.mem_cons.1 hm with rfl | hm
    · simp
    · simp only [List.mem_cons, List.not_mem_nil, or_false] at hm
      rcases hm with rfl | rfl | rfl
      · exact absurd hz.symm (h₃ z)
      · exact absurd hz.symm (h₂ z)
      · exact absurd hz.symm (h₁ z)

theorem skipLineBreak_eq_iff {c : Cursor} :
    (Scan.skipLineBreak c).rest = t ↔ ∃ n, c.rest = n ++ t ∧ IsLineBreak n t := by
  obtain ⟨n, hn, hl⟩ := skipLineBreak_rest c
  constructor
  · rintro rfl
    exact ⟨n, hn, hl⟩
  · intro h₀
    obtain ⟨n', hn', hl'⟩ := h₀
    exact (lineBreak_inj hl hl' (hn ▸ hn')).2

theorem closes_iff {a : List Char} :
    Scan.closes a ↔ ∃ z, a = '#' :: z ∧ z.head? ≠ some '\\' := by
  unfold Scan.closes
  split
  · simp
  · rename_i z hz
    refine iff_of_true rfl ⟨z, rfl, fun h => ?_⟩
    obtain ⟨y, rfl⟩ := List.head?_eq_some_iff.1 h
    exact hz y rfl
  · rename_i h
    exact iff_of_false (by simp) fun ⟨z, hz, _⟩ => h z hz

theorem closes_reverse_iff {b : List Char} :
    Scan.closes b.reverse ↔ ∃ r, b = r ++ ['#'] ∧ r.getLast? ≠ some '\\' := by
  rw [closes_iff]
  constructor
  · intro h₀
    obtain ⟨z, hz, hh⟩ := h₀
    exact ⟨z.reverse, by rw [← List.reverse_reverse b, hz]; simp, by rwa [List.getLast?_reverse]⟩
  · intro h₀
    obtain ⟨r, rfl, hr⟩ := h₀
    exact ⟨r.reverse, by simp, by rwa [List.head?_reverse]⟩

/-- The first `>` that closes a tag ends the body of the grammar. -/
theorem closing_iff {cs : List Char} {P : List Char → Prop} :
    (∃ b, cs = b ++ '>' :: t ∧ Scan.closes b.reverse ∧
      (∀ b₁ b₂, b = b₁ ++ '>' :: b₂ → ¬ Scan.closes b₁.reverse) ∧ P (b.reverse.drop 1).reverse) ↔
    ∃ r, cs = r ++ '#' :: '>' :: t ∧ IsBody r ∧ P r := by
  constructor
  · intro h₀
    obtain ⟨b, rfl, hb, hmin, hP⟩ := h₀
    obtain ⟨r, rfl, hr⟩ := closes_reverse_iff.1 hb
    refine ⟨r, by simp, ⟨hr, fun r' hp hr' => ?_⟩, by simpa using hP⟩
    by_cases hl : r'.length < r.length
    · -- a shorter body would end at an earlier `>`
      have hp' : r' ++ ['#', '>'] <+: r ++ ['#'] := by
        refine List.prefix_of_prefix_length_le hp ⟨['>'], by simp⟩ ?_
        simp only [List.length_append, List.length_cons, List.length_nil]; omega
      obtain ⟨z, hz⟩ := hp'
      exact absurd (closes_reverse_iff.2 ⟨r', rfl, hr'⟩) (hmin (r' ++ ['#']) z (by rw [← hz]; simp))
    · have hle := hp.length_le
      simp only [List.length_append, List.length_cons, List.length_nil] at hle
      have he := hp.eq_of_length (by simp only [List.length_append, List.length_cons]; omega)
      exact List.append_cancel_right he
  · intro h₀
    obtain ⟨r, rfl, hr, hP⟩ := h₀
    refine ⟨r ++ ['#'], by simp, closes_reverse_iff.2 ⟨r, rfl, hr.closed⟩, ?_, by simpa using hP⟩
    rintro b₁ b₂ e hb
    obtain ⟨r', rfl, hr'⟩ := closes_reverse_iff.1 hb
    have hp : r' ++ ['#', '>'] <+: r ++ ['#'] := ⟨b₂, by rw [e]; simp⟩
    have hl := hp.length_le
    obtain rfl := hr.shortest r' (hp.trans ⟨['>'], by simp⟩) hr'
    simp at hl

theorem readBody_finds_iff {cs : List Char} {p : Nat} {h l : Location} :
    (Scan.readBody [] p h l cs).Finds k v t ↔ Reads .expression cs k v t := by
  unfold Reads
  rw [readBody_finds]
  simp only [List.append_nil]
  exact and_congr_right fun _ => closing_iff (P := fun r => v = some (Scan.unescapeTags r))

theorem readBodyAndLineBreak_finds {c : Cursor} : (Scan.readBodyAndLineBreak c).Finds k v t ↔
    Reads .block c.rest k v t := by
  have hbody : (∃ t' n, (Scan.readBody [] c.position c.here c.last c.rest).Finds k v t' ∧ t' = n ++ t ∧
      IsLineBreak n t) ↔ Reads .block c.rest k v t := by
    simp only [readBody_finds_iff, Reads]
    constructor
    · intro h₀
      obtain ⟨t', n, ⟨hk, r, hr, hb, hv⟩, rfl, hn⟩ := h₀
      exact ⟨hk, r, n, hr, hb, hn, hv⟩
    · intro h₀
      obtain ⟨hk, r, n, hr, hb, hn, hv⟩ := h₀
      exact ⟨n ++ t, n, ⟨hk, r, hr, hb, hv⟩, rfl, hn⟩
  rw [← hbody]
  unfold Scan.readBodyAndLineBreak
  generalize Scan.readBody [] c.position c.here c.last c.rest = s
  cases hs : s.next with
  | error e =>
    simp only [hs]
    refine iff_of_false (fun h => ?_) ?_
    · cases hs.symm.trans h.next
    · intro h₀
      obtain ⟨t', n, h, -⟩ := h₀
      cases hs.symm.trans h.next
  | ok k' =>
    simp only [hs]
    constructor
    · intro h₀
      obtain ⟨hk, hv, ht⟩ := h₀
      obtain ⟨n, hn, hl⟩ := skipLineBreak_eq_iff.1 ht
      exact ⟨s.cursor.rest, n, ⟨hs.trans hk, hv, rfl⟩, hn, hl⟩
    · intro h₀
      obtain ⟨t', n, ⟨hk, hv, rfl⟩, hn, hl⟩ := h₀
      exact ⟨hs.symm.trans hk, hv, skipLineBreak_eq_iff.2 ⟨n, hn, hl⟩⟩

/-! ## Inside a directive -/

theorem Announces.head_not_isBlank {y : List Char} (h : Announces y k t) :
    ∀ c ∈ y.head?, ¬ Text.isBlank c := by
  rcases h with ⟨-, n, rfl, -⟩ | ⟨-, rfl, c, hc, ha⟩ | ⟨-, rfl⟩
  · simp; decide
  · intro x hx hb
    obtain rfl := Option.some.inj (hc.symm.trans hx)
    exact not_isAlphabetic_of_isBlank hb ha
  · simp; decide

theorem exists_gap_cons {c : Char} {r : List Char} (hc : Text.isBlank c) :
    (∃ gap y, c :: r = gap ++ y ∧ Blanks gap ∧ Announces y k t) ↔
      ∃ gap y, r = gap ++ y ∧ Blanks gap ∧ Announces y k t := by
  constructor
  · intro h₀
    obtain ⟨gap, y, e, hg, hy⟩ := h₀
    cases gap with
    | nil => exact absurd hc (hy.head_not_isBlank c (by rw [← show c :: r = y from e]; rfl))
    | cons x gap => exact ⟨gap, y, (List.cons.inj e).2, (Blanks.cons.1 hg).2, hy⟩
  · intro h₀
    obtain ⟨gap, y, rfl, hg, hy⟩ := h₀
    exact ⟨c :: gap, y, rfl, Blanks.cons.2 ⟨hc, hg⟩, hy⟩

theorem exists_gap_of_not_isBlank {c : Char} {r : List Char} (hc : ¬ Text.isBlank c) :
    (∃ gap y, c :: r = gap ++ y ∧ Blanks gap ∧ Announces y k t) ↔ Announces (c :: r) k t := by
  constructor
  · intro h₀
    obtain ⟨gap, y, e, hg, hy⟩ := h₀
    cases gap with
    | nil => rwa [show c :: r = y from e]
    | cons x gap => exact absurd ((List.cons.inj e).1 ▸ (Blanks.cons.1 hg).1) hc
  · exact fun h => ⟨[], c :: r, rfl, by simp [Blanks], h⟩

theorem announces_close {r : List Char} :
    Announces ('#' :: '>' :: r) k t ↔ k = .content ∧ ∃ n, r = n ++ t ∧ IsLineBreak n t := by
  constructor
  · intro h₀
    rcases h₀ with ⟨hk, n, e, hn⟩ | ⟨-, rfl, c, hc, ha⟩ | ⟨-, e⟩
    · exact ⟨hk, n, by simpa using e, hn⟩
    · obtain rfl := Option.some.inj hc
      exact absurd ha (by decide)
    · exact absurd (List.cons.inj e).1 (by decide)
  · intro h₀
    obtain ⟨hk, n, rfl, hn⟩ := h₀
    exact .inl ⟨hk, n, rfl, hn⟩

theorem announces_name {c : Char} {r : List Char} (hc : Text.isAlphabetic c) :
    Announces (c :: r) k t ↔ k = .directiveName ∧ t = c :: r := by
  constructor
  · intro h₀
    rcases h₀ with ⟨-, n, e, -⟩ | ⟨hk, rfl, -⟩ | ⟨-, e⟩
    · rw [(List.cons.inj e).1] at hc
      exact absurd hc (by decide)
    · exact ⟨hk, rfl⟩
    · rw [(List.cons.inj e).1] at hc
      exact absurd hc (by decide)
  · intro h₀
    obtain ⟨hk, rfl⟩ := h₀
    exact .inr (.inl ⟨hk, rfl, c, rfl, hc⟩)

theorem announces_value {r : List Char} : Announces ('=' :: r) k t ↔ k = .directiveValue ∧ t = r := by
  constructor
  · intro h₀
    rcases h₀ with ⟨-, n, e, -⟩ | ⟨-, rfl, c, hc, ha⟩ | ⟨hk, e⟩
    · exact absurd (List.cons.inj e).1 (by decide)
    · obtain rfl := Option.some.inj hc
      exact absurd ha (by decide)
    · exact ⟨hk, (List.cons.inj e).2.symm⟩
  · intro h₀
    obtain ⟨hk, rfl⟩ := h₀
    exact .inr (.inr ⟨hk, rfl⟩)

theorem not_announces {c : Char} {r : List Char} (hclose : ∀ r', c = '#' → r = '>' :: r' → False)
    (ha : ¬ Text.isAlphabetic c) (he : c ≠ '=') : ¬ Announces (c :: r) k t := by
  rintro (⟨-, n, e, -⟩ | ⟨-, rfl, x, hx, hx'⟩ | ⟨-, e⟩)
  · exact hclose (n ++ t) (List.cons.inj e).1 (List.cons.inj e).2
  · obtain rfl := Option.some.inj hx
    exact ha hx'
  · exact he (List.cons.inj e).1

theorem readDirective_finds {cs : List Char} {p : Nat} {h l : Location} :
    (Scan.readDirective p h l cs).Finds k v t ↔ Reads .directive cs k v t := by
  unfold Reads
  fun_induction Scan.readDirective p h l cs with
  | case1 p h =>
    refine iff_of_false not_finds_error ?_
    intro h₀
    obtain ⟨-, gap, y, e, -, hy⟩ := h₀
    obtain ⟨-, rfl⟩ := List.append_eq_nil_iff.1 e.symm
    rcases hy with ⟨-, n, e, -⟩ | ⟨-, rfl, c, hc, -⟩ | ⟨-, e⟩
    · cases e
    · cases hc
    · cases e
  | case2 p h r ih => rw [ih, exists_gap_cons (by decide), exists_gap_cons (by decide)]
  | case3 p h r =>
    rw [finds_ok, exists_gap_of_not_isBlank (by decide), announces_close, and_left_comm,
      eq_comm (a := t), skipLineBreak_eq_iff]
  | case4 p h c r _ _ hc =>
    have hb : ¬ Text.isBlank c := fun hb => not_isAlphabetic_of_isBlank hb hc
    rw [finds_ok, exists_gap_of_not_isBlank hb, announces_name hc, and_left_comm]
  | case5 p h r =>
    rw [finds_ok, exists_gap_of_not_isBlank (by decide), announces_value, and_left_comm]
  | case6 p h c r _ _ _ _ hb ih => rw [ih, exists_gap_cons hb]
  | case7 p h c r _ hclose ha he hb =>
    rw [exists_gap_of_not_isBlank hb]
    exact iff_of_false not_finds_error fun h => not_announces hclose ha he h.2

end

/-! ## Runs of scans -/

/-- Each scan reads what the grammar lets it read. -/
theorem scan_finds_iff {kind k : TokenKind} {c : Cursor} {v : Option (List Char)} {t : List Char}
    (hk : kind ≠ .eof) : (kind.scan c).Finds k v t ↔ Reads kind c.rest k v t := by
  cases kind with
  | content => exact readContent_finds
  | expression => exact readBody_finds_iff
  | block => exact readBodyAndLineBreak_finds
  | helper => exact readBodyAndLineBreak_finds
  | directive => exact readDirective_finds
  | directiveName => exact readNameFrom_finds
  | directiveValue => exact readValue_finds
  | eof => exact absurd rfl hk

/-- The tokens of a run of scans that ends at the end of the text. -/
inductive Run : TokenKind → List Char → List (TokenKind × Option String) → Prop
  | eof {cs} : Run .eof cs [(.eof, none)]
  | step {kind cs k v t fs} : Reads kind cs k v t → Run k t fs →
      Run kind cs ((kind, v.map String.ofList) :: fs)

end Grammar

namespace Scanner

theorem stream_of_eof {s : Scanner} (h : s.next = .eof) : s.stream = ⟨[], .ok s.arrive.token⟩ := by
  have ha : s.advance = (.ok false, s.arrive) := by simp [advance, h]
  rw [stream]
  split <;> simp_all

/-- The scanner after a scan that succeeds. -/
def after (s : Scanner) (k : TokenKind) : Scanner :=
  { s.arrive with
    value := (s.next.scan s.cursor).value.map String.ofList
    tagEnd := (s.next.scan s.cursor).tagEnd.getD s.tagEnd
    next := k
    cursor := (s.next.scan s.cursor).cursor }

theorem stream_of_ok {s : Scanner} {k : TokenKind} (h : s.next ≠ .eof)
    (hk : (s.next.scan s.cursor).next = .ok k) :
    s.stream = ⟨(s.after k).token :: (s.after k).stream.tokens, (s.after k).stream.ending⟩ := by
  have ha : s.advance = (.ok true, s.after k) := by simp [advance, h, hk, after]
  rw [stream]
  split <;> simp_all

theorem stream_of_error {s : Scanner} {f : SyntaxFault} (h : s.next ≠ .eof)
    (hf : (s.next.scan s.cursor).next = .error f) : s.stream = ⟨[], .error f⟩ := by
  have ha : s.advance.1 = .error f := by simp [advance, h, hf]
  rw [stream]
  split <;> simp_all

end Scanner

/-- The tokens of a stream without their places, if it has an end. -/
def TokenStream.faces? (s : TokenStream) : Option (List (TokenKind × Option String)) :=
  match s.ending with
  | .ok eof => some (s.tokens.map Token.face ++ [eof.face])
  | .error _ => none

namespace Grammar

theorem faces?_of_ok {s : Scanner} {k : TokenKind} (h : s.next ≠ .eof)
    (hk : (s.next.scan s.cursor).next = .ok k) :
    s.stream.faces? = (s.after k).stream.faces?.map
      ((s.next, (s.next.scan s.cursor).value.map String.ofList) :: ·) := by
  rw [Scanner.stream_of_ok h hk]
  unfold TokenStream.faces?
  cases (s.after k).stream.ending <;> rfl

theorem faces?_eq_some_of_run {kind : TokenKind} {cs : List Char}
    {fs : List (TokenKind × Option String)} (h : Run kind cs fs) :
    ∀ s : Scanner, s.next = kind → s.cursor.rest = cs → s.stream.faces? = some fs := by
  induction h with
  | eof =>
    intro s hs _
    rw [Scanner.stream_of_eof hs]
    simp [TokenStream.faces?, Token.face, Scanner.token, Scanner.arrive, hs]
  | @step kind cs k v t fs hr _ ih =>
    rintro s rfl rfl
    have hne : s.next ≠ .eof := fun h => by rw [h] at hr; exact hr
    obtain ⟨hk, rfl, ht⟩ := (scan_finds_iff hne).2 hr
    rw [faces?_of_ok hne hk, ih (s.after k) rfl ht]
    rfl

theorem run_of_faces? (s : Scanner) {fs : List (TokenKind × Option String)}
    (h : s.stream.faces? = some fs) : Run s.next s.cursor.rest fs := by
  by_cases hne : s.next = .eof
  · rw [Scanner.stream_of_eof hne] at h
    obtain rfl := Option.some.inj h
    simp only [Token.face, Scanner.token, Scanner.arrive, hne, List.map_nil, List.nil_append]
    exact .eof
  · cases hk : (s.next.scan s.cursor).next with
    | error f => rw [Scanner.stream_of_error hne hk] at h; cases h
    | ok k =>
      rw [faces?_of_ok hne hk] at h
      obtain ⟨fs', h', rfl⟩ := Option.map_eq_some_iff.1 h
      exact .step ((scan_finds_iff hne).1 ⟨hk, rfl, rfl⟩) (run_of_faces? (s.after k) h')
termination_by s.size
decreasing_by exact TokenKind.size_scan_lt hne hk

/-! ## Runs and readings -/

/-- What a reading makes of a text that begins inside a directive. -/
def SpellsDirective (cs : List Char) (fs : List (TokenKind × Option String)) : Prop :=
  ∃ (d : DirectiveText) (n : List Char) (ρ : Reading), d.Valid ∧ IsLineBreak n ρ.source ∧ ρ.Valid ∧
    cs = d.source ++ (n ++ ρ.source) ∧ fs = (.directive, none) :: (d.faces ++ ρ.faces)

/-- What a reading makes of a text that begins with the body of a code tag. -/
def SpellsCode (kind : CodeKind) (cs : List Char) (fs : List (TokenKind × Option String)) : Prop :=
  ∃ (r n : List Char) (ρ : Reading), IsBody r ∧ kind.Takes n ρ.source ∧ ρ.Valid ∧
    cs = r ++ '#' :: '>' :: (n ++ ρ.source) ∧
      fs = (kind.token, some (String.ofList (Scan.unescapeTags r))) :: ρ.faces

/-- The part of a reading that begins at a token of a kind. -/
def Spells (kind : TokenKind) (cs : List Char) (fs : List (TokenKind × Option String)) : Prop :=
  match kind with
  | .content => ∃ ρ : Reading, ρ.Valid ∧ ρ.source = cs ∧ ρ.faces = fs
  | .expression => SpellsCode .expression cs fs
  | .helper => SpellsCode .helper cs fs
  | .block => SpellsCode .block cs fs
  | .directive => SpellsDirective cs fs
  | .directiveName =>
    ∃ c m y fs', cs = c :: (m ++ y) ∧ (∀ x ∈ m, Text.isAlphanumeric x) ∧
      (∀ x ∈ y.head?, ¬ Text.isAlphanumeric x) ∧ SpellsDirective y fs' ∧
      fs = (.directiveName, some (String.ofList (c :: m))) :: fs'
  | .directiveValue =>
    ∃ q text inner y fs', cs = inner ++ q :: (text ++ q :: y) ∧ Blanks inner ∧ IsQuote q ∧ q ∉ text ∧
      SpellsDirective y fs' ∧ fs = (.directiveValue, some (String.ofList text)) :: fs'
  | .eof => fs = [(.eof, none)]

theorem spells_token {kind : CodeKind} {cs : List Char} {fs : List (TokenKind × Option String)} :
    Spells kind.token cs fs ↔ SpellsCode kind cs fs := by
  cases kind <;> rfl

theorem opened_cases (x : Char) (r : List Char) : (x = '@' ∧ Scan.opened x = .directive) ∨
    ∃ kind : CodeKind, Scan.opened x = kind.token ∧
      x :: r = kind.mark ++ (if Scan.opened x = .block then x :: r else r) ∧
      (kind = .block → x ≠ '@' ∧ x ≠ '=' ∧ x ≠ '+') := by
  unfold Scan.opened
  split
  · exact .inl ⟨rfl, rfl⟩
  · exact .inr ⟨.expression, rfl, rfl, by simp⟩
  · exact .inr ⟨.helper, rfl, rfl, by simp⟩
  · rename_i h₁ h₂ h₃
    exact .inr ⟨.block, rfl, rfl, fun _ => ⟨h₁, h₂, h₃⟩⟩

theorem spells_code (kind : CodeKind) {k : TokenKind} {cs t : List Char} {v : Option (List Char)}
    {fs : List (TokenKind × Option String)} (hr : Reads kind.token cs k v t) (hs : Spells k t fs) :
    SpellsCode kind cs ((kind.token, v.map String.ofList) :: fs) := by
  obtain ⟨rfl, r, n, rfl, hb, hn, rfl⟩ := (reads_code_iff kind).1 hr
  obtain ⟨ρ, hρ, rfl, rfl⟩ := hs
  exact ⟨r, n, ρ, hb, hn, hρ, rfl, rfl⟩

theorem spells_step {kind k : TokenKind} {cs t : List Char} {v : Option (List Char)}
    {fs : List (TokenKind × Option String)} (hr : Reads kind cs k v t) (hs : Spells k t fs) :
    Spells kind cs ((kind, v.map String.ofList) :: fs) := by
  cases kind with
  | content =>
    rcases hr with ⟨rfl, hc, rfl, rfl⟩ | ⟨x, r, c, rfl, hc, rfl, rfl, rfl⟩
    · obtain rfl : fs = [(.eof, none)] := hs
      exact ⟨.text cs, hc, rfl, rfl⟩
    · rcases opened_cases x r with ⟨rfl, hx⟩ | ⟨kind, hx, hm, hk⟩
      · have hd : SpellsDirective r fs := by simpa [hx, Spells] using hs
        obtain ⟨d, n, ρ, hd, hn, hρ, rfl, rfl⟩ := hd
        exact ⟨.directive c d n ρ, ⟨hc, hd, hn, hρ⟩, rfl, rfl⟩
      · rw [hx] at hs hm
        obtain ⟨b, n, ρ, hb, hn, hρ, e, rfl⟩ := spells_token.1 hs
        rw [e] at hm
        refine ⟨.code c kind b n ρ, ⟨hc, fun hk' y hy => ?_, hb, hn, hρ⟩, ?_, rfl⟩
        · subst hk'
          obtain ⟨b', rfl⟩ := List.head?_eq_some_iff.1 hy
          obtain rfl := (List.cons.inj hm).1
          exact hk rfl
        · rw [hm]; rfl
  | expression => exact spells_code .expression hr hs
  | block => exact spells_code .block hr hs
  | helper => exact spells_code .helper hr hs
  | directive =>
    obtain ⟨rfl, gap, y, rfl, hg, ⟨rfl, n, rfl, hn⟩ | ⟨rfl, rfl, c, hc, ha⟩ | ⟨rfl, rfl⟩⟩ := hr
    · obtain ⟨ρ, hρ, rfl, rfl⟩ := hs
      exact ⟨.close gap, n, ρ, hg, hn, hρ, by simp [DirectiveText.source], rfl⟩
    · obtain ⟨c', m, z, fs', rfl, hm, hl, ⟨d, n, ρ, hd, hn, hρ, rfl, rfl⟩, rfl⟩ := hs
      obtain rfl := Option.some.inj hc
      have hall : ∀ x ∈ c' :: m, Text.isAlphanumeric x := by
        rintro x (_ | ⟨_, hx⟩)
        · simp [Text.isAlphanumeric, ha]
        · exact hm x hx
      rw [d.head?_source_append] at hl
      exact ⟨.name gap (c' :: m) d, n, ρ, ⟨hg, ⟨⟨c', m, rfl, ha⟩, hall, hl⟩, hd⟩, hn, hρ,
        by simp [DirectiveText.source], rfl⟩
    · obtain ⟨q, text, inner, z, fs', rfl, hi, hq, ht, ⟨d, n, ρ, hd, hn, hρ, rfl, rfl⟩, rfl⟩ := hs
      exact ⟨.value gap inner q text d, n, ρ, ⟨hg, hi, hq, ht, hd⟩, hn, hρ,
        by simp [DirectiveText.source], rfl⟩
  | directiveName =>
    obtain ⟨rfl, c, m, rfl, -, hm, hl, rfl⟩ := hr
    exact ⟨c, m, t, fs, rfl, hm, hl, hs, rfl⟩
  | directiveValue =>
    obtain ⟨rfl, q, text, inner, rfl, hi, hq, ht, rfl⟩ := hr
    exact ⟨q, text, inner, t, fs, rfl, hi, hq, ht, hs, rfl⟩
  | eof => exact hr.elim

theorem spells_of_run {kind : TokenKind} {cs : List Char} {fs : List (TokenKind × Option String)}
    (h : Run kind cs fs) : Spells kind cs fs := by
  induction h with
  | eof => rfl
  | step hr _ ih => exact spells_step hr ih

theorem reads_tag {kind : CodeKind} {c r y : List Char} (hc : NoOpening c) (hk : kind.Admits r) :
    Reads .content (c ++ '<' :: '#' :: (kind.mark ++ (r ++ '#' :: y))) kind.token (some c)
      (r ++ '#' :: y) := by
  cases kind with
  | expression => exact Or.inr ⟨'=', r ++ '#' :: y, c, rfl, hc, rfl, rfl, rfl⟩
  | helper => exact Or.inr ⟨'+', r ++ '#' :: y, c, rfl, hc, rfl, rfl, rfl⟩
  | block =>
    obtain ⟨x, z, e⟩ : ∃ x z, r ++ '#' :: y = x :: z := by cases r <;> simp
    have hx : Scan.opened x = .block := by
      obtain ⟨h₁, h₂, h₃⟩ := hk.head e
      unfold Scan.opened
      split <;> simp_all
    exact Or.inr ⟨x, z, c, by rw [e]; rfl, hc, hx.symm, rfl, by rw [hx, e]; rfl⟩

theorem reads_close {gap n y : List Char} (hg : Blanks gap) (hn : IsLineBreak n y) :
    Reads .directive (gap ++ '#' :: '>' :: (n ++ y)) .content none y :=
  ⟨rfl, gap, _, rfl, hg, .inl ⟨rfl, n, rfl, hn⟩⟩

theorem reads_gap_name {gap m z : List Char} {d : DirectiveText} (hg : Blanks gap) (hm : IsName m d.source) :
    Reads .directive (gap ++ (m ++ z)) .directiveName none (m ++ z) := by
  obtain ⟨c, r, rfl, hc⟩ := hm.letter
  exact ⟨rfl, gap, _, rfl, hg, .inr (.inl ⟨rfl, rfl, c, rfl, hc⟩)⟩

theorem reads_name {m z : List Char} {d : DirectiveText} (hm : IsName m d.source) :
    Reads .directiveName (m ++ (d.source ++ z)) .directive (some m) (d.source ++ z) := by
  obtain ⟨c, r, rfl, -⟩ := hm.letter
  refine ⟨rfl, c, r, rfl, by simp [d.source_ne_nil], fun x hx => hm.all x (by simp [hx]), ?_, rfl⟩
  rw [d.head?_source_append]
  exact hm.longest

theorem reads_gap_value {gap : List Char} (hg : Blanks gap) (z : List Char) :
    Reads .directive (gap ++ '=' :: z) .directiveValue none z :=
  ⟨rfl, gap, _, rfl, hg, .inr (.inr ⟨rfl, rfl⟩)⟩

theorem reads_value {inner text : List Char} {q : Char} (hi : Blanks inner) (hq : IsQuote q) (ht : q ∉ text)
    (z : List Char) : Reads .directiveValue (inner ++ q :: (text ++ q :: z)) .directive (some text) z :=
  ⟨rfl, q, text, inner, rfl, hi, hq, ht, rfl⟩

theorem reads_directive_tag {c : List Char} (hc : NoOpening c) (z : List Char) :
    Reads .content (c ++ '<' :: '#' :: '@' :: z) .directive (some c) z :=
  .inr ⟨'@', z, c, rfl, hc, rfl, rfl, rfl⟩

theorem run_directive {y : List Char} {n : List Char} {fs : List (TokenKind × Option String)}
    (hn : IsLineBreak n y) (hy : Run .content y fs) : ∀ {d : DirectiveText}, d.Valid →
    Run .directive (d.source ++ (n ++ y)) ((.directive, none) :: (d.faces ++ fs)) := by
  intro d
  induction d with
  | close gap =>
    intro hg
    have hs : (DirectiveText.close gap).source ++ (n ++ y) = gap ++ '#' :: '>' :: (n ++ y) := by
      simp [DirectiveText.source]
    rw [hs]
    exact .step (reads_close hg hn) hy
  | name gap m d ih =>
    intro h₀
    obtain ⟨hg, hm, hd⟩ := h₀
    have hs : (DirectiveText.name gap m d).source ++ (n ++ y) = gap ++ (m ++ (d.source ++ (n ++ y))) := by
      simp [DirectiveText.source]
    rw [hs]
    exact .step (reads_gap_name hg hm) (.step (reads_name hm) (ih hd))
  | value gap inner q text d ih =>
    intro h₀
    obtain ⟨hg, hi, hq, ht, hd⟩ := h₀
    have hs : (DirectiveText.value gap inner q text d).source ++ (n ++ y) =
        gap ++ '=' :: (inner ++ q :: (text ++ q :: (d.source ++ (n ++ y)))) := by
      simp [DirectiveText.source]
    rw [hs]
    exact .step (reads_gap_value hg _) (.step (reads_value hi hq ht _) (ih hd))

theorem run_of_valid {ρ : Reading} (h : ρ.Valid) : Run .content ρ.source ρ.faces := by
  induction ρ with
  | text c =>
    have hr : Reads .content c .eof (some c) [] := Or.inl ⟨rfl, h, rfl, rfl⟩
    exact .step hr .eof
  | code c kind r n ρ ih =>
    obtain ⟨hc, hk, hr, hn, hρ⟩ := h
    exact .step (reads_tag hc hk) (.step ((reads_code_iff kind).2 ⟨rfl, r, n, rfl, hr, hn, rfl⟩) (ih hρ))
  | directive c d n ρ ih =>
    obtain ⟨hc, hd, hn, hρ⟩ := h
    exact .step (reads_directive_tag hc _) (run_directive hn (ih hρ) hd)

theorem run_content_iff {cs : List Char} {fs : List (TokenKind × Option String)} :
    Run .content cs fs ↔ ∃ ρ : Reading, ρ.Valid ∧ ρ.source = cs ∧ ρ.faces = fs := by
  constructor
  · exact spells_of_run
  · intro h₀
    obtain ⟨ρ, h, rfl, rfl⟩ := h₀
    exact run_of_valid h

end Grammar

theorem tokenize_faces {file : Option String} {text : String} {fs : List (TokenKind × Option String)} :
    (∃ ts, tokenize file text = .ok ts ∧ ts.map Token.face = fs) ↔
      (Scanner.ofText file text).stream.faces? = some fs := by
  unfold tokenize TokenStream.faces?
  cases h : (Scanner.ofText file text).stream.ending <;> simp [h, Except.map]

/-- **Tokens follow the grammar.** A text has tokens exactly if it has a reading, which is then its
only one and keeps every character; the tokens are those of the reading, where a body counts with its
escaped closing tags replaced. -/
theorem tokenize_iff_reading (file : Option String) (text : String)
    (fs : List (TokenKind × Option String)) :
    ((∃ ts, tokenize file text = .ok ts ∧ ts.map Token.face = fs) ↔
      ∃ ρ : Grammar.Reading, ρ.Valid ∧ ρ.source = text.toList ∧ ρ.faces = fs) ∧
    Subsingleton { ρ : Grammar.Reading // ρ.Valid ∧ ρ.source = text.toList } ∧
    ∀ r, Replaced ['\\', '#', '>'] ['#', '>'] r (Scan.unescapeTags r) := by
  refine ⟨?_, ⟨?_⟩, replaced_unescapeTags⟩
  · rw [tokenize_faces, ← run_content_iff]
    exact ⟨run_of_faces? _, fun h => faces?_eq_some_of_run h _ rfl rfl⟩
  · rintro ⟨ρ, h, e⟩ ⟨ρ', h', e'⟩
    exact Subtype.ext (Reading.eq_of_source h h' (e.trans e'.symm))

end Templating
