import Mathlib
import Templating.Proofs.Attributes
import Templating.Proofs.Indexing

/-!
# Halting

Asked for one token after the other, a scanner comes to the end of its text or to a fault, no check of
an index failing on the way, and it stays there (`calls_halt`). So does the reader that makes a
template of the tokens.
-/

namespace Templating

open Grammar

/-! ## From one place to the next -/

namespace Grammar

theorem Reads.eof_rest {kind : TokenKind} {cs t : List Char} {v : Option (List Char)}
    (h : Reads kind cs .eof v t) : t = [] := by
  cases kind with
  | content =>
    rcases h with ⟨-, -, -, ht⟩ | ⟨x, r, c, -, -, hk, -⟩
    · exact ht
    · unfold Scan.opened at hk
      split at hk <;> cases hk
  | expression | block | helper | directiveName | directiveValue => cases h.1
  | directive =>
    obtain ⟨-, gap, y, -, -, ⟨hk, -⟩ | ⟨hk, -⟩ | ⟨hk, -⟩⟩ := h <;> cases hk
  | eof => exact h.elim

/-- A body begins behind the mark of its tag. -/
theorem Reads.mark {kind k : TokenKind} {cs t : List Char} {v : Option (List Char)} (h : Reads kind cs k v t)
    (hk : k = .expression ∨ k = .block ∨ k = .helper) : ∃ y d, cs = y ++ d :: t ∧ d ≠ '\\' := by
  cases kind with
  | content =>
    rcases h with ⟨rfl, -⟩ | ⟨x, r, c, rfl, -, rfl, -, rfl⟩
    · simp at hk
    · unfold Scan.opened at hk ⊢
      split
      · simp at hk
      · exact ⟨c ++ ['<', '#'], '=', by simp, by decide⟩
      · exact ⟨c ++ ['<', '#'], '+', by simp, by decide⟩
      · exact ⟨c ++ ['<'], '#', by simp, by decide⟩
  | expression | block | helper | directiveName | directiveValue =>
    obtain rfl := h.1
    simp at hk
  | directive =>
    obtain ⟨-, gap, y, -, -, ⟨rfl, -⟩ | ⟨rfl, -⟩ | ⟨rfl, -⟩⟩ := h <;> simp at hk
  | eof => exact h.elim

end Grammar

namespace Indexed

section
variable {limit : Int} {text : Array Char} {kind k : TokenKind} {c : Cursor} {f : SyntaxFault}

theorem Ready.mono {limit' : Int} (h : Ready limit text kind c) (hl : limit ≤ limit') :
    Ready limit' text kind c :=
  ⟨h.left, ⟨h.fits.positive, h.fits.line.trans hl, h.fits.column.trans hl⟩, h.eof, h.name, h.body⟩

theorem Ready.name_head (h : Ready limit text kind c) (hk : kind = .directiveName) :
    ∀ x ∈ c.rest.head?, ¬ (x = '\r' ∨ x = '\n') :=
  fun x hx => not_lineBreak_of_isAlphabetic (h.name hk x hx)

theorem overrun_le_length (kind k : TokenKind) (x : List Char) : Scan.overrun kind k x ≤ x.length := by
  unfold Scan.overrun
  split
  · rename_i h
    exact List.length_pos_iff.2 fun e => by simp [e] at h
  · exact Nat.zero_le _

theorem Ready.next (h : Ready limit text kind c) (hne : kind ≠ .eof) (hk : (kind.scan c).next = .ok k) :
    Ready limit text k (kind.scan c).cursor := by
  have hr := (scan_finds_iff hne).1 ⟨hk, rfl, rfl⟩
  obtain ⟨x, hx⟩ := scan_covers hne h.name_head hk
  have hleft := h.left.covers hx (scan_counts kind c)
  have hfits := h.fits.covers (n := 0) hx (overrun_le_length kind k x)
  rw [Nat.cast_zero, Int.add_zero] at hfits
  refine ⟨hleft, hfits, ?_, ?_, ?_⟩
  · rintro rfl
    exact hr.eof_rest
  · rintro rfl
    exact hr.head_isAlphabetic
  · -- the character before a body is the last one of the mark that was read
    intro hbody _ i hi
    obtain ⟨y, d, hy, hd⟩ := hr.mark hbody
    have hsize := hleft.size_eq
    have hsize' := h.left.size_eq
    rw [hy, List.length_append, List.length_cons] at hsize'
    have hd' := h.left.getElem? y.length
    rw [hy, List.getElem?_append_right le_rfl, Nat.sub_self, List.getElem?_cons_zero] at hd'
    have hi' : i = c.position + y.length := by omega
    rw [hi', hd']
    exact fun e => hd (Option.some.inj e)

/-- A scan that fails may count one column that it has not gone over. -/
theorem Ready.fail (h : Ready limit text kind c) (hf : (kind.scan c).next = .error f) :
    Ready (limit + 1) text kind (kind.scan c).cursor := by
  obtain ⟨x, hx⟩ := scan_givesUp h.name_head hf
  have hone : f.cause.overrun ≤ x.length + 1 := by
    unfold SyntaxCause.overrun
    split <;> omega
  have hrest := hx.offends.rest_eq_nil
  refine ⟨h.left.covers hx.toCovers (scan_counts kind c), by simpa using h.fits.covers (n := 1) hx.toCovers hone,
    ?_, ?_, ?_⟩
  · rintro rfl
    exact hrest (by decide) (by decide)
  · rintro rfl
    simp [hrest (by decide) (by decide)]
  · rintro hbody hne
    refine absurd (hrest ?_ ?_) hne <;> (rintro rfl; simp at hbody)

theorem scan_error_again (h : Ready limit text kind c) (hf : (kind.scan c).next = .error f) :
    ∃ f', (kind.scan (kind.scan c).cursor).next = .error f' ∧ f'.cause = f.cause ∧
      (kind.scan (kind.scan c).cursor).cursor.position = (kind.scan c).cursor.position := by
  obtain ⟨x, hx⟩ := scan_givesUp h.name_head hf
  have hready := h.fail hf
  -- The second scan begins behind the blanks, and what offends there is the same.
  have ho := hx.offends.drop
  cases hagain : (kind.scan (kind.scan c).cursor).next with
  | ok k =>
    have hne : kind ≠ .eof := by
      rintro rfl
      cases hf
    exact absurd ((scan_finds_iff hne).1 ⟨hagain, rfl, rfl⟩) (ho.unread _ _ _)
  | error f' =>
    obtain ⟨x', hx'⟩ := scan_givesUp hready.name_head hagain
    obtain ⟨-, hrest, hcause⟩ := ho.unique hx'.offends hx'.rest
    have hcounts := scan_counts kind (kind.scan c).cursor
    rw [Counts, ← hrest] at hcounts
    exact ⟨f', rfl, hcause.symm, by omega⟩

end

end Indexed

/-! ## Steps of a scanner -/

namespace Scanner

theorem advance_of_eof {s : Scanner} (h : s.next = .eof) : s.advance = (.ok false, s.arrive) := by
  simp [advance, h]

theorem advance_of_ok {s : Scanner} {k : TokenKind} (h : s.next ≠ .eof)
    (hk : (s.next.scan s.cursor).next = .ok k) : s.advance = (.ok true, s.after k) := by
  simp [advance, h, hk, after]

theorem advance_of_error {s : Scanner} {f : SyntaxFault} (h : s.next ≠ .eof)
    (hf : (s.next.scan s.cursor).next = .error f) :
    s.advance = (.error f, { s.arrive with cursor := (s.next.scan s.cursor).cursor }) := by
  simp [advance, h, hf]

/-- What a step makes of its scan. -/
def settle (s : Scanner) (scan : Scan) : Except SyntaxFault Bool × Scanner :=
  match scan.next with
  | .ok next =>
    (.ok true,
      { s.arrive with
        value := scan.value.map String.ofList
        tagEnd := scan.tagEnd.getD s.tagEnd
        next
        cursor := scan.cursor })
  | .error fault => (.error fault, { s.arrive with cursor := scan.cursor })

/-- A step with every index checked. -/
def advanceIndexed (limit : Int) (text : Array Char) (s : Scanner) :
    Outcome (Except SyntaxFault Bool × Scanner) := do
  if s.next = .eof then return (.ok false, s.arrive)
  else return s.settle (← Indexed.scan limit text s.next s.cursor)

/-- A scanner that stands where its next token can begin. -/
def Ready (limit : Int) (text : Array Char) (s : Scanner) : Prop :=
  Indexed.Ready limit text s.next s.cursor

section
variable {limit : Int} {text : Array Char} {s : Scanner}

theorem advanceIndexed_eq (h : s.Ready limit text) : s.advanceIndexed limit text = .value s.advance := by
  unfold advanceIndexed advance
  split
  · rfl
  · rw [Indexed.scan_eq h]
    rfl

theorem Ready.after {k : TokenKind} (h : s.Ready limit text) (hne : s.next ≠ .eof)
    (hk : (s.next.scan s.cursor).next = .ok k) : (s.after k).Ready limit text :=
  Indexed.Ready.next h hne hk

theorem Ready.advance (h : s.Ready limit text) : s.advance.2.Ready (limit + 1) text := by
  by_cases hne : s.next = .eof
  · rw [advance_of_eof hne]
    exact h.mono (by omega)
  · cases hk : (s.next.scan s.cursor).next with
    | ok k =>
      rw [advance_of_ok hne hk]
      exact (h.after hne hk).mono (by omega)
    | error f =>
      rw [advance_of_error hne hk]
      exact h.fail hk

theorem ready_ofText (file : Option String) (text : String) :
    (ofText file text).Ready (1 + 2 * text.length : Nat) text.toList.toArray := by
  refine ⟨⟨rfl, Nat.zero_le _⟩, ⟨le_rfl, ?_, ?_⟩, ?_, ?_, ?_⟩
  · simp [ofText, Location.start, String.length_toList]
    omega
  · simp [ofText, Location.start, String.length_toList]
  · simp [ofText]
  · simp [ofText]
  · simp [ofText]

end

/-! ## Calls one after the other -/

/-- A scanner after so many steps, whatever they answered. -/
def calls (s : Scanner) : Nat → Scanner
  | 0 => s
  | n + 1 => (s.calls n).advance.2

theorem ready_calls {limit : Int} {text : Array Char} {s : Scanner} (h : s.Ready limit text) (n : Nat) :
    (s.calls n).Ready (limit + n) text := by
  induction n with
  | zero => simpa [calls] using h
  | succ n ih =>
    have := ih.advance
    rw [Int.add_assoc] at this
    exact_mod_cast this

theorem next_eq_eof {s : Scanner} (h : s.advance.1 = .ok false) : s.next = .eof := by
  by_contra hne
  cases hk : (s.next.scan s.cursor).next with
  | ok k => simp [advance_of_ok hne hk] at h
  | error f => simp [advance_of_error hne hk] at h

theorem calls_of_eof {s : Scanner} (h : s.next = .eof) (n : Nat) :
    (s.calls n).next = .eof ∧ (s.calls n).cursor = s.cursor := by
  induction n with
  | zero => exact ⟨h, rfl⟩
  | succ n ih => rw [calls, advance_of_eof ih.1]; exact ih

/-- A step that fails for a reason and stays at a position. -/
def FailsAt (s : Scanner) (cause : SyntaxCause) (position : Nat) : Prop :=
  ∃ f, s.advance.1 = .error f ∧ f.cause = cause ∧ s.advance.2.cursor.position = position

theorem FailsAt.again {limit : Int} {text : Array Char} {s : Scanner} {cause : SyntaxCause} {position : Nat}
    (h : s.Ready limit text) (hs : s.FailsAt cause position) : s.advance.2.FailsAt cause position := by
  obtain ⟨f, hf, rfl, rfl⟩ := hs
  have hne : s.next ≠ .eof := by
    intro he
    simp [advance_of_eof he] at hf
  cases hk : (s.next.scan s.cursor).next with
  | ok k => simp [advance_of_ok hne hk] at hf
  | error f' =>
    obtain ⟨f'', hagain, hcause, hposition⟩ := Indexed.scan_error_again h hk
    have hs' := @advance_of_error { s.arrive with cursor := (s.next.scan s.cursor).cursor } f'' hne hagain
    rw [advance_of_error hne hk] at hf ⊢
    obtain rfl := Except.error.inj hf
    exact ⟨f'', congrArg Prod.fst hs', hcause, (congrArg (·.2.cursor.position) hs').trans hposition⟩

theorem calls_add (s : Scanner) (m n : Nat) : s.calls (m + n) = (s.calls m).calls n := by
  induction n with
  | zero => rfl
  | succ n ih => rw [← Nat.add_assoc, calls, calls, ih]

theorem FailsAt.calls {limit : Int} {text : Array Char} {s : Scanner} {cause : SyntaxCause} {position : Nat}
    (h : s.Ready limit text) (hs : s.FailsAt cause position) (n : Nat) : (s.calls n).FailsAt cause position := by
  induction n with
  | zero => exact hs
  | succ n ih => exact ih.again (ready_calls h n)

/-- There are no more steps than the size of a scanner. -/
theorem exists_calls_ne_true (s : Scanner) : ∃ n ≤ s.size, (s.calls n).advance.1 ≠ .ok true := by
  by_contra h
  push Not at h
  -- Each step takes something off the size.
  have hsize : ∀ n ≤ s.size + 1, (s.calls n).size + n ≤ s.size := by
    intro n
    induction n with
    | zero => intro _; exact le_rfl
    | succ n ih =>
      intro hn
      have := size_advance_lt (h n (by omega))
      have := ih (by omega)
      rw [calls]
      omega
  have := hsize (s.size + 1) le_rfl
  omega

end Scanner

/-! ## Reading a template -/

namespace Item

theorem ofTokens_text {t : Token} {kind : SegmentKind} (h : t.kind.segmentKind? = some kind) (ts : List Token) :
    ofTokens none (t :: ts) = ofText kind t ++ ofTokens none ts := by
  simp only [ofTokens, h]

theorem ofTokens_leave {t : Token} {kind : SegmentKind} (h : t.kind.segmentKind? = some kind)
    (o : Opened) (ts : List Token) :
    ofTokens (some o) (t :: ts) = (o.close ++ ofText kind t) ++ ofTokens none ts := by
  simp only [ofTokens, h]

theorem ofTokens_other {t : Token} (h : t.kind.segmentKind? = none) (hd : t.kind ≠ .directive)
    (ts : List Token) : ofTokens none (t :: ts) = [] ++ ofTokens none ts := by
  simp only [ofTokens, h, if_neg hd, List.nil_append]

end Item

/-- A reader of tokens: the template so far, the directive that is being read, and whether the
current token is still to be used. -/
structure Parser where
  scanner : Scanner
  template : Template
  skip : Bool := false
  opened : Option Item.Opened := none

namespace Parser

/-- Uses the current token outside of directives. -/
def outside (t : Template) (s : Scanner) : Parser ⊕ (Template × Option SyntaxFault) :=
  if s.kind = .eof then .inr (t.placeHelpers, none)
  else if s.kind = .directive then .inl { scanner := s, template := t, opened := some {} }
  else
    match s.kind.segmentKind? with
    | some kind => .inl { scanner := s, template := (Item.ofText kind s.token).foldl Template.addItem t }
    | none => .inl { scanner := s, template := t }

/-- Uses the current token inside of a directive. A token of text is left to be used outside. -/
def inside (t : Template) (s : Scanner) (o : Item.Opened) : Parser :=
  match s.kind with
  | .directiveName => { scanner := s, template := t, opened := some (o.name s.token) }
  | .directiveValue =>
    { scanner := s, template := (o.value s.token).2.foldl Template.addItem t
      opened := some (o.value s.token).1 }
  | .directive => { scanner := s, template := t, opened := some (o.between s.token) }
  | _ => { scanner := s, template := t, skip := true, opened := some o }

/-- One turn of a loop: of the one over the tokens of a directive, or of the one around it. -/
def step (limit : Int) (text : Array Char) (p : Parser) :
    Outcome (Parser ⊕ (Template × Option SyntaxFault)) := do
  match p.opened with
  | none =>
    if p.skip then return outside p.template p.scanner
    else
      let (answer, s) ← p.scanner.advanceIndexed limit text
      match answer with
      | .ok true => return outside p.template s
      | .ok false => return .inr (p.template.placeHelpers, none)
      | .error f => return .inr (p.template, some f)
  | some o =>
    let left := o.close.foldl Template.addItem p.template
    if p.skip then return .inl { p with template := left, opened := none }
    else
      let (answer, s) ← p.scanner.advanceIndexed limit text
      match answer with
      | .ok true => return .inl (inside p.template s o)
      | .ok false => return .inl { scanner := s, template := left }
      | .error f => return .inr (p.template, some f)

def steps (limit : Int) (text : Array Char) : Nat → Parser →
    Outcome (Parser ⊕ (Template × Option SyntaxFault))
  | 0, p => return .inl p
  | n + 1, p => do
    match ← p.step limit text with
    | .inl p' => steps limit text n p'
    | .inr r => return .inr r

/-- What a reader makes of the rest of its text. -/
def expected (p : Parser) : Template × Option SyntaxFault :=
  let t := (Item.ofTokens p.opened p.scanner.stream.tokens).foldl Template.addItem p.template
  match p.scanner.stream.fault? with
  | none => (t.placeHelpers, none)
  | some f => (t, some f)

section
variable {limit : Int} {text : Array Char} {p p' : Parser} {r : Template × Option SyntaxFault}

/-- A reader ends after some turns of its loops. -/
def Returns (limit : Int) (text : Array Char) (p : Parser) (r : Template × Option SyntaxFault) : Prop :=
  ∃ n, steps limit text n p = .value (.inr r)

theorem Returns.done (h : p.step limit text = .value (.inr r)) : Returns limit text p r :=
  ⟨1, by rw [steps, h]; rfl⟩

theorem Returns.turn (h : p.step limit text = .value (.inl p')) (h' : Returns limit text p' r) :
    Returns limit text p r := by
  obtain ⟨n, hn⟩ := h'
  exact ⟨n + 1, by rw [steps, h]; exact hn⟩

theorem expected_of_eof {s : Scanner} (h : s.next = .eof) (t : Template) :
    expected { scanner := s, template := t } = (t.placeHelpers, none) := by
  simp [expected, Scanner.stream_of_eof h, TokenStream.fault?, Item.ofTokens]

theorem expected_of_error {s : Scanner} {f : SyntaxFault} (hne : s.next ≠ .eof)
    (hf : (s.next.scan s.cursor).next = .error f) (t : Template) (o : Option Item.Opened) :
    expected { scanner := s, template := t, opened := o } = (t, some f) := by
  simp [expected, Scanner.stream_of_error hne hf, TokenStream.fault?, Item.ofTokens]

/-- One token used: the items it gives and what is opened behind it. -/
theorem expected_of_ok {s : Scanner} {k : TokenKind} (hne : s.next ≠ .eof)
    (hk : (s.next.scan s.cursor).next = .ok k) (t : Template) {o o' : Option Item.Opened} {is : List Item}
    (h : ∀ ts, Item.ofTokens o ((s.after k).token :: ts) = is ++ Item.ofTokens o' ts) :
    expected { scanner := s, template := t, opened := o } =
      expected { scanner := s.after k, template := is.foldl Template.addItem t, opened := o' } := by
  simp only [expected, Scanner.stream_of_ok hne hk, h, List.foldl_append]
  rfl

theorem not_eof_of_directive {kind k : TokenKind} {cs rest : List Char} {v : Option (List Char)}
    (h : Reads kind cs k v rest) (hk : kind.segmentKind? = none) : k ≠ .eof := by
  rintro rfl
  cases kind with
  | content | expression | block | helper => cases hk
  | directive => obtain ⟨-, gap, y, -, -, ⟨hk, -⟩ | ⟨hk, -⟩ | ⟨hk, -⟩⟩ := h <;> cases hk
  | directiveName | directiveValue => cases h.1
  | eof => exact h

theorem outside_text {s : Scanner} {kind : SegmentKind} (t : Template) (h : s.kind.segmentKind? = some kind) :
    outside t s =
      .inl { scanner := s, template := (Item.ofText kind s.token).foldl Template.addItem t } := by
  have hne : s.kind ≠ .eof ∧ s.kind ≠ .directive := by
    constructor <;> (intro e; rw [e] at h; cases h)
  simp [outside, hne.1, hne.2, h]

theorem inside_text {s : Scanner} {kind : SegmentKind} (t : Template) (o : Item.Opened)
    (h : s.kind.segmentKind? = some kind) :
    inside t s o = { scanner := s, template := t, skip := true, opened := some o } := by
  unfold inside
  split
  · rename_i e
    rw [e] at h
    cases h
  · rename_i e
    rw [e] at h
    cases h
  · rename_i e
    rw [e] at h
    cases h
  · rfl

/-- A token of text behind a directive is first left, then used. -/
theorem Returns.leave {s : Scanner} {kind : SegmentKind} {t : Template} {o : Item.Opened}
    (hk : s.kind.segmentKind? = some kind)
    (h : Returns limit text
      { scanner := s, template := (o.close ++ Item.ofText kind s.token).foldl Template.addItem t } r) :
    Returns limit text { scanner := s, template := t, skip := true, opened := some o } r := by
  have hleft : step limit text { scanner := s, template := t, skip := true, opened := some o } =
      .value (.inl { scanner := s, template := o.close.foldl Template.addItem t, skip := true }) := rfl
  refine .turn hleft (.turn (congrArg Outcome.value (outside_text _ hk)) ?_)
  rw [← List.foldl_append]
  exact h

/-- A reader that checks every index ends, with the template of the tokens. -/
theorem returns (s : Scanner) (h : s.Ready limit text) (t : Template) (o : Option Item.Opened)
    (ho : o ≠ none → s.next ≠ .eof) :
    Returns limit text { scanner := s, template := t, opened := o }
      (expected { scanner := s, template := t, opened := o }) := by
  by_cases hne : s.next = .eof
  · obtain rfl : o = none := by
      by_contra hsome
      exact ho hsome hne
    rw [expected_of_eof hne]
    exact .done (by simp [step, Scanner.advanceIndexed_eq h, Scanner.advance_of_eof hne])
  cases hk : (s.next.scan s.cursor).next with
  | error f =>
    rw [expected_of_error hne hk]
    exact .done (by cases o <;> simp [step, Scanner.advanceIndexed_eq h, Scanner.advance_of_error hne hk])
  | ok k =>
    have hr := (scan_finds_iff hne).1 ⟨hk, rfl, rfl⟩
    -- One turn uses the token that was read; the turns after it are those of the next scanner.
    have ih t o ho := returns (s.after k) (h.after hne hk) t o ho
    cases o with
    | none =>
      have hstep : step limit text { scanner := s, template := t } = .value (outside t (s.after k)) := by
        simp [step, Scanner.advanceIndexed_eq h, Scanner.advance_of_ok hne hk]
      cases hs : s.next.segmentKind? with
      | some kind =>
        rw [outside_text t hs] at hstep
        rw [expected_of_ok hne hk t (Item.ofTokens_text hs)]
        exact .turn hstep (ih _ _ (by simp))
      | none =>
        by_cases hd : s.next = .directive
        · have hout : outside t (s.after k) =
              .inl { scanner := s.after k, template := t, opened := some {} } := by
            have hkind : (s.after k).kind = .directive := hd
            simp [outside, hkind]
          rw [hout] at hstep
          rw [expected_of_ok hne hk t fun ts => (Item.ofTokens_opening hd).trans (List.nil_append _).symm]
          exact .turn hstep (ih _ _ fun _ => not_eof_of_directive hr hs)
        · have hout : outside t (s.after k) = .inl { scanner := s.after k, template := t } := by
            simp [outside, show (s.after k).kind = s.next from rfl, hne, hd, hs]
          rw [hout] at hstep
          rw [expected_of_ok hne hk t (Item.ofTokens_other hs hd)]
          exact .turn hstep (ih _ _ (by simp))
    | some o =>
      have hstep : step limit text { scanner := s, template := t, opened := some o } =
          .value (.inl (inside t (s.after k) o)) := by
        simp [step, Scanner.advanceIndexed_eq h, Scanner.advance_of_ok hne hk]
      refine .turn hstep ?_
      cases hs : s.next.segmentKind? with
      | some kind =>
        rw [inside_text t o hs, expected_of_ok hne hk t (Item.ofTokens_leave hs o)]
        exact .leave hs (ih _ _ (by simp))
      | none =>
        have hopen := not_eof_of_directive hr hs
        have hkind : (s.after k).kind = s.next := rfl
        cases hn : s.next with
        | content | expression | block | helper => simp [hn, TokenKind.segmentKind?] at hs
        | eof => exact absurd hn hne
        | directive =>
          rw [expected_of_ok hne hk t fun ts => (Item.ofTokens_between (.inl hn)).trans (List.nil_append _).symm]
          simp only [inside, hkind, hn]
          exact ih _ _ fun _ => hopen
        | directiveName =>
          rw [expected_of_ok hne hk t fun ts => (Item.ofTokens_name hn).trans (List.nil_append _).symm]
          simp only [inside, hkind, hn]
          exact ih _ _ fun _ => hopen
        | directiveValue =>
          rw [expected_of_ok hne hk t fun ts => Item.ofTokens_value hn]
          simp only [inside, hkind, hn]
          exact ih _ _ fun _ => hopen
termination_by s.size
decreasing_by exact TokenKind.size_scan_lt hne hk

end

end Parser

theorem Scanner.size_ofText (file : Option String) (text : String) :
    (Scanner.ofText file text).size = 3 * text.length + 2 := by
  simp [size, ofText, Cursor.size, TokenKind.rank, String.length_toList]

theorem Parser.expected_eq_parsePlain (t : Template) (s : Scanner) :
    expected { scanner := s, template := t } = t.parsePlain s := by
  cases h : s.stream.fault? <;> simp only [expected, Template.parsePlain, h]

/-- **Halting.** A scanner comes to the end of its text or to a fault after no more steps than its text
allows, and no check of an index or of a slice on the way fails. Nor does one of a number, if lines and
columns may go up to `1 + 2 * text.length + n` in step `n`: a step that fails again can count one more column.
Numbers of 32 bits do while `2 * text.length + n < 2 ^ 31 - 1`; what becomes of longer texts is left open. At
the end of the text the scanner stays; after a fault each further step fails with the same message in the
same position. A reader that takes its tokens from such a scanner ends, with the template of the tokens; it
goes no further than the first fault, so `1 + 2 * text.length` is enough, in 32 bits less than 2 ^ 30
characters. -/
theorem calls_halt (file : Option String) (text : String) :
    let s := Scanner.ofText file text
    let characters := text.toList.toArray
    (∃ n ≤ 3 * text.length + 2, (s.calls n).advance.1 ≠ .ok true) ∧
    (∀ (n : Nat) (limit : Int), 1 + 2 * text.length + n ≤ limit →
      (s.calls n).advanceIndexed limit characters = .value (s.calls n).advance) ∧
    (∀ n, (s.calls n).advance.1 = .ok false → ∀ m ≥ n,
      (s.calls m).advance.1 = .ok false ∧ (s.calls m).advance.2.cursor.position = text.length) ∧
    (∀ n f, (s.calls n).advance.1 = .error f → ∀ m ≥ n, ∃ f', (s.calls m).advance.1 = .error f' ∧
      f'.message = f.message ∧
      (s.calls m).advance.2.cursor.position = (s.calls n).advance.2.cursor.position) ∧
    ∀ (t : Template) (limit : Int), 1 + 2 * text.length ≤ limit →
      Parser.Returns limit characters { scanner := s, template := t } (t.parsePlain s) := by
  intro s characters
  have hready := Scanner.ready_calls (Scanner.ready_ofText file text)
  refine ⟨?_, ?_, ?_, ?_, ?_⟩
  · exact Scanner.size_ofText file text ▸ s.exists_calls_ne_true
  · intro n limit hl
    exact Scanner.advanceIndexed_eq ((hready n).mono (by exact_mod_cast hl))
  · intro n hn m hm
    obtain ⟨d, rfl⟩ := Nat.exists_eq_add_of_le hm
    obtain ⟨heof, hcursor⟩ := Scanner.calls_of_eof (Scanner.next_eq_eof hn) d
    rw [← Scanner.calls_add] at heof hcursor
    rw [Scanner.advance_of_eof heof]
    have hend := (hready (n + d)).left.size_eq
    rw [(hready (n + d)).eof heof] at hend
    have hlength : characters.size = text.length := by simp [characters, String.length_toList]
    exact ⟨rfl, hend.trans hlength⟩
  · intro n f hf m hm
    obtain ⟨d, rfl⟩ := Nat.exists_eq_add_of_le hm
    have hfails : (s.calls n).FailsAt f.cause (s.calls n).advance.2.cursor.position := ⟨f, hf, rfl, rfl⟩
    obtain ⟨f', hf', hcause, hposition⟩ := hfails.calls (hready n) d
    rw [← Scanner.calls_add] at hf' hposition
    exact ⟨f', hf', congrArg SyntaxCause.message hcause, hposition⟩
  · intro t limit hl
    rw [← Parser.expected_eq_parsePlain]
    exact Parser.returns s ((Scanner.ready_ofText file text).mono (by exact_mod_cast hl)) t none (by simp)

end Templating
