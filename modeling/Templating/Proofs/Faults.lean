import Mathlib
import Templating.Proofs.Coordinates
import Templating.Proofs.Splicing

/-!
# Faults

A text that cannot be read leaves exactly one `TT1001` error. It names the line of the character that
does not belong there, or of the end of the text (`ofText_fault`); what is reported of a text without
a name has no place at all (`ofText_fault_nameless`).
-/

namespace Templating

open Grammar

/-! ## Where a token breaks off -/

namespace Grammar

/-- A beginning of a token that lacks its end. -/
def Unfinished : TokenKind → List Char → Prop
  | .expression, x | .block, x | .helper, x => ∀ r y, x = r ++ '#' :: '>' :: y → ¬ IsBody r
  | .directive, x => Blanks x
  | .directiveName, x => ∀ c ∈ x.drop 1, Text.isAlphanumeric c
  | .directiveValue, x =>
    Blanks x ∨ ∃ inner q text, x = inner ++ q :: text ∧ Blanks inner ∧ IsQuote q ∧ q ∉ text
  | .content, _ | .eof, _ => False

/-- What is wrong with a token: it lacks its end, or the first character of `rest`, after the blanks
`x`, does not belong there. -/
inductive Offends : TokenKind → (x rest : List Char) → SyntaxCause → Prop
  | ending {kind x} (unfinished : Unfinished kind x) : Offends kind x [] .unexpectedEnd
  | stray {x c r} (gap : Blanks x) (blank : ¬ Text.isBlank c) (unread : ∀ k t, ¬ Announces (c :: r) k t) :
      Offends .directive x (c :: r) (.strayCharacter c)
  | unquoted {x c r} (gap : Blanks x) (blank : ¬ Text.isBlank c) (unread : ¬ IsQuote c) :
      Offends .directiveValue x (c :: r) (.unquotedValue c)

theorem blanks_nil : Blanks [] := by
  simp [Blanks]

theorem blanks_append {x y : List Char} (hx : Blanks x) (hy : Blanks y) : Blanks (x ++ y) :=
  List.forall_mem_append.2 ⟨hx, hy⟩

theorem Offends.gap {kind : TokenKind} {x y rest : List Char} {cause : SyntaxCause}
    (h : Offends kind x rest cause) (hk : kind = .directive ∨ kind = .directiveValue) (hy : Blanks y) :
    Offends kind (y ++ x) rest cause := by
  cases h with
  | stray hg hb hu => exact .stray (blanks_append hy hg) hb hu
  | unquoted hg hb hu => exact .unquoted (blanks_append hy hg) hb hu
  | ending hx =>
    refine .ending ?_
    rcases hk with rfl | rfl
    · exact blanks_append hy hx
    · refine hx.imp (blanks_append hy) ?_
      rintro ⟨inner, q, text, rfl, hi, hq, ht⟩
      exact ⟨y ++ inner, q, text, by rw [List.append_assoc], blanks_append hy hi, hq, ht⟩

theorem not_blanks_of_append {x y : List Char} {c : Char} (hc : ¬ Text.isBlank c) : ¬ Blanks (x ++ c :: y) :=
  fun h => hc (h c (by simp))

theorem Announces.exists_cons {y t : List Char} {k : TokenKind} (h : Announces y k t) :
    ∃ c r, y = c :: r ∧ ¬ Text.isBlank c := by
  have hb := h.head_not_isBlank
  cases y with
  | nil =>
    rcases h with ⟨-, n, e, -⟩ | ⟨-, rfl, c, hc, -⟩ | ⟨-, e⟩
    · cases e
    · cases hc
    · cases e
  | cons c r => exact ⟨c, r, rfl, hb c rfl⟩

theorem Unfinished.unread {kind : TokenKind} {x : List Char} (h : Unfinished kind x) (k : TokenKind)
    (v : Option (List Char)) (t : List Char) : ¬ Reads kind x k v t := by
  intro hr
  cases kind with
  | content | eof => exact h
  | expression =>
    obtain ⟨-, r, hx, hb, -⟩ := hr
    exact h r t hx hb
  | block | helper =>
    obtain ⟨-, r, n, hx, hb, -⟩ := hr
    exact h r (n ++ t) hx hb
  | directive =>
    obtain ⟨-, gap, y, rfl, -, hy⟩ := hr
    obtain ⟨c, r, rfl, hc⟩ := hy.exists_cons
    exact not_blanks_of_append hc h
  | directiveName =>
    obtain ⟨-, c, n, rfl, ht, -, hl, -⟩ := hr
    obtain ⟨d, t, rfl⟩ := List.exists_cons_of_ne_nil ht
    exact hl d rfl (h d (by simp))
  | directiveValue =>
    obtain ⟨-, q, text, inner, hx, hi, hq, -, -⟩ := hr
    rcases h with h | ⟨inner', q', text', rfl, hi', hq', ht'⟩
    · exact not_blanks_of_append hq.not_isBlank (hx ▸ h)
    · obtain ⟨-, rfl, rfl⟩ := gap_inj q' q hi' hi hq'.not_isBlank hq.not_isBlank hx
      exact ht' (by simp)

section
variable {kind : TokenKind} {x x' rest rest' : List Char} {cause cause' : SyntaxCause}

theorem Offends.unread (h : Offends kind x rest cause) (k : TokenKind) (v : Option (List Char))
    (t : List Char) : ¬ Reads kind (x ++ rest) k v t := by
  cases h with
  | ending hx => exact (List.append_nil x).symm ▸ hx.unread k v t
  | stray hg hb hu =>
    rintro ⟨-, gap, y, he, hgap, hy⟩
    obtain ⟨d, r, rfl, hd⟩ := hy.exists_cons
    obtain ⟨-, rfl, rfl⟩ := gap_inj _ d hg hgap hb hd he
    exact hu k t hy
  | unquoted hg hb hu =>
    rintro ⟨-, q, text, inner, he, hi, hq, -⟩
    obtain ⟨-, rfl, -⟩ := gap_inj _ q hg hi hb hq.not_isBlank he
    exact hu hq

theorem Unfinished.nil (h : Unfinished kind x) : Unfinished kind [] := by
  cases kind with
  | content | eof => exact h
  | expression | block | helper => exact fun r y e => by simp at e
  | directive => exact blanks_nil
  | directiveName => exact fun c hc => by cases hc
  | directiveValue => exact .inl blanks_nil

/-- What breaks off still does without the blanks before. -/
theorem Offends.drop (h : Offends kind x rest cause) : Offends kind [] rest cause := by
  cases h with
  | ending hx => exact .ending hx.nil
  | stray _ hb hu => exact .stray blanks_nil hb hu
  | unquoted _ hb hu => exact .unquoted blanks_nil hb hu

theorem Offends.rest_eq_nil (h : Offends kind x rest cause) (h₁ : kind ≠ .directive)
    (h₂ : kind ≠ .directiveValue) : rest = [] := by
  cases h with
  | ending => rfl
  | stray => exact absurd rfl h₁
  | unquoted => exact absurd rfl h₂

theorem Offends.ne_unfinished {c : Char} {r : List Char} (h : Offends kind x (c :: r) cause) :
    ¬ Unfinished kind (x ++ c :: r) := by
  cases h with
  | stray hg hb hu => exact not_blanks_of_append hb
  | unquoted hg hb hu =>
    rintro (h | ⟨inner, q, text, he, hi, hq, -⟩)
    · exact not_blanks_of_append hb h
    · obtain ⟨-, rfl, -⟩ := gap_inj c q hg hi hb hq.not_isBlank he
      exact hu hq

theorem Offends.unique (h : Offends kind x rest cause) (h' : Offends kind x' rest' cause')
    (he : x ++ rest = x' ++ rest') : x = x' ∧ rest = rest' ∧ cause = cause' := by
  -- A character that offends is not blank, so the blanks before it end in the same place.
  cases h with
  | ending hx =>
    cases h' with
    | ending => exact ⟨by simpa using he, rfl, rfl⟩
    | stray hg hb hu =>
      rw [List.append_nil] at he
      exact absurd (he ▸ hx) (Offends.stray hg hb hu).ne_unfinished
    | unquoted hg hb hu =>
      rw [List.append_nil] at he
      exact absurd (he ▸ hx) (Offends.unquoted hg hb hu).ne_unfinished
  | stray hg hb hu =>
    cases h' with
    | ending hx =>
      rw [List.append_nil] at he
      exact absurd (he ▸ hx) (Offends.stray hg hb hu).ne_unfinished
    | stray hg' hb' hu' =>
      obtain ⟨rfl, rfl, rfl⟩ := gap_inj _ _ hg hg' hb hb' he
      exact ⟨rfl, rfl, rfl⟩
  | unquoted hg hb hu =>
    cases h' with
    | ending hx =>
      rw [List.append_nil] at he
      exact absurd (he ▸ hx) (Offends.unquoted hg hb hu).ne_unfinished
    | unquoted hg' hb' hu' =>
      obtain ⟨rfl, rfl, rfl⟩ := gap_inj _ _ hg hg' hb hb' he
      exact ⟨rfl, rfl, rfl⟩

end

end Grammar

/-- How many columns too far a fault is put. The character in place of a quote is counted first. -/
def SyntaxCause.overrun : SyntaxCause → Nat
  | .unquotedValue _ => 1
  | .unexpectedEnd | .strayCharacter _ => 0

theorem SyntaxCause.overrun_eq_zero {cause : SyntaxCause} (h : ∀ c, cause ≠ .unquotedValue c) :
    cause.overrun = 0 := by
  cases cause with
  | unexpectedEnd | strayCharacter => rfl
  | unquotedValue c => exact absurd rfl (h c)

namespace Scan

/-- What a scan goes over before it gives up, and why it does. -/
structure GivesUp (s : Scan) (kind : TokenKind) (f : SyntaxFault) (l : Location) (cs x : List Char) : Prop
    extends s.Covers l cs x f.cause.overrun where
  place : f.location = s.cursor.here
  offends : Offends kind x s.cursor.rest f.cause

/-- A scan that gives up at the end of its text. -/
structure RunsOut (s : Scan) (f : SyntaxFault) : Prop where
  cause : f.cause = .unexpectedEnd
  place : f.location = s.cursor.here
  rest : s.cursor.rest = []

section
variable {s : Scan} {kind : TokenKind} {read cs x : List Char} {p : Nat} {h l : Location} {f : SyntaxFault}

theorem RunsOut.givesUp (hs : s.RunsOut f) (hx : s.Covers l cs x 0) (hcs : Unfinished kind cs) :
    s.GivesUp kind f l cs x := by
  obtain rfl : cs = x := by
    have := hx.rest
    rwa [hs.rest, List.append_nil] at this
  refine ⟨?_, hs.place, ?_⟩
  · rw [hs.cause]
    exact hx
  · rw [hs.cause, hs.rest]
    exact .ending hcs

theorem GivesUp.gap {l' : Location} {cs' y : List Char} (hs : s.GivesUp kind f l cs x)
    (hk : kind = .directive ∨ kind = .directiveValue) (hy : Blanks y)
    (hx : s.Covers l' cs' (y ++ x) f.cause.overrun) : s.GivesUp kind f l' cs' (y ++ x) :=
  ⟨hx, hs.place, hs.offends.gap hk hy⟩

theorem readContent_ne_error (read : List Char) (p : Nat) (h l : Location) (cs : List Char) (f : SyntaxFault) :
    (readContent read p h l cs).next ≠ .error f := by
  fun_induction readContent read p h l cs with
  | case1 => simp
  | case2 read p h l r ih => exact ih
  | case3 => simp
  | case4 read p h l c r _ _ ih => exact ih

theorem readBody_runsOut (hf : (readBody read p h l cs).next = .error f) :
    (readBody read p h l cs).RunsOut f := by
  fun_induction readBody read p h l cs with
  | case1 =>
    obtain rfl := Except.error.inj hf
    exact ⟨rfl, rfl, rfl⟩
  | case2 read p h l r ih => exact ih hf
  | case3 => cases hf
  | case4 read p h l c r _ _ ih => exact ih hf

theorem readBody_givesUp (hk : kind = .expression ∨ kind = .block ∨ kind = .helper)
    (hf : (readBody [] p h l cs).next = .error f) :
    ∃ x, (readBody [] p h l cs).GivesUp kind f h cs x := by
  have hopen : Unfinished kind cs := by
    have hunread : ∀ r y, cs = r ++ '#' :: '>' :: y → ¬ IsBody r := by
      intro r y hr hb
      have hfinds : (readBody [] p h l cs).Finds .content (some (unescapeTags r)) y :=
        readBody_finds_iff.2 ⟨rfl, r, hr, hb, rfl⟩
      cases hfinds.next.symm.trans hf
    rcases hk with rfl | rfl | rfl <;> exact hunread
  exact (readBody_covers [] p h l cs).imp fun _ hx => (readBody_runsOut hf).givesUp hx hopen

theorem readBodyAndLineBreak_givesUp {c : Cursor} (hk : kind = .expression ∨ kind = .block ∨ kind = .helper)
    (hf : (readBodyAndLineBreak c).next = .error f) :
    ∃ x, (readBodyAndLineBreak c).GivesUp kind f c.here c.rest x := by
  cases hs : (readBody [] c.position c.here c.last c.rest).next with
  | ok k =>
    rw [readBodyAndLineBreak_of_ok hs] at hf
    cases hs.symm.trans hf
  | error e =>
    rw [readBodyAndLineBreak_of_error hs] at hf ⊢
    exact readBody_givesUp hk hf

theorem readName_runsOut (hf : (readName read p h l cs).next = .error f) :
    (readName read p h l cs).RunsOut f ∧ ∀ c ∈ cs, Text.isAlphanumeric c := by
  fun_induction readName read p h l cs with
  | case1 =>
    obtain rfl := Except.error.inj hf
    exact ⟨⟨rfl, rfl, rfl⟩, by simp⟩
  | case2 read p h c r hc ih => exact ⟨(ih hf).1, List.forall_mem_cons.2 ⟨hc, (ih hf).2⟩⟩
  | case3 => cases hf

theorem readNameFrom_givesUp {c : Cursor} (hc : ∀ x ∈ c.rest.head?, ¬ (x = '\r' ∨ x = '\n'))
    (hf : (readNameFrom c).next = .error f) :
    ∃ x, (readNameFrom c).GivesUp .directiveName f c.here c.rest x := by
  have hruns : (readNameFrom c).RunsOut f ∧ Unfinished .directiveName c.rest := by
    unfold readNameFrom at hf ⊢
    cases hr : c.rest with
    | nil =>
      simp only [hr] at hf
      exact readName_runsOut hf
    | cons y r =>
      simp only [hr] at hf
      exact readName_runsOut hf
  exact (readNameFrom_covers hc).imp fun _ hx => hruns.1.givesUp hx hruns.2

theorem readQuoted_runsOut {q : Char} (hq : IsQuote q) (hf : (readQuoted q read p h l cs).next = .error f) :
    (readQuoted q read p h l cs).RunsOut f ∧ q ∉ cs := by
  fun_induction readQuoted q read p h l cs with
  | case1 =>
    obtain rfl := Except.error.inj hf
    exact ⟨⟨rfl, rfl, rfl⟩, by simp⟩
  | case2 read p h r ih =>
    obtain ⟨hruns, hmem⟩ := ih hf
    refine ⟨hruns, ?_⟩
    rcases hq with rfl | rfl <;> simpa using hmem
  | case3 => cases hf
  | case4 read p h c r _ hc ih =>
    obtain ⟨hruns, hmem⟩ := ih hf
    exact ⟨hruns, List.not_mem_cons_of_ne_of_not_mem (Ne.symm hc) hmem⟩

theorem blanks_crlf : Blanks ['\r', '\n'] := by
  simp [Blanks]
  decide

theorem readDirective_givesUp (hf : (readDirective p h l cs).next = .error f) :
    ∃ x, (readDirective p h l cs).GivesUp .directive f h cs x := by
  fun_induction readDirective p h l cs with
  | case1 =>
    obtain rfl := Except.error.inj hf
    exact ⟨[], RunsOut.givesUp ⟨rfl, rfl, rfl⟩ (covers_nil rfl rfl) blanks_nil⟩
  | case2 p h r ih =>
    obtain ⟨x, hx⟩ := ih hf
    exact ⟨_, hx.gap (.inl rfl) blanks_crlf hx.crlf⟩
  | case3 => cases hf
  | case4 => cases hf
  | case5 => cases hf
  | case6 p h c r hcut _ _ _ hb ih =>
    obtain ⟨x, hx⟩ := ih hf
    exact ⟨_, hx.gap (.inl rfl) (List.forall_mem_singleton.2 hb) (hx.cons hcut)⟩
  | case7 p h c r _ hclose ha he hb =>
    obtain rfl := Except.error.inj hf
    exact ⟨[], covers_nil rfl rfl, rfl, .stray blanks_nil hb fun _ _ => not_announces hclose ha he⟩

theorem readValue_givesUp (hf : (readValue p h l cs).next = .error f) :
    ∃ x, (readValue p h l cs).GivesUp .directiveValue f h cs x := by
  fun_induction readValue p h l cs with
  | case1 =>
    obtain rfl := Except.error.inj hf
    exact ⟨[], RunsOut.givesUp ⟨rfl, rfl, rfl⟩ (covers_nil rfl rfl) (.inl blanks_nil)⟩
  | case2 p h r ih =>
    obtain ⟨x, hx⟩ := ih hf
    exact ⟨_, hx.gap (.inr rfl) blanks_crlf hx.crlf⟩
  | case3 p h c r _ hq =>
    obtain ⟨x, hx⟩ := readQuoted_covers hq [] (p + 1) h.nextColumn l r
    obtain ⟨hruns, hmem⟩ := readQuoted_runsOut hq hf
    have hchar : ¬ (c = '\r' ∨ c = '\n') := by rcases hq with rfl | rfl <;> decide
    exact ⟨_, hruns.givesUp (hx.char hchar) (.inr ⟨[], c, r, rfl, blanks_nil, hq, hmem⟩)⟩
  | case4 p h c r hcut _ hb ih =>
    obtain ⟨x, hx⟩ := ih hf
    exact ⟨_, hx.gap (.inr rfl) (List.forall_mem_singleton.2 hb) (hx.cons hcut)⟩
  | case5 p h c r _ hq hb =>
    obtain rfl := Except.error.inj hf
    exact ⟨[], ⟨rfl, unsplit_nil _, rfl⟩, rfl, .unquoted blanks_nil hb hq⟩

end

end Scan

theorem scan_givesUp {kind : TokenKind} {c : Cursor} {f : SyntaxFault}
    (hname : kind = .directiveName → ∀ x ∈ c.rest.head?, ¬ (x = '\r' ∨ x = '\n'))
    (hf : (kind.scan c).next = .error f) : ∃ x, (kind.scan c).GivesUp kind f c.here c.rest x := by
  cases kind with
  | content => exact absurd hf (Scan.readContent_ne_error _ _ _ _ _ f)
  | expression => exact Scan.readBody_givesUp (.inl rfl) hf
  | block => exact Scan.readBodyAndLineBreak_givesUp (.inr (.inl rfl)) hf
  | helper => exact Scan.readBodyAndLineBreak_givesUp (.inr (.inr rfl)) hf
  | directive => exact Scan.readDirective_givesUp hf
  | directiveName => exact Scan.readNameFrom_givesUp (hname rfl) hf
  | directiveValue => exact Scan.readValue_givesUp hf
  | eof => cases hf

/-! ## From the start of a text to its fault -/

namespace Grammar

/-- Where one token ends and one of a kind begins: what was read and what is left of the source, and
the parts of it up to the end of each directive tag. -/
@[ext] structure Joint where
  ends : List (List Char)
  kind : TokenKind
  before : List Char
  rest : List Char

theorem Reads.unique {kind k k' : TokenKind} {cs t t' : List Char} {v v' : Option (List Char)}
    (h : Reads kind cs k v t) (h' : Reads kind cs k' v' t') : k = k' ∧ v = v' ∧ t = t' := by
  have hne : kind ≠ .eof := by
    rintro rfl
    exact h
  have hf := (scan_finds_iff (c := ⟨cs, 0, .empty, .empty⟩) hne).2 h
  have hf' := (scan_finds_iff (c := ⟨cs, 0, .empty, .empty⟩) hne).2 h'
  exact ⟨Except.ok.inj (hf.next.symm.trans hf'.next), hf.value.symm.trans hf'.value,
    hf.rest.symm.trans hf'.rest⟩

namespace Joint

def start (source : List Char) : Joint := ⟨[], .content, [], source⟩

/-- One token lies between two joints. -/
def Next (i j : Joint) : Prop :=
  ∃ x v, i.rest = x ++ j.rest ∧ j.before = i.before ++ x ∧ Reads i.kind i.rest j.kind v j.rest ∧
    if i.kind = .directive ∧ j.kind = .content then
      ∃ gap n, x = gap ++ '#' :: '>' :: n ∧ Blanks gap ∧ IsLineBreak n j.rest ∧
        j.ends = i.ends ++ [i.before ++ (gap ++ ['#', '>'])]
    else j.ends = i.ends

theorem Next.unique {i j j' : Joint} (h : i.Next j) (h' : i.Next j') : j = j' := by
  obtain ⟨x, v, hx, hb, hr, he⟩ := h
  obtain ⟨x', v', hx', hb', hr', he'⟩ := h'
  obtain ⟨hk, -, ht⟩ := hr.unique hr'
  have hxx : x = x' := List.append_cancel_right (hx.symm.trans (ht ▸ hx'))
  have hends : j.ends = j'.ends := by
    by_cases hclose : i.kind = .directive ∧ j.kind = .content
    · rw [if_pos hclose] at he
      rw [if_pos (hk ▸ hclose)] at he'
      obtain ⟨gap, n, hgap, hg, -, he⟩ := he
      obtain ⟨gap', n', hgap', hg', -, he'⟩ := he'
      obtain ⟨rfl, -⟩ := gap_inj '#' '#' hg hg' (by decide) (by decide) (hgap.symm.trans (hxx.trans hgap'))
      rw [he, he']
    · rw [if_neg hclose] at he
      rw [if_neg (hk ▸ hclose)] at he'
      rw [he, he']
  exact Joint.ext hends hk (hb.trans (hxx ▸ hb'.symm)) ht

end Joint

/-- A source breaks off in a token that begins at a joint, behind `x`. -/
structure BreaksOff (source : List Char) (cause : SyntaxCause) (j : Joint) (x rest : List Char) : Prop where
  reached : Relation.ReflTransGen Joint.Next (.start source) j
  split : j.rest = x ++ rest
  offends : Offends j.kind x rest cause

theorem BreaksOff.stuck {source x rest : List Char} {cause : SyntaxCause} {j j' : Joint}
    (h : BreaksOff source cause j x rest) (h' : Relation.ReflTransGen Joint.Next j j') : j' = j := by
  rcases Relation.ReflTransGen.cases_head h' with rfl | ⟨i, ⟨y, v, -, -, hr, -⟩, -⟩
  · rfl
  · exact absurd (h.split ▸ hr) (h.offends.unread _ _ _)

theorem BreaksOff.unique {source x x' rest rest' : List Char} {cause cause' : SyntaxCause} {j j' : Joint}
    (h : BreaksOff source cause j x rest) (h' : BreaksOff source cause' j' x' rest') :
    cause = cause' ∧ j = j' ∧ x = x' := by
  have hj : j = j' := by
    -- Of two ways from the start one goes on from the other, and none goes on from where it breaks off.
    have hunique : Relator.RightUnique Joint.Next := fun _ _ _ => Joint.Next.unique
    rcases Relation.ReflTransGen.total_of_right_unique hunique h.reached h'.reached with hr | hr
    · exact (h.stuck hr).symm
    · exact h'.stuck hr
  subst hj
  obtain ⟨rfl, -, rfl⟩ := h.offends.unique h'.offends (h.split.symm.trans h'.split)
  exact ⟨rfl, rfl, rfl⟩

/-- What a way from the start of a source leaves behind it. -/
structure Joint.Kept (source : List Char) (j : Joint) : Prop where
  source_eq : source = j.before ++ j.rest
  ends : ∀ e ∈ j.ends, e <+: j.before

theorem Joint.Kept.next {source : List Char} {i j : Joint} (hi : i.Kept source) (h : i.Next j) :
    j.Kept source := by
  obtain ⟨x, v, hx, hb, -, he⟩ := h
  refine ⟨by rw [hi.source_eq, hx, hb, List.append_assoc], ?_⟩
  have hearlier : ∀ e ∈ i.ends, e <+: j.before := fun e h =>
    (hi.ends e h).trans (hb ▸ List.prefix_append _ _)
  split at he
  · obtain ⟨gap, n, rfl, -, -, he⟩ := he
    rw [he]
    refine List.forall_mem_append.2 ⟨hearlier, List.forall_mem_singleton.2 ⟨n, ?_⟩⟩
    rw [hb]
    simp
  · exact he ▸ hearlier

theorem Joint.kept {source : List Char} {j : Joint} (h : Relation.ReflTransGen Joint.Next (.start source) j) :
    j.Kept source := by
  induction h with
  | refl => exact ⟨rfl, by simp [Joint.start]⟩
  | tail _ hnext ih => exact ih.next hnext

theorem BreaksOff.source_eq {source x rest : List Char} {cause : SyntaxCause} {j : Joint}
    (h : BreaksOff source cause j x rest) : source = j.before ++ x ++ rest := by
  rw [(Joint.kept h.reached).source_eq, h.split, List.append_assoc]

end Grammar

namespace Scanner

section
variable {file : Option String} {source : List Char} {s : Scanner} {j : Joint} {k : TokenKind}

/-- An end that lies ahead counts for nothing yet. -/
theorem At.ahead {ends : List (List Char)} {kind : TokenKind} {p t y : List Char}
    (h : s.At file source ends kind p t) (hy : y ≠ []) : s.At file source (ends ++ [p ++ y]) kind p t := by
  have hzero : endsOn [p ++ y] p = 0 := by
    refine endsOn_eq_zero (List.forall_mem_singleton.2 ?_)
    have := List.length_pos_iff.2 hy
    rw [List.length_append]
    omega
  refine ⟨h.next, h.rest, h.source, h.unsplit, h.name, ?_⟩
  rw [h.here, endsOn_add, hzero, Nat.add_zero]

theorem At.step (h : s.At file source j.ends j.kind j.before j.rest) (hj : j.Kept source)
    (hne : s.next ≠ .eof) (hk : (s.next.scan s.cursor).next = .ok k) :
    ∃ j', j.Next j' ∧ (s.after k).At file source j'.ends j'.kind j'.before j'.rest := by
  obtain ⟨ends, kind, p, t⟩ := j
  have hr := (scan_finds_iff hne).1 ⟨hk, rfl, rfl⟩
  obtain ⟨x, hx, -, -⟩ := scan_covers hne (h.next ▸ h.rest ▸ h.name) hk
  generalize (s.next.scan s.cursor).value = v at hr
  generalize (s.next.scan s.cursor).cursor.rest = t' at hr hx
  rw [h.next, h.rest] at hr
  rw [h.rest] at hx
  dsimp only at hx hr h
  subst hx
  have hne' : kind ≠ .eof := h.next ▸ hne
  -- Only a closing tag adds an end. It is counted from where the tag begins, as it lies ahead there.
  by_cases hclose : kind = .directive ∧ k = .content
  · obtain ⟨rfl, rfl⟩ := hclose
    have hr' := hr
    obtain ⟨-, gap, y, hgap, hg, ⟨-, n, rfl, hn⟩ | ⟨hk, -⟩ | ⟨hk, -⟩⟩ := hr'
    · obtain rfl : x = gap ++ '#' :: '>' :: n := List.append_cancel_right (hgap.trans (by simp))
      have hy : gap ++ ['#', '>'] ≠ [] := by simp
      have hp : Passed (ends ++ [p ++ (gap ++ ['#', '>'])]) p [p ++ (gap ++ ['#', '>'])] :=
        ⟨ends, rfl, hj.ends⟩
      have hends := (hp.endsOn_end hy n (by simp)).2
      have hsplit : gap ++ ['#', '>'] ++ n = gap ++ '#' :: '>' :: n := by simp
      rw [hsplit] at hends
      refine ⟨⟨_, .content, _, t'⟩, ⟨_, v, rfl, rfl, hr, ?_⟩, ((h.ahead hy).after hne' hr ?_).2⟩
      · exact (if_pos ⟨rfl, rfl⟩).mpr ⟨gap, n, rfl, hg, hn, rfl⟩
      · rw [hends, Scan.overrun_close gap hn.mem]
    · cases hk
    · cases hk
  · have hopen : kind = .directive → k ≠ .content := fun hd hc => hclose ⟨hd, hc⟩
    have hp : Passed ends p [] := ⟨ends, (List.append_nil ends).symm, hj.ends⟩
    exact ⟨⟨ends, k, _, t'⟩, ⟨x, v, rfl, rfl, hr, if_neg hclose ▸ rfl⟩,
      (h.after hne' hr (hp.endsOn_scan (by simp) hopen)).2⟩

end

/-- A scanner that will fail comes to the place of the fault token by token. -/
theorem breaksOff_of_error {file : Option String} {source : List Char} {f : SyntaxFault} (s : Scanner)
    {j : Joint} (h : s.At file source j.ends j.kind j.before j.rest)
    (hreached : Relation.ReflTransGen Joint.Next (.start source) j) (hf : s.stream.ending = .error f) :
    ∃ j x rest, BreaksOff source f.cause j x rest ∧
      f.location = ((Location.start file).after (j.before ++ x)).addColumns
        (endsOn j.ends (j.before ++ x) + f.cause.overrun : Nat) := by
  by_cases hne : s.next = .eof
  · rw [stream_of_eof hne] at hf
    cases hf
  · cases hk : (s.next.scan s.cursor).next with
    | error f' =>
      rw [stream_of_error hne hk] at hf
      obtain rfl := Except.error.inj hf
      obtain ⟨x, hx⟩ := scan_givesUp (h.next ▸ h.rest ▸ h.name) hk
      have hp : Passed j.ends j.before [] :=
        ⟨j.ends, (List.append_nil j.ends).symm, (Joint.kept hreached).ends⟩
      have hrest := hx.rest
      have hoffends := hx.offends
      rw [h.rest] at hrest
      rw [h.next] at hoffends
      have hunsplit := h.unsplit
      rw [hrest] at hunsplit
      refine ⟨j, x, _, ⟨hreached, hrest, h.next ▸ hoffends⟩, ?_⟩
      rw [hx.place, hx.here, h.here, Location.after_addColumns, Location.addColumns_addColumns,
        ← Location.after_append _ hunsplit.left, hp.endsOn_append (by simp)]
      congr 1
      split <;> simp
    | ok k =>
      rw [stream_of_ok hne hk] at hf
      obtain ⟨j', hnext, h'⟩ := h.step (Joint.kept hreached) hne hk
      exact breaksOff_of_error (s.after k) h' (hreached.tail hnext) hf
termination_by s.size
decreasing_by exact TokenKind.size_scan_lt hne hk

end Scanner

theorem tokenize_error {file : Option String} {text : String} {f : SyntaxFault}
    (h : tokenize file text = .error f) :
    ∃ j x rest, BreaksOff text.toList f.cause j x rest ∧
      f.location = ((Location.start file).after (j.before ++ x)).addColumns
        (endsOn j.ends (j.before ++ x) + f.cause.overrun : Nat) := by
  have hf : (Scanner.ofText file text).stream.ending = .error f := by
    unfold tokenize at h
    cases he : (Scanner.ofText file text).stream.ending with
    | error g => exact congrArg _ (by simpa [he, Except.map] using h)
    | ok eof => simp [he, Except.map] at h
  have hat : (Scanner.ofText file text).At file text.toList [] .content [] text.toList :=
    ⟨rfl, rfl, rfl, unsplit_nil _, by simp, (Location.addColumns_zero _).symm⟩
  exact Scanner.breaksOff_of_error (j := .start text.toList) _ hat .refl hf

/-! ## The fault of a text with its includes -/

namespace Template

/-- The texts that are read for a text, while those named in `active` are: the text itself and, for
each `include` that stands for a text, those that are read for that one. -/
inductive Opens (files : FileTree) (source : IncludeSource) : (active : List String) →
    (file : Option String) → (text : String) → (file' : Option String) → (text' : String) → Prop
  | self {active file text} : Opens files source active file text file text
  | included {active file text d i file' text'} (found : .segment (.directive d) ∈ items file text)
      (named : d.isNamed "include") (stands : included files source active file d = .ok i)
      (within : Opens files source (i.val.name :: active) (some i.val.name) i.val.content file' text') :
      Opens files source active file text file' text'

def syntaxErrors (t : Template) : Diagnostics :=
  t.errors.filter (·.code == "TT1001")

theorem IncludeError.code_ne (e : IncludeError) : e.code ≠ "TT1001" := by
  unfold IncludeError.code
  split <;> decide

section
variable {files : FileTree} {source : IncludeSource} {active : List String} {file : Option String}
  {inside : Bool} {ending : Option SyntaxFault} {t : Template} {is : List Item}
  {r : Template × Option SyntaxFault}

@[simp] theorem syntaxErrors_add (s : Segment) : (t.add inside s).syntaxErrors = t.syntaxErrors := by
  unfold add
  split <;> rfl

@[simp] theorem root_add (s : Segment) : (t.add inside s).root = t.root := by
  unfold add
  split <;> rfl

theorem syntaxErrors_logError {code : String} (h : code ≠ "TT1001") (message : String) (l : Location) :
    (t.logError code message l).syntaxErrors = t.syntaxErrors := by
  simp [syntaxErrors, logError, Diagnostic.error, h]

theorem expand_syntaxErrors (hr : expand files source active file inside ending t is = r) :
    r.1.syntaxErrors = t.syntaxErrors ∧ r.1.root = t.root := by
  subst hr
  fun_induction expand files source active file inside ending t is with
  | case1 => exact ⟨rfl, rfl⟩
  | case2 active file inside ending t l is ih =>
    exact ⟨ih.1.trans (syntaxErrors_logError (by decide) _ _), ih.2⟩
  | case3 active file inside ending t s is ih => simpa using ih
  | case4 active file inside ending t d is hd e he ih =>
    exact ⟨ih.1.trans (syntaxErrors_logError e.code_ne _ _), ih.2⟩
  | case5 active file inside ending t d is hd i hi stream t' f hx ih =>
    rw [hx] at ih
    exact ih
  | case6 active file inside ending t d is hd i hi stream t' hx ih ih' =>
    rw [hx] at ih
    exact ⟨ih'.1.trans ih.1, ih'.2.trans ih.2⟩
  | case7 active file inside ending t d is hd ih => simpa using ih

theorem expand_ne_none (hr : expand files source active file inside ending t is = r) (h : ending ≠ none) :
    r.2 ≠ none := by
  subst hr
  fun_induction expand files source active file inside ending t is with
  | case1 => exact h
  | case2 active file inside ending t l is ih => exact ih h
  | case3 active file inside ending t s is ih => exact ih h
  | case4 active file inside ending t d is hd e he ih => exact ih h
  | case5 active file inside ending t d is hd i hi stream t' f hx ih => simp
  | case6 active file inside ending t d is hd i hi stream t' hx ih ih' => exact ih' h
  | case7 active file inside ending t d is hd ih => exact ih h

/-- What ends an expansion is the fault of a text that was read for it. -/
theorem expand_fault {f : SyntaxFault} (hr : expand files source active file inside ending t is = r)
    (hf : r.2 = some f) : ∀ text, ending = (Scanner.ofText file text).stream.fault? →
    (∀ x ∈ is, x ∈ items file text) →
    ∃ file' text', Opens files source active file text file' text' ∧ tokenize file' text' = .error f := by
  subst hr
  fun_induction expand files source active file inside ending t is with
  | case1 active file inside ending t =>
    intro text he _
    exact ⟨file, text, .self, fault?_eq_some.1 (he.symm.trans hf)⟩
  | case2 active file inside ending t l is ih =>
    exact fun text he hm => ih hf text he fun x hx => hm x (List.mem_cons_of_mem _ hx)
  | case3 active file inside ending t s is ih =>
    exact fun text he hm => ih hf text he fun x hx => hm x (List.mem_cons_of_mem _ hx)
  | case4 active file inside ending t d is hd e he ih =>
    exact fun text he hm => ih hf text he fun x hx => hm x (List.mem_cons_of_mem _ hx)
  | case5 active file inside ending t d is hd i hi stream t' f' hx ih =>
    intro text he hm
    obtain ⟨file', text', ho, hf'⟩ := ih (hx ▸ hf) i.val.content rfl fun _ hx => hx
    exact ⟨file', text', .included (hm _ List.mem_cons_self) hd hi ho, hf'⟩
  | case6 active file inside ending t d is hd i hi stream t' hx ih ih' =>
    exact fun text he hm => ih' hf text he fun x hx => hm x (List.mem_cons_of_mem _ hx)
  | case7 active file inside ending t d is hd ih =>
    exact fun text he hm => ih hf text he fun x hx => hm x (List.mem_cons_of_mem _ hx)

/-- Only the text itself can be without a name. -/
theorem Opens.file_eq {text text' : String} {file' : Option String}
    (h : Opens files source active file text file' text') : file' = file ∨ file'.isSome := by
  induction h with
  | self => exact .inl rfl
  | included _ _ _ _ ih => exact .inr (ih.elim (fun h => h ▸ rfl) id)

end

/-- **Places of faults.** A template whose text has no tokens has exactly one `TT1001` error. It tells
of the one place where a text breaks off, the template's own or an included one. If that text has no
name, the error has no place. Otherwise it names the line, and if no directive tag ends before on
that line and no quote is missing, its place is that of the character that does not belong there, or
of the end of the text. -/
theorem ofText_fault (files : FileTree) (source : IncludeSource) {file : Option String} {text : String}
    {f : SyntaxFault} (h : tokenize file text = .error f) :
    ∃ file' text' cause place j x rest,
      (ofText files source file text).syntaxErrors = [.error "TT1001" cause.message place] ∧
      Opens files source file.toList file text file' text' ∧
      text'.toList = j.before ++ x ++ rest ∧ BreaksOff text'.toList cause j x rest ∧
      (file' = none → place = .empty) ∧
      ∀ name, file' = some name →
        place.file = some name ∧ place.line = ((Location.start file').after (j.before ++ x)).line ∧
        ((∀ c, cause ≠ .unquotedValue c) → (∀ e ∈ j.ends, ¬ endsOnLine (j.before ++ x) e) →
          place = (Location.start file').after (j.before ++ x)) := by
  obtain ⟨t, ending, hx⟩ : ∃ t ending, expand files source file.toList file false
      (Scanner.ofText file text).stream.fault? { root := file } (items file text) = (t, ending) := ⟨_, _, rfl⟩
  obtain ⟨hnone, hroot⟩ := expand_syntaxErrors hx
  obtain ⟨f', rfl⟩ := Option.ne_none_iff_exists'.1 (expand_ne_none hx (by simp [fault?_eq_some.2 h]))
  obtain ⟨file', text', hopens, hf'⟩ := expand_fault hx rfl text rfl fun _ hm => hm
  obtain ⟨j, x, rest, hbreaks, hlocation⟩ := tokenize_error hf'
  have hfile : f'.location.file = file' := by rw [hlocation]; exact Location.file_after _ _
  refine ⟨file', text', f'.cause, t.place f'.location, j, x, rest, ?_, hopens, hbreaks.source_eq, hbreaks,
    ?_, ?_⟩
  · have hone : (t.recordFault f').syntaxErrors =
        t.syntaxErrors ++ [.error "TT1001" f'.cause.message (t.place f'.location)] :=
      List.filter_append _ _
    rw [ofText_expand, hx]
    exact hone.trans (by rw [hnone]; rfl)
  · rintro rfl
    have hroot' : t.root = none := hroot.trans (by simpa [eq_comm] using hopens.file_eq)
    simp [place, hfile, hroot', Location.whole, Location.empty]
  · rintro name rfl
    have hplace : t.place f'.location = f'.location := by simp [place, hfile]
    rw [hplace]
    refine ⟨hfile, by rw [hlocation]; rfl, fun hcause hends => ?_⟩
    have hends' : endsOn j.ends (j.before ++ x) = 0 := List.countP_eq_zero.2 hends
    rw [hlocation, hends', SyntaxCause.overrun_eq_zero hcause]
    exact Location.addColumns_zero _

theorem syntaxErrors_of_items_nil {files : FileTree} {source : IncludeSource} {file : Option String}
    {text : String} {f : SyntaxFault} (h : tokenize file text = .error f) (hi : items file text = []) :
    (ofText files source file text).syntaxErrors =
      [.error "TT1001" f.message (place { root := file } f.location)] := by
  rw [ofText_expand, hi, expand, fault?_eq_some.2 h]
  rfl

/-- The `!` stands at column 9. -/
theorem ofText_fault_stray :
    tokenize (some "t.tt") "<#@ foo ! #>" = .error ⟨.strayCharacter '!', ⟨some "t.tt", 1, 9⟩⟩ ∧
    ∃ (cause : SyntaxCause) (place : Location), (ofText {} .empty (some "t.tt") "<#@ foo ! #>").syntaxErrors =
      [.error "TT1001" cause.message place] ∧ place = ⟨some "t.tt", 1, 9⟩ := by
  have h : tokenize (some "t.tt") "<#@ foo ! #>" = .error ⟨.strayCharacter '!', ⟨some "t.tt", 1, 9⟩⟩ :=
    fault?_eq_some.1 (by cbv)
  have hone := @syntaxErrors_of_items_nil {} .empty _ _ _ h (by cbv)
  obtain ⟨file', text', cause, place, j, x, rest, herrors, -⟩ := ofText_fault {} .empty h
  have hplace := congrArg (List.map (·.location)) (herrors.symm.trans hone)
  exact ⟨h, cause, place, herrors, Option.some.inj (List.cons.inj hplace).1⟩

/-- The end of a text without a name is known, and not told. -/
theorem ofText_fault_nameless :
    tokenize none "<# foo" = .error ⟨.unexpectedEnd, ⟨none, 1, 7⟩⟩ ∧
    (Location.start none).after "<# foo".toList = ⟨none, 1, 7⟩ ∧
    (ofText {} .empty none "<# foo").syntaxErrors = [.error "TT1001" "Unexpected end of file." .empty] ∧
    Location.empty ≠ ⟨none, 1, 7⟩ := by
  have h : tokenize none "<# foo" = .error ⟨.unexpectedEnd, ⟨none, 1, 7⟩⟩ := fault?_eq_some.1 (by cbv)
  exact ⟨h, by cbv, syntaxErrors_of_items_nil h (by cbv), by decide⟩

end Template

end Templating
