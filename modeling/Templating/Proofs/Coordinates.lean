import Mathlib
import Templating.Proofs.Advancing
import Templating.Proofs.Scanning

/-!
# Coordinates of tokens

Every token lies on the line that its place names. The end of a directive tag counts for one column
too many, so a token's column is too large by the number of directive tags that end before it on its
line, and its place is the true one exactly if there is none (`location_eq_iff`).
-/

namespace Templating

open Grammar

/-! ## How far a scan goes -/

/-- A scan that goes from a place over a part of a text to a place so many columns too far. -/
structure Scan.Covers (s : Scan) (l : Location) (cs x : List Char) (n : Int) : Prop where
  rest : cs = x ++ s.cursor.rest
  unsplit : Unsplit x s.cursor.rest
  here : s.cursor.here = (l.after x).addColumns n

theorem not_lineBreak_of_isAlphanumeric {c : Char} (hc : Text.isAlphanumeric c) :
    ¬ (c = '\r' ∨ c = '\n') := by
  rintro (rfl | rfl) <;> exact absurd hc (by decide)

namespace Scan

theorem Covers.cons {s : Scan} {l : Location} {c : Char} {cs x : List Char} {n : Int}
    (h : s.Covers (l.step c) cs x n) (hc : ∀ r, c = '\r' → cs = '\n' :: r → False) :
    s.Covers l (c :: cs) (c :: x) n := by
  have hcut : c = '\r' → x.head? ≠ some '\n' := by
    intro e hx
    obtain ⟨x', rfl⟩ := List.head?_eq_some_iff.1 hx
    exact hc _ e h.rest
  refine ⟨congrArg (c :: ·) h.rest, ?_, by rw [h.here, Location.after_cons hcut]⟩
  cases x with
  | nil =>
    intro e ht
    obtain ⟨t, ht⟩ := List.head?_eq_some_iff.1 ht
    exact hc t (by simpa using e) (h.rest.trans ht)
  | cons y x => exact fun e => h.unsplit (by simpa [List.getLast?_cons] using e)

theorem Covers.char {s : Scan} {l : Location} {c : Char} {cs x : List Char} {n : Int}
    (h : s.Covers l.nextColumn cs x n) (hc : ¬ (c = '\r' ∨ c = '\n')) : s.Covers l (c :: cs) (c :: x) n := by
  rw [← Location.step_of_not_lineBreak l hc] at h
  exact h.cons fun _ e _ => hc (.inl e)

theorem covers_nil {s : Scan} {l : Location} {cs : List Char} (hr : s.cursor.rest = cs)
    (hh : s.cursor.here = l) : s.Covers l cs [] 0 :=
  ⟨hr.symm, unsplit_nil _, hh.trans (Location.addColumns_zero l).symm⟩

theorem Covers.crlf {s : Scan} {l : Location} {cs x : List Char} {n : Int}
    (h : s.Covers l.nextLine cs x n) : s.Covers l ('\r' :: '\n' :: cs) ('\r' :: '\n' :: x) n := by
  refine ⟨congrArg ('\r' :: '\n' :: ·) h.rest, ?_, h.here⟩
  cases x with
  | nil => exact unsplit_of_getLast? rfl (by decide) _
  | cons y x => exact fun e => h.unsplit (by simpa [List.getLast?_cons] using e)

theorem skipLineBreak_covers (c : Cursor) : ∃ n, c.rest = n ++ (skipLineBreak c).rest ∧
    Unsplit n (skipLineBreak c).rest ∧ n ∈ lineBreaks ∧ (skipLineBreak c).here = c.here.after n := by
  unfold skipLineBreak
  split
  · rename_i r hc
    exact ⟨['\r', '\n'], hc, unsplit_of_getLast? rfl (by decide) _, by simp [lineBreaks], rfl⟩
  · rename_i r hr hc
    refine ⟨['\r'], hc, fun _ hn => ?_, by simp [lineBreaks], rfl⟩
    obtain ⟨r', rfl⟩ := List.head?_eq_some_iff.1 hn
    exact hr r' rfl
  · rename_i r hc
    exact ⟨['\n'], hc, unsplit_of_getLast? rfl (by decide) _, by simp [lineBreaks], rfl⟩
  · exact ⟨[], rfl, unsplit_nil _, by simp [lineBreaks], rfl⟩

theorem readContent_covers (read : List Char) (p : Nat) (h l : Location) (cs : List Char) :
    ∃ x, (readContent read p h l cs).Covers h cs x 0 := by
  fun_induction readContent read p h l cs with
  | case1 read p h l => exact ⟨[], covers_nil rfl rfl⟩
  | case2 read p h l r ih =>
    obtain ⟨x, hx⟩ := ih
    exact ⟨_, hx.crlf⟩
  | case3 read p h l k r =>
    have htwo : h.addColumns 2 = h.nextColumn.nextColumn := (Location.addColumns_addColumns h 1 1).symm
    have hthree : h.addColumns 3 = h.nextColumn.nextColumn.nextColumn := by
      rw [← htwo]
      exact (Location.addColumns_addColumns h 2 1).symm
    by_cases hk : opened k = .block
    · exact ⟨_, ((covers_nil (by simp [hk]) (by simp [hk, htwo])).char (by decide)).char (by decide)⟩
    · have hmark : k = '@' ∨ k = '=' ∨ k = '+' := by
        unfold opened at hk
        split at hk <;> simp_all
      have hb : ¬ (k = '\r' ∨ k = '\n') := by rcases hmark with rfl | rfl | rfl <;> decide
      exact ⟨_, (((covers_nil (by simp [hk]) (by simp [hk, hthree])).char hb).char (by decide)).char
        (by decide)⟩
  | case4 read p h l c r hc _ ih =>
    obtain ⟨x, hx⟩ := ih
    exact ⟨_, hx.cons hc⟩

theorem readBody_covers (read : List Char) (p : Nat) (h l : Location) (cs : List Char) :
    ∃ x, (readBody read p h l cs).Covers h cs x 0 := by
  fun_induction readBody read p h l cs with
  | case1 => exact ⟨[], covers_nil rfl rfl⟩
  | case2 read p h l r ih =>
    obtain ⟨x, hx⟩ := ih
    exact ⟨_, hx.crlf⟩
  | case3 read p h l c r _ hc =>
    obtain ⟨rfl, -⟩ := hc
    exact ⟨_, (covers_nil rfl rfl).char (by decide)⟩
  | case4 read p h l c r hcut _ ih =>
    obtain ⟨x, hx⟩ := ih
    exact ⟨_, hx.cons hcut⟩

theorem readBodyAndLineBreak_of_ok {c : Cursor} {k : TokenKind}
    (hk : (readBody [] c.position c.here c.last c.rest).next = .ok k) :
    readBodyAndLineBreak c = { readBody [] c.position c.here c.last c.rest with
      cursor := skipLineBreak (readBody [] c.position c.here c.last c.rest).cursor } := by
  unfold readBodyAndLineBreak
  simp only [hk]

theorem readBodyAndLineBreak_of_error {c : Cursor} {f : SyntaxFault}
    (hf : (readBody [] c.position c.here c.last c.rest).next = .error f) :
    readBodyAndLineBreak c = readBody [] c.position c.here c.last c.rest := by
  unfold readBodyAndLineBreak
  simp only [hf]

theorem readBodyAndLineBreak_covers (c : Cursor) :
    ∃ x, (readBodyAndLineBreak c).Covers c.here c.rest x 0 := by
  obtain ⟨x, hx⟩ := readBody_covers [] c.position c.here c.last c.rest
  cases hs : (readBody [] c.position c.here c.last c.rest).next with
  | error e => exact ⟨x, readBodyAndLineBreak_of_error hs ▸ hx⟩
  | ok k' =>
    obtain ⟨n, hn, hu, -, hh⟩ := skipLineBreak_covers (readBody [] c.position c.here c.last c.rest).cursor
    have hxn := hx.unsplit
    rw [hn] at hxn
    rw [readBodyAndLineBreak_of_ok hs]
    refine ⟨x ++ n, ?_, hxn.append hu, ?_⟩
    · rw [List.append_assoc, ← hn]
      exact hx.rest
    · rw [hh, hx.here, Location.addColumns_zero, Location.addColumns_zero,
        Location.after_append _ hxn.left]

theorem readName_covers (read : List Char) (p : Nat) (h l : Location) (cs : List Char) :
    ∃ x, (readName read p h l cs).Covers h cs x 0 := by
  fun_induction readName read p h l cs with
  | case1 => exact ⟨[], covers_nil rfl rfl⟩
  | case2 read p h c r hc ih =>
    obtain ⟨x, hx⟩ := ih
    exact ⟨_, hx.char (not_lineBreak_of_isAlphanumeric hc)⟩
  | case3 read p h c r hc => exact ⟨[], covers_nil rfl rfl⟩

theorem readNameFrom_covers {c : Cursor} (hc : ∀ x ∈ c.rest.head?, ¬ (x = '\r' ∨ x = '\n')) :
    ∃ x, (readNameFrom c).Covers c.here c.rest x 0 := by
  unfold readNameFrom
  cases hr : c.rest with
  | nil => exact readName_covers _ _ _ _ _
  | cons y r =>
    obtain ⟨x, hx⟩ := readName_covers [y] (c.position + 1) c.here.nextColumn c.last r
    exact ⟨_, hx.char (hc y (by rw [hr]; rfl))⟩

theorem readQuoted_covers {q : Char} (hq : IsQuote q) (read : List Char) (p : Nat) (h l : Location)
    (cs : List Char) : ∃ x, (readQuoted q read p h l cs).Covers h cs x 0 := by
  fun_induction readQuoted q read p h l cs with
  | case1 => exact ⟨[], covers_nil rfl rfl⟩
  | case2 read p h r ih =>
    obtain ⟨x, hx⟩ := ih
    exact ⟨_, hx.crlf⟩
  | case3 read p h r hcut =>
    exact ⟨_, (covers_nil rfl rfl).char (by rcases hq with rfl | rfl <;> decide)⟩
  | case4 read p h c r hcut _ ih =>
    obtain ⟨x, hx⟩ := ih
    exact ⟨_, hx.cons hcut⟩

theorem readValue_covers (p : Nat) (h l : Location) (cs : List Char) {k : TokenKind}
    (hk : (readValue p h l cs).next = .ok k) : ∃ x, (readValue p h l cs).Covers h cs x 0 := by
  fun_induction readValue p h l cs with
  | case1 => cases hk
  | case2 p h r ih =>
    obtain ⟨x, hx⟩ := ih hk
    exact ⟨_, hx.crlf⟩
  | case3 p h c r _ hq =>
    obtain ⟨x, hx⟩ := readQuoted_covers hq [] (p + 1) h.nextColumn l r
    exact ⟨_, hx.char (by rcases hq with rfl | rfl <;> decide)⟩
  | case4 p h c r hcut _ _ ih =>
    obtain ⟨x, hx⟩ := ih hk
    exact ⟨_, hx.cons hcut⟩
  | case5 => cases hk

/-- What the end of a directive adds to the column. -/
def overrun (kind k : TokenKind) (x : List Char) : Nat :=
  if kind = .directive ∧ k = .content ∧ x.getLast? = some '>' then 1 else 0

theorem overrun_cons {c : Char} (hc : c ≠ '>') (kind k : TokenKind) (x : List Char) :
    overrun kind k (c :: x) = overrun kind k x := by
  have hlast : (c :: x).getLast? = some '>' ↔ x.getLast? = some '>' := by
    cases x with
    | nil => simp [hc]
    | cons y x => simp [List.getLast?_cons]
  simp only [overrun, hlast]

theorem overrun_close (gap : List Char) {n : List Char} (hn : n ∈ lineBreaks) :
    overrun .directive .content (gap ++ '#' :: '>' :: n) = if OneLine n then 1 else 0 := by
  have hlast : (gap ++ '#' :: '>' :: n).getLast? = some '>' ↔ OneLine n := by
    simp only [lineBreaks, List.mem_cons, List.not_mem_nil, or_false] at hn
    rcases hn with rfl | rfl | rfl | rfl <;> simp [OneLine]
  simp only [overrun, hlast, true_and]

theorem readDirective_covers (p : Nat) (h l : Location) (cs : List Char) {k : TokenKind}
    (hk : (readDirective p h l cs).next = .ok k) :
    ∃ x, (readDirective p h l cs).Covers h cs x (overrun .directive k x) := by
  fun_induction readDirective p h l cs with
  | case1 => cases hk
  | case2 p h r ih =>
    obtain ⟨x, hx⟩ := ih hk
    rw [← overrun_cons (c := '\n') (by decide), ← overrun_cons (c := '\r') (by decide)] at hx
    exact ⟨_, hx.crlf⟩
  | case3 p h r =>
    obtain rfl := Except.ok.inj hk
    obtain ⟨n, hn, hu, hmem, hh⟩ := skipLineBreak_covers ⟨r, p + 2, h.addColumns 3, l⟩
    -- The two characters of the closing tag are counted as three columns.
    have hthree : h.addColumns 3 = h.nextColumn.nextColumn.addColumns 1 := by
      rw [Location.nextColumn, Location.nextColumn, Location.addColumns_addColumns,
        Location.addColumns_addColumns]
      rfl
    have hclose : overrun .directive .content ('#' :: '>' :: n) = if OneLine n then 1 else 0 :=
      overrun_close [] hmem
    refine ⟨_, (Covers.char (Covers.char (x := n) ⟨hn, hu, ?_⟩ (by decide)) (by decide))⟩
    rw [hclose, hh, hthree, Location.after_addColumns]
    split <;> rfl
  | case4 p h c r hcut _ hc =>
    obtain rfl := Except.ok.inj hk
    exact ⟨[], covers_nil rfl rfl⟩
  | case5 p h r =>
    obtain rfl := Except.ok.inj hk
    exact ⟨_, (covers_nil rfl rfl).char (by decide)⟩
  | case6 p h c r hcut hclose ha he hb ih =>
    obtain ⟨x, hx⟩ := ih hk
    rw [← overrun_cons (c := c) (by rintro rfl; exact absurd hb (by decide))] at hx
    exact ⟨_, hx.cons hcut⟩
  | case7 => cases hk

end Scan

/-- A scan goes over what it reads; only the end of a directive counts for more. -/
theorem scan_covers {kind k : TokenKind} {c : Cursor} (hne : kind ≠ .eof)
    (hname : kind = .directiveName → ∀ x ∈ c.rest.head?, ¬ (x = '\r' ∨ x = '\n'))
    (hk : (kind.scan c).next = .ok k) :
    ∃ x, (kind.scan c).Covers c.here c.rest x (Scan.overrun kind k x) := by
  cases kind with
  | content => exact Scan.readContent_covers _ _ _ _ _
  | expression => exact Scan.readBody_covers _ _ _ _ _
  | block | helper => exact Scan.readBodyAndLineBreak_covers c
  | directive => exact Scan.readDirective_covers _ _ _ _ hk
  | directiveName => exact Scan.readNameFrom_covers (hname rfl)
  | directiveValue => exact Scan.readValue_covers _ _ _ _ hk
  | eof => exact absurd rfl hne

/-! ## Where the tokens of a reading stand -/

/-- Whether a token begins with its text. Literal text, code and the names of directives do. -/
def Token.beginsText (t : Token) : Bool :=
  match t.kind with
  | .content | .expression | .block | .helper | .directiveName => true
  | .directive | .directiveValue | .eof => false

namespace Grammar

/-- A token that begins with its text: what stands before the text in the source, and the text as it
is written there. -/
structure Spot where
  kind : TokenKind
  before : List Char
  written : List Char

/-- The value of a token. A body counts with its escaped closing tags replaced. -/
def Spot.value (p : Spot) : List Char :=
  match p.kind with
  | .expression | .block | .helper => Scan.unescapeTags p.written
  | _ => p.written

theorem Spot.value_token (k : CodeKind) (before r : List Char) :
    Spot.value ⟨k.token, before, r⟩ = Scan.unescapeTags r := by
  cases k <;> rfl

def DirectiveText.spots (before : List Char) : DirectiveText → List Spot
  | close _ => []
  | name gap n rest => ⟨.directiveName, before ++ gap, n⟩ :: rest.spots (before ++ (gap ++ n))
  | value gap inner q text rest =>
    rest.spots (before ++ (gap ++ '=' :: (inner ++ q :: (text ++ [q]))))

namespace Reading

def spots (before : List Char) : Reading → List Spot
  | text c => [⟨.content, before, c⟩]
  | code c k r n rest =>
    let opened := before ++ (c ++ '<' :: '#' :: k.mark)
    ⟨.content, before, c⟩ :: ⟨k.token, opened, r⟩ :: rest.spots (opened ++ (r ++ '#' :: '>' :: n))
  | directive c d n rest =>
    let opened := before ++ (c ++ ['<', '#', '@'])
    ⟨.content, before, c⟩ :: (d.spots opened ++ rest.spots (opened ++ (d.source ++ n)))

/-- For each directive tag, the source up to its end. -/
def directiveEnds (before : List Char) : Reading → List (List Char)
  | text _ => []
  | code c k r n rest =>
    rest.directiveEnds (before ++ (c ++ '<' :: '#' :: k.mark) ++ (r ++ '#' :: '>' :: n))
  | directive c d n rest =>
    let opened := before ++ (c ++ ['<', '#', '@'])
    (opened ++ d.source) :: rest.directiveEnds (opened ++ (d.source ++ n))

end Reading

/-- Whether a part of a source ends on the line where a longer part ends. -/
def endsOnLine (p e : List Char) : Bool :=
  e.isPrefixOf p && decide (OneLine (p.drop e.length))

theorem endsOnLine_append (e x : List Char) : endsOnLine (e ++ x) e ↔ OneLine x := by
  simp [endsOnLine]

/-- How many of some ends lie on the last line of a part of a source. -/
def endsOn (ends : List (List Char)) (p : List Char) : Nat :=
  ends.countP (endsOnLine p)

theorem endsOn_add (a b : List (List Char)) (p : List Char) :
    endsOn (a ++ b) p = endsOn a p + endsOn b p :=
  List.countP_append

/-- The ends that a part of a source has passed, and those still to come. -/
def Passed (ends : List (List Char)) (p : List Char) (later : List (List Char)) : Prop :=
  ∃ earlier, ends = earlier ++ later ∧ ∀ e ∈ earlier, e <+: p

theorem endsOn_eq_zero {ends : List (List Char)} {p : List Char} (h : ∀ e ∈ ends, p.length < e.length) :
    endsOn ends p = 0 := by
  refine List.countP_eq_zero.2 fun e he hp => ?_
  simp only [endsOnLine, Bool.and_eq_true, List.isPrefixOf_iff_prefix] at hp
  have := hp.1.length_le
  have := h e he
  omega

theorem endsOn_append_of_prefix {ends : List (List Char)} {p : List Char} (h : ∀ e ∈ ends, e <+: p)
    (x : List Char) : endsOn ends (p ++ x) = if OneLine x then endsOn ends p else 0 := by
  have hmem : ∀ e ∈ ends, endsOnLine (p ++ x) e = true ↔ endsOnLine p e = true ∧ OneLine x := by
    intro e he
    obtain ⟨y, rfl⟩ := h e he
    rw [List.append_assoc, endsOnLine_append, endsOnLine_append, oneLine_append]
  by_cases hx : OneLine x
  · rw [if_pos hx]
    exact List.countP_congr fun e he => (hmem e he).trans (and_iff_left hx)
  · rw [if_neg hx]
    exact List.countP_eq_zero.2 fun e he hp => hx ((hmem e he).1 hp).2

theorem Passed.append {ends later : List (List Char)} {p : List Char} (h : Passed ends p later)
    (x : List Char) : Passed ends (p ++ x) later := by
  obtain ⟨earlier, rfl, hp⟩ := h
  exact ⟨earlier, rfl, fun e he => (hp e he).trans (List.prefix_append p x)⟩

theorem Passed.endsOn_append {ends later : List (List Char)} {p x : List Char} (h : Passed ends p later)
    (hlater : ∀ e ∈ later, (p ++ x).length < e.length) :
    endsOn ends (p ++ x) = if OneLine x then endsOn ends p else 0 := by
  obtain ⟨earlier, rfl, hp⟩ := h
  have hzero : endsOn later (p ++ x) = 0 := endsOn_eq_zero hlater
  have hzero' : endsOn later p = 0 := by
    refine endsOn_eq_zero fun e he => ?_
    have := hlater e he
    rw [List.length_append] at this
    omega
  rw [endsOn_add, endsOn_add, hzero, hzero', endsOn_append_of_prefix hp, Nat.add_zero, Nat.add_zero]

theorem Passed.endsOn_scan {ends later : List (List Char)} {p x : List Char} {kind k : TokenKind}
    (h : Passed ends p later) (hlater : ∀ e ∈ later, (p ++ x).length < e.length)
    (hk : kind = .directive → k ≠ .content) :
    endsOn ends (p ++ x) = (if OneLine x then endsOn ends p else 0) + Scan.overrun kind k x := by
  have hzero : Scan.overrun kind k x = 0 := if_neg fun hk' => hk hk'.1 hk'.2.1
  rw [h.endsOn_append hlater, hzero, Nat.add_zero]

theorem Passed.endsOn_end {ends later : List (List Char)} {p y : List Char} (hy : y ≠ [])
    (h : Passed ends p ((p ++ y) :: later)) (n : List Char)
    (hlater : ∀ e ∈ later, (p ++ (y ++ n)).length < e.length) :
    Passed ends (p ++ (y ++ n)) later ∧ endsOn ends (p ++ (y ++ n)) =
      (if OneLine (y ++ n) then endsOn ends p else 0) + if OneLine n then 1 else 0 := by
  have hlen := List.length_pos_iff.2 hy
  have hzero : endsOn later (p ++ (y ++ n)) = 0 := endsOn_eq_zero hlater
  have hzero' : endsOn ((p ++ y) :: later) p = 0 := by
    refine endsOn_eq_zero fun e he => ?_
    rcases List.mem_cons.1 he with rfl | he
    · rw [List.length_append]
      omega
    · have := hlater e he
      simp only [List.length_append] at this
      omega
  have hone : endsOn ((p ++ y) :: later) (p ++ (y ++ n)) = if OneLine n then 1 else 0 := by
    have hend := endsOnLine_append (p ++ y) n
    rw [List.append_assoc] at hend
    rw [endsOn, List.countP_cons, ← endsOn, hzero, Nat.zero_add]
    exact if_congr hend rfl rfl
  obtain ⟨earlier, rfl, hp⟩ := h
  have hsnoc : earlier ++ (p ++ y) :: later = earlier ++ [p ++ y] ++ later := by simp
  refine ⟨⟨earlier ++ [p ++ y], hsnoc, ?_⟩, ?_⟩
  · intro e he
    rcases List.mem_append.1 he with he | he
    · exact (hp e he).trans (List.prefix_append p _)
    · obtain rfl := List.mem_singleton.1 he
      exact ⟨n, List.append_assoc p y n⟩
  · rw [endsOn_add, endsOn_add, hone, hzero', endsOn_append_of_prefix hp, Nat.add_zero]

theorem Reading.length_lt_of_mem_directiveEnds {ρ : Reading} : ∀ {p e : List Char},
    e ∈ ρ.directiveEnds p → p.length < e.length := by
  induction ρ with
  | text c =>
    intro p e he
    cases he
  | code c k r n rest ih =>
    intro p e he
    have := ih he
    simp only [List.length_append, List.length_cons] at this
    omega
  | directive c d n rest ih =>
    intro p e he
    rcases List.mem_cons.1 he with rfl | he
    · simp only [List.length_append, List.length_cons]
      omega
    · have := ih he
      simp only [List.length_append, List.length_cons] at this
      omega

theorem Reads.letter {kind : TokenKind} {cs t : List Char} {v : Option (List Char)}
    (h : Reads kind cs .directiveName v t) : ∃ c ∈ t.head?, Text.isAlphabetic c := by
  cases kind with
  | content =>
    rcases h with ⟨hk, -⟩ | ⟨x, r, c, -, -, hk, -⟩
    · cases hk
    · unfold Scan.opened at hk
      split at hk <;> cases hk
  | expression | block | helper | directiveName | directiveValue => cases h.1
  | directive =>
    obtain ⟨-, gap, y, -, -, ⟨hk, -⟩ | ⟨-, -, hc⟩ | ⟨hk, -⟩⟩ := h
    · cases hk
    · exact hc
    · cases hk
  | eof => exact h.elim

theorem Reads.head_isAlphabetic {kind : TokenKind} {cs t : List Char} {v : Option (List Char)}
    (h : Reads kind cs .directiveName v t) : ∀ c ∈ t.head?, Text.isAlphabetic c := by
  obtain ⟨c, hc, ha⟩ := h.letter
  intro x hx
  exact Option.some.inj (hc.symm.trans hx) ▸ ha

theorem not_lineBreak_of_isAlphabetic {c : Char} (hc : Text.isAlphabetic c) : ¬ (c = '\r' ∨ c = '\n') :=
  not_lineBreak_of_isAlphanumeric (by simp [Text.isAlphanumeric, hc])

theorem Reads.name_head {kind : TokenKind} {cs t : List Char} {v : Option (List Char)}
    (h : Reads kind cs .directiveName v t) : ∀ c ∈ t.head?, ¬ (c = '\r' ∨ c = '\n') :=
  fun c hc => not_lineBreak_of_isAlphabetic (h.head_isAlphabetic c hc)

end Grammar

/-! ## Runs of scans keep the place -/

/-- A token and the spot where its text stands. The ends are those of the directive tags. -/
structure Stands (file : Option String) (source : List Char) (ends : List (List Char)) (t : Token)
    (p : Spot) : Prop where
  kind : t.kind = p.kind
  value : t.value = some (String.ofList p.value)
  written : p.before ++ p.written <+: source
  location : t.location = ((Location.start file).after p.before).addColumns (endsOn ends p.before)

namespace Scanner

/-- The tokens from here on that begin with their text stand where some spots say. -/
def Lists (file : Option String) (source : List Char) (ends : List (List Char)) (s : Scanner)
    (ps : List Spot) : Prop :=
  List.Forall₂ (Stands file source ends) (s.stream.tokens.filter Token.beginsText) ps

/-- A scanner between two parts of a source, about to read a token of a kind. -/
structure At (file : Option String) (source : List Char) (ends : List (List Char)) (kind : TokenKind)
    (p t : List Char) (s : Scanner) : Prop where
  next : s.next = kind
  rest : s.cursor.rest = t
  source : source = p ++ t
  unsplit : Unsplit p t
  name : kind = .directiveName → ∀ c ∈ t.head?, ¬ (c = '\r' ∨ c = '\n')
  here : s.cursor.here = ((Location.start file).after p).addColumns (endsOn ends p)

section
variable {file : Option String} {source : List Char} {ends later : List (List Char)} {p x t : List Char}
  {s : Scanner} {kind k : TokenKind} {v : Option (List Char)} {ps : List Spot}

theorem At.after (h : s.At file source ends kind p (x ++ t)) (hne : kind ≠ .eof)
    (hr : Reads kind (x ++ t) k v t)
    (hends : endsOn ends (p ++ x) = (if OneLine x then endsOn ends p else 0) + Scan.overrun kind k x) :
    (s.next.scan s.cursor).Finds k v t ∧ (s.after k).At file source ends k (p ++ x) t := by
  obtain ⟨rfl, hrest, hsource, hunsplit, hname, hhere⟩ := h
  have hf := (scan_finds_iff hne).2 (hrest ▸ hr)
  obtain ⟨x', hr', hu, hh⟩ := scan_covers hne (hrest ▸ hname) hf.next
  rw [hf.rest] at hr' hu
  obtain rfl : x = x' := List.append_cancel_right (hrest.symm.trans hr')
  refine ⟨hf, rfl, hf.rest, by rw [hsource, List.append_assoc], hunsplit.append hu, ?_, ?_⟩
  · rintro rfl
    exact hr.name_head
  · show (s.next.scan s.cursor).cursor.here = _
    rw [hh, hhere, Location.after_addColumns, Location.addColumns_addColumns,
      ← Location.after_append _ hunsplit.left, hends]
    congr 1
    split <;> simp

theorem lists_of_eof (h : s.At file source ends .eof p t) : s.Lists file source ends [] := by
  rw [Lists, stream_of_eof h.next]
  exact .nil

theorem At.skip (h : s.At file source ends kind p (x ++ t))
    (hkind : kind = .directive ∨ kind = .directiveValue) (hr : Reads kind (x ++ t) k v t)
    (hends : endsOn ends (p ++ x) = (if OneLine x then endsOn ends p else 0) + Scan.overrun kind k x)
    (hrest : ∀ {s : Scanner}, s.At file source ends k (p ++ x) t → s.Lists file source ends ps) :
    s.Lists file source ends ps := by
  have hne : kind ≠ .eof := by rcases hkind with rfl | rfl <;> decide
  obtain ⟨hf, hafter⟩ := h.after hne hr hends
  have hb : ¬ (s.after k).token.beginsText := by
    have hk : (s.after k).token.kind = kind := h.next
    rcases hkind with rfl | rfl <;> simp [Token.beginsText, hk]
  rw [Lists, stream_of_ok (h.next ▸ hne) hf.next, List.filter_cons_of_neg hb]
  exact hrest hafter

theorem At.cons (h : s.At file source ends kind p (x ++ t)) {w : List Char} (hw : w <+: x)
    (hkind : kind ≠ .eof ∧ kind ≠ .directive ∧ kind ≠ .directiveValue)
    (hr : Reads kind (x ++ t) k (some (Spot.value ⟨kind, p, w⟩)) t)
    (hends : endsOn ends (p ++ x) = (if OneLine x then endsOn ends p else 0) + Scan.overrun kind k x)
    (hrest : ∀ {s : Scanner}, s.At file source ends k (p ++ x) t → s.Lists file source ends ps) :
    s.Lists file source ends (⟨kind, p, w⟩ :: ps) := by
  obtain ⟨hf, hafter⟩ := h.after hkind.1 hr hends
  have hk : (s.after k).token.kind = kind := h.next
  have hb : (s.after k).token.beginsText := by
    unfold Token.beginsText
    rw [hk]
    cases kind <;> simp_all
  rw [Lists, stream_of_ok (h.next ▸ hkind.1) hf.next, List.filter_cons_of_pos hb]
  refine .cons ⟨hk, ?_, ?_, h.here⟩ (hrest hafter)
  · show (s.next.scan s.cursor).value.map String.ofList = _
    rw [hf.value]
    rfl
  · rw [h.source]
    exact (List.prefix_append_right_inj p).2 (hw.trans (List.prefix_append x t))

/-- From inside a directive to what follows it: `e` is the source up to its end. -/
theorem lists_directive {e n y : List Char} (hn : IsLineBreak n y)
    (hlater : ∀ e' ∈ later, (e ++ n).length < e'.length)
    (hrest : ∀ {s : Scanner}, s.At file source ends .content (e ++ n) y → Passed ends (e ++ n) later →
      s.Lists file source ends ps) :
    ∀ {d : DirectiveText} {p : List Char} {s : Scanner}, d.Valid → e = p ++ d.source →
      Passed ends p (e :: later) → s.At file source ends .directive p (d.source ++ (n ++ y)) →
      s.Lists file source ends (d.spots p ++ ps) := by
  -- Before the directive closes, none of the ends has been passed.
  have hahead : ∀ {p x z : List Char}, e = p ++ (x ++ z) → z ≠ [] →
      ∀ e' ∈ e :: later, (p ++ x).length < e'.length := by
    intro p x z he hz e' he'
    have hlen := List.length_pos_iff.2 hz
    rcases List.mem_cons.1 he' with rfl | he'
    · rw [he]
      simp only [List.length_append]
      omega
    · have := hlater e' he'
      rw [he] at this
      simp only [List.length_append] at this ⊢
      omega
  intro d
  induction d with
  | close gap =>
    intro p s hd he hp h
    have hx : (DirectiveText.close gap).source ++ (n ++ y) = (gap ++ '#' :: '>' :: n) ++ y := by
      simp [DirectiveText.source]
    have hsplit : gap ++ '#' :: '>' :: n = (gap ++ ['#', '>']) ++ n := by simp
    have hen : e ++ n = p ++ (gap ++ '#' :: '>' :: n) := by simp [he, DirectiveText.source]
    have hr : Reads .directive ((gap ++ '#' :: '>' :: n) ++ y) .content none y := by
      simpa using reads_close hd hn
    obtain ⟨hpass, hends⟩ := Passed.endsOn_end (DirectiveText.source_ne_nil _) (he ▸ hp) n
      (by simpa [he] using hlater)
    rw [hx] at h
    rw [hen] at hrest
    refine h.skip (.inl rfl) hr ?_ fun h' => hrest h' ?_
    · rw [Scan.overrun_close gap hn.mem, hsplit]
      exact hends
    · rw [hsplit]
      exact hpass
  | name gap m d ih =>
    intro p s hd he hp h
    obtain ⟨hgap, hm, hd⟩ := hd
    have he' : e = p ++ gap ++ (m ++ d.source) := by simp [he, DirectiveText.source]
    have hne : m ++ d.source ≠ [] := by simp [d.source_ne_nil]
    simp only [DirectiveText.source, List.append_assoc gap, List.append_assoc m] at h
    refine h.skip (.inl rfl) (reads_gap_name hgap hm)
      (hp.endsOn_scan (hahead (by simpa using he') hne) (by simp)) fun h' => ?_
    refine h'.cons List.prefix_rfl (by simp) (reads_name hm)
      ((hp.append gap).endsOn_scan (hahead he' d.source_ne_nil) (by simp)) fun h'' => ?_
    rw [List.append_assoc] at h''
    exact ih hd (by simpa using he') (hp.append _) h''
  | value gap inner q text d ih =>
    intro p s hd he hp h
    obtain ⟨hgap, hi, hq, ht, hd⟩ := hd
    have hgapR : Reads .directive ((gap ++ ['=']) ++ (inner ++ q :: (text ++ [q]) ++ (d.source ++ (n ++ y))))
        .directiveValue none (inner ++ q :: (text ++ [q]) ++ (d.source ++ (n ++ y))) := by
      simpa using reads_gap_value hgap (inner ++ q :: (text ++ [q]) ++ (d.source ++ (n ++ y)))
    have hvalue : Reads .directiveValue (inner ++ q :: (text ++ [q]) ++ (d.source ++ (n ++ y))) .directive
        (some text) (d.source ++ (n ++ y)) := by
      simpa using reads_value hi hq ht (d.source ++ (n ++ y))
    have he' : e = p ++ (gap ++ ['=']) ++ (inner ++ q :: (text ++ [q]) ++ d.source) := by
      simp [he, DirectiveText.source]
    have hx : (DirectiveText.value gap inner q text d).source ++ (n ++ y) =
        (gap ++ ['=']) ++ (inner ++ q :: (text ++ [q]) ++ (d.source ++ (n ++ y))) := by
      simp [DirectiveText.source]
    rw [hx] at h
    refine h.skip (.inl rfl) hgapR (hp.endsOn_scan (hahead (by simpa using he') (by simp)) (by simp))
      fun h' => ?_
    refine h'.skip (.inr rfl) hvalue
      ((hp.append _).endsOn_scan (hahead he' d.source_ne_nil) (by simp)) fun h'' => ?_
    have hafter : p ++ (gap ++ ['=']) ++ (inner ++ q :: (text ++ [q])) =
        p ++ (gap ++ '=' :: (inner ++ q :: (text ++ [q]))) := by simp
    rw [hafter] at h''
    exact ih hd (by simpa using he') (hp.append _) h''

theorem lists_of_reading : ∀ {ρ : Reading} {p : List Char} {s : Scanner}, ρ.Valid →
    Passed ends p (ρ.directiveEnds p) → s.At file source ends .content p ρ.source →
    s.Lists file source ends (ρ.spots p) := by
  intro ρ
  induction ρ with
  | text c =>
    intro p s hc hp h
    have hr : Reads .content (c ++ []) .eof (some c) [] :=
      .inl ⟨rfl, by rw [List.append_nil]; exact hc, by rw [List.append_nil], rfl⟩
    have hs : (Reading.text c).source = c ++ [] := (List.append_nil c).symm
    rw [hs] at h
    exact h.cons List.prefix_rfl (by simp) hr (hp.endsOn_scan (by simp [Reading.directiveEnds]) (by simp))
      lists_of_eof
  | code c k r n rest ih =>
    intro p s hv hp h
    obtain ⟨hc, hk, hr, hn, hrest⟩ := hv
    have hopen : Reads .content ((c ++ '<' :: '#' :: k.mark) ++ ((r ++ '#' :: '>' :: n) ++ rest.source))
        k.token (some c) ((r ++ '#' :: '>' :: n) ++ rest.source) := by
      simpa using reads_tag (y := '>' :: (n ++ rest.source)) hc hk
    have hbody : Reads k.token ((r ++ '#' :: '>' :: n) ++ rest.source) .content
        (some (Spot.value ⟨k.token, p ++ (c ++ '<' :: '#' :: k.mark), r⟩)) rest.source :=
      (reads_code_iff k).2 ⟨rfl, r, n, by simp, hr, hn, congrArg some (Spot.value_token k _ r)⟩
    have hkind : k.token ≠ .eof ∧ k.token ≠ .directive ∧ k.token ≠ .directiveValue := by
      cases k <;> decide
    have hs : (Reading.code c k r n rest).source =
        (c ++ '<' :: '#' :: k.mark) ++ ((r ++ '#' :: '>' :: n) ++ rest.source) := by
      simp [Reading.source]
    rw [hs] at h
    have hlater {e : List Char} (he : e ∈ rest.directiveEnds
        (p ++ (c ++ '<' :: '#' :: k.mark) ++ (r ++ '#' :: '>' :: n))) :=
      Reading.length_lt_of_mem_directiveEnds he
    refine h.cons (List.prefix_append c _) (by simp) hopen (hp.endsOn_scan ?_ (by simp)) fun h' => ?_
    · intro e he
      have := hlater he
      rw [List.length_append] at this
      omega
    · exact h'.cons (List.prefix_append r _) hkind hbody
        ((hp.append _).endsOn_scan (fun _ => hlater) fun hd => absurd hd hkind.2.1) fun h'' =>
          ih hrest ((hp.append _).append _) h''
  | directive c d n rest ih =>
    intro p s hv hp h
    obtain ⟨hc, hd, hn, hrest⟩ := hv
    have hopen : Reads .content ((c ++ ['<', '#', '@']) ++ (d.source ++ (n ++ rest.source))) .directive
        (some c) (d.source ++ (n ++ rest.source)) := by
      simpa using reads_directive_tag hc (d.source ++ (n ++ rest.source))
    have hs : (Reading.directive c d n rest).source =
        (c ++ ['<', '#', '@']) ++ (d.source ++ (n ++ rest.source)) := by
      simp [Reading.source]
    have hlater {e : List Char} (he : e ∈ rest.directiveEnds
        (p ++ (c ++ ['<', '#', '@']) ++ (d.source ++ n))) := Reading.length_lt_of_mem_directiveEnds he
    rw [hs] at h
    refine h.cons (List.prefix_append c _) (by simp) hopen (hp.endsOn_scan ?_ (by simp)) fun h' => ?_
    · intro e he
      rcases List.mem_cons.1 he with rfl | he
      · have := List.length_pos_iff.2 d.source_ne_nil
        simp only [List.length_append] at this ⊢
        omega
      · have := hlater he
        simp only [List.length_append] at this ⊢
        omega
    · refine lists_directive hn ?_ (fun h'' hp'' => ?_) hd rfl (hp.append _) h'
      · intro e he
        simpa using hlater he
      · rw [List.append_assoc _ d.source] at h'' hp''
        exact ih hrest hp'' h''

end

end Scanner

theorem Grammar.Run.getLast? {kind : TokenKind} {cs : List Char} {fs : List (TokenKind × Option String)}
    (h : Run kind cs fs) : fs.getLast? = some (.eof, none) := by
  induction h with
  | eof => rfl
  | step _ _ ih => rw [List.getLast?_cons, ih]; rfl

theorem tokenize_ok {file : Option String} {text : String} {ts : List Token}
    (h : tokenize file text = .ok ts) : ∃ eof, ts = (Scanner.ofText file text).stream.tokens ++ [eof] ∧
      Run .content text.toList (ts.map Token.face) ∧ eof.kind = .eof := by
  have hrun := run_of_faces? _ (tokenize_faces.1 ⟨ts, h, rfl⟩)
  unfold tokenize at h
  cases he : (Scanner.ofText file text).stream.ending with
  | error f => simp [he, Except.map] at h
  | ok eof =>
    obtain rfl : _ = ts := by simpa [he, Except.map] using h
    refine ⟨eof, rfl, hrun, ?_⟩
    have hlast := hrun.getLast?
    rw [List.map_append, List.map_singleton, List.getLast?_concat] at hlast
    exact congrArg Prod.fst (Option.some.inj hlast)

def directiveThenText : Reading :=
  .directive [] (.name [' '] ['a'] (.close [' '])) [] (.text ['x'])

theorem directiveThenText_valid : directiveThenText.Valid := by
  have hname : IsName ['a'] (DirectiveText.close [' ']).source := by
    refine ⟨⟨'a', [], rfl, by decide⟩, List.forall_mem_singleton.2 (by decide), ?_⟩
    rintro c ⟨⟩
    decide
  have hbreak : IsLineBreak [] ['x'] := ⟨by decide, by decide⟩
  have hblank : Blanks [' '] := by simp [Blanks]; decide
  have htext : NoTag ['x'] := by simp [NoTag, List.infix_cons_iff]
  exact ⟨by simp [NoOpening], ⟨hblank, hname, hblank⟩, hbreak, htext⟩

/-- **Places of tokens.** Literal text, code and the names of directives lie on the lines they are
written on, one column too far for each directive tag that ends before them on their line. So the
place of such a token is that of its first character exactly if no directive tag ends before it on
its line. -/
theorem location_eq_iff {file : Option String} {text : String} {ts : List Token}
    (h : tokenize file text = .ok ts) :
    ∃ ρ : Reading, ρ.Valid ∧ ρ.source = text.toList ∧ ρ.faces = ts.map Token.face ∧
      List.Forall₂ (fun t p => Stands file text.toList (ρ.directiveEnds []) t p ∧
          (t.location = (Location.start file).after p.before ↔
            ∀ e ∈ ρ.directiveEnds [], ¬ endsOnLine p.before e))
        (ts.filter Token.beginsText) (ρ.spots []) := by
  obtain ⟨eof, hts, hrun, hkind⟩ := tokenize_ok h
  obtain ⟨ρ, hρ, hsource, hfaces⟩ := run_content_iff.1 hrun
  have hat : (Scanner.ofText file text).At file text.toList (ρ.directiveEnds []) .content [] ρ.source := by
    refine ⟨rfl, hsource.symm, hsource.symm, unsplit_nil _, nofun, ?_⟩
    rw [endsOn_eq_zero fun e he => Reading.length_lt_of_mem_directiveEnds he]
    exact (Location.addColumns_zero _).symm
  have hpassed : Passed (ρ.directiveEnds []) [] (ρ.directiveEnds []) := ⟨[], rfl, nofun⟩
  have hlists := Scanner.lists_of_reading hρ hpassed hat
  have hfilter : ts.filter Token.beginsText =
      (Scanner.ofText file text).stream.tokens.filter Token.beginsText := by
    rw [hts, List.filter_append, List.filter_cons_of_neg (by simp [Token.beginsText, hkind])]
    simp
  refine ⟨ρ, hρ, hsource, hfaces, hfilter ▸ hlists.imp fun t p hp => ⟨hp, ?_⟩⟩
  rw [hp.location, Location.addColumns_eq_self_iff, endsOn, List.countP_eq_zero]

/-- The text after a directive stands at column 9, and its token has column 10. -/
theorem location_eq_iff_directiveThenText : ∃ ts, tokenize none "<#@ a #>x" = .ok ts ∧
    (ts.filter Token.beginsText).map Token.location = [⟨none, 1, 1⟩, ⟨none, 1, 5⟩, ⟨none, 1, 10⟩] ∧
    (directiveThenText.spots []).map (fun p => (Location.start none).after p.before) =
      [⟨none, 1, 1⟩, ⟨none, 1, 5⟩, ⟨none, 1, 9⟩] ∧
    List.Forall₂ (fun t p => t.location = (Location.start none).after p.before ↔
        ∀ e ∈ directiveThenText.directiveEnds [], ¬ endsOnLine p.before e)
      (ts.filter Token.beginsText) (directiveThenText.spots []) := by
  obtain ⟨ts, hts⟩ : ∃ ts, tokenize none "<#@ a #>x" = .ok ts :=
    (tokenize_faces.2 (faces?_eq_some_of_run (run_of_valid directiveThenText_valid) _ rfl rfl)).imp
      fun _ h => h.1
  have hplaces : (tokenize none "<#@ a #>x").toOption.map
      (fun ts => (ts.filter Token.beginsText).map Token.location) = some [⟨none, 1, 1⟩, ⟨none, 1, 5⟩, ⟨none, 1, 10⟩] := by cbv
  rw [hts] at hplaces
  obtain ⟨ρ, hρ, hsource, -, hlists⟩ := location_eq_iff hts
  obtain rfl := Reading.eq_of_source hρ directiveThenText_valid hsource
  exact ⟨ts, hts, Option.some.inj hplaces, rfl, hlists.imp fun _ _ h => h.2⟩

end Templating
