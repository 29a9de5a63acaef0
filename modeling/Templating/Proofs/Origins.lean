import Mathlib
import Templating.Template

/-!
# Where segments come from

What each token keeps true of an open directive, and gives of segments, holds of all segments of a text
(`Carries.segments`). A scanner does not leave the file that it begins in, so every segment of a text has its
places in the file of that text (`segment_within`).
-/

namespace Templating

variable {file : Option String}

/-! ## Places in a file -/

namespace Location

variable {l : Location}

/-- The place is in this file. -/
def Within (file : Option String) (l : Location) : Prop :=
  l.file = file

theorem Within.nextLine (h : Within file l) : Within file l.nextLine := h

theorem Within.addColumns (h : Within file l) (n : Int) : Within file (l.addColumns n) := h

theorem Within.nextColumn (h : Within file l) : Within file l.nextColumn := h

theorem Within.step (h : Within file l) (c : Char) : Within file (l.step c) := by
  unfold Location.step
  split
  · exact h.nextLine
  · exact h.nextColumn

end Location

/-! ## Scanning -/

/-- A cursor whose places are in this file. -/
structure Cursor.Within (file : Option String) (c : Cursor) : Prop where
  here : c.here.Within file
  last : c.last.Within file

/-- A scan whose places are in this file. -/
structure Scan.Within (file : Option String) (s : Scan) : Prop where
  cursor : s.cursor.Within file
  tagEnd : ∀ l ∈ s.tagEnd, l.Within file

namespace Scan

variable {here last : Location} (hhere : here.Within file) (hlast : last.Within file)

theorem within_skipLineBreak {c : Cursor} (h : c.Within file) : (skipLineBreak c).Within file := by
  unfold skipLineBreak
  split
  · exact ⟨h.here.nextLine, h.last⟩
  · exact ⟨h.here.nextLine, h.last⟩
  · exact ⟨h.here.nextLine, h.last⟩
  · exact h

section
include hhere hlast

theorem within_readContent (read : List Char) (p : Nat) (cs : List Char) :
    (readContent read p here last cs).Within file := by
  fun_induction readContent read p here last cs with
  | case1 => exact ⟨⟨hhere, hlast⟩, by simp⟩
  | case2 read p here last r ih => exact ih hhere.nextLine hhere
  | case3 read p here last k r =>
    refine ⟨?_, by simpa using hhere.nextColumn⟩
    dsimp only
    split
    · exact ⟨hhere.addColumns 2, hhere⟩
    · exact ⟨hhere.addColumns 3, hhere⟩
  | case4 read p here last c r _ _ ih => exact ih (hhere.step c) hhere

theorem within_readBody (read : List Char) (p : Nat) (cs : List Char) :
    (readBody read p here last cs).Within file := by
  fun_induction readBody read p here last cs with
  | case1 => exact ⟨⟨hhere, hlast⟩, by simp⟩
  | case2 read p here last r ih => exact ih hhere.nextLine hhere
  | case3 read p here last c r => exact ⟨⟨hhere.nextColumn, hhere⟩, by simpa using hhere.nextColumn⟩
  | case4 read p here last c r _ _ ih => exact ih (hhere.step c) hhere

theorem within_readDirective (p : Nat) (cs : List Char) : (readDirective p here last cs).Within file := by
  fun_induction readDirective p here last cs with
  | case1 => exact ⟨⟨hhere, hlast⟩, by simp⟩
  | case2 p here r ih => exact ih hhere.nextLine
  | case3 p here r =>
    exact ⟨within_skipLineBreak ⟨hhere.addColumns 3, hlast⟩, by simpa using hhere.addColumns 2⟩
  | case4 => exact ⟨⟨hhere, hlast⟩, by simp⟩
  | case5 => exact ⟨⟨hhere.nextColumn, hlast⟩, by simp⟩
  | case6 p here c r _ _ _ _ _ ih => exact ih (hhere.step c)
  | case7 => exact ⟨⟨hhere, hlast⟩, by simp⟩

theorem within_readName (read : List Char) (p : Nat) (cs : List Char) :
    (readName read p here last cs).Within file := by
  fun_induction readName read p here last cs with
  | case1 => exact ⟨⟨hhere, hlast⟩, by simp⟩
  | case2 read p here c r _ ih => exact ih hhere.nextColumn
  | case3 => exact ⟨⟨hhere, hlast⟩, by simp⟩

theorem within_readQuoted (q : Char) (read : List Char) (p : Nat) (cs : List Char) :
    (readQuoted q read p here last cs).Within file := by
  fun_induction readQuoted q read p here last cs with
  | case1 => exact ⟨⟨hhere, hlast⟩, by simp⟩
  | case2 read p here r ih => exact ih hhere.nextLine
  | case3 => exact ⟨⟨hhere.nextColumn, hlast⟩, by simp⟩
  | case4 read p here c r _ _ ih => exact ih (hhere.step c)

theorem within_readValue (p : Nat) (cs : List Char) : (readValue p here last cs).Within file := by
  fun_induction readValue p here last cs with
  | case1 => exact ⟨⟨hhere, hlast⟩, by simp⟩
  | case2 p here r ih => exact ih hhere.nextLine
  | case3 p here c r => exact within_readQuoted hhere.nextColumn hlast ..
  | case4 p here c r _ _ _ ih => exact ih (hhere.step c)
  | case5 => exact ⟨⟨hhere.nextColumn, hlast⟩, by simp⟩

end

theorem within_scan {c : Cursor} (h : c.Within file) (kind : TokenKind) : (kind.scan c).Within file := by
  have hbody := within_readBody h.here h.last [] c.position c.rest
  cases kind with
  | content => exact within_readContent h.here h.last ..
  | expression => exact hbody
  | block | helper =>
    show (readBodyAndLineBreak c).Within file
    unfold readBodyAndLineBreak
    dsimp only
    split
    · exact ⟨within_skipLineBreak hbody.cursor, hbody.tagEnd⟩
    · exact hbody
  | directive => exact within_readDirective h.here h.last ..
  | directiveName =>
    show (readNameFrom c).Within file
    unfold readNameFrom
    split
    · exact within_readName h.here h.last ..
    · exact within_readName h.here.nextColumn h.last ..
  | directiveValue => exact within_readValue h.here h.last ..
  | eof => exact ⟨h, by simp [TokenKind.scan]⟩

end Scan

/-! ## Items -/

namespace Item

variable {P : Segment → Prop} {Q : Opened → Prop} {t : Token} {ts : List Token}

/-- All along some tokens, what is known of a directive has one property, and every segment has another. -/
structure Carries (P : Segment → Prop) (Q : Opened → Prop) (ts : List Token) : Prop where
  text : ∀ t ∈ ts, ∀ kind, t.kind.segmentKind? = some kind → ∀ s, .segment s ∈ ofText kind t → P s
  opening : Q {}
  name : ∀ t ∈ ts, ∀ o, Q o → Q (o.name t)
  value : ∀ t ∈ ts, ∀ o, Q o → Q (o.value t).1
  between : ∀ t ∈ ts, ∀ o, Q o → Q (o.between t)
  close : ∀ o, Q o → ∀ s, .segment s ∈ o.close → P s

theorem Carries.tail (h : Carries P Q (t :: ts)) : Carries P Q ts where
  text := fun t ht => h.text t (List.mem_cons_of_mem _ ht)
  opening := h.opening
  name := fun t ht => h.name t (List.mem_cons_of_mem _ ht)
  value := fun t ht => h.value t (List.mem_cons_of_mem _ ht)
  between := fun t ht => h.between t (List.mem_cons_of_mem _ ht)
  close := h.close

theorem not_mem_value {s : Segment} {o : Opened} : .segment s ∉ (o.value t).2 := by
  unfold Opened.value
  split <;> simp

theorem Carries.segments {o : Option Opened} (h : Carries P Q ts) (ho : ∀ x ∈ o, Q x) {s : Segment}
    (hs : .segment s ∈ ofTokens o ts) : P s := by
  fun_induction ofTokens o ts with
  | case1 => cases hs
  | case2 t ts kind hk ih =>
    rcases List.mem_append.1 hs with hs | hs
    · exact h.text t List.mem_cons_self kind hk s hs
    · exact ih h.tail (by simp) hs
  | case3 t ts hk ih =>
    refine ih h.tail ?_ hs
    intro x hx
    split at hx
    · exact Option.some.inj hx ▸ h.opening
    · cases hx
  | case4 o t ts kind hk ih =>
    rcases List.mem_append.1 hs with hs | hs
    · rcases List.mem_append.1 hs with hs | hs
      · exact h.close o (ho o rfl) s hs
      · exact h.text t List.mem_cons_self kind hk s hs
    · exact ih h.tail (by simp) hs
  | case5 o t ts hk hn ih => exact ih h.tail (by simpa using h.name t List.mem_cons_self o (ho o rfl)) hs
  | case6 o t ts hk hn ih =>
    rcases List.mem_append.1 hs with hs | hs
    · exact absurd hs not_mem_value
    · exact ih h.tail (by simpa using h.value t List.mem_cons_self o (ho o rfl)) hs
  | case7 o t ts hk h₁ h₂ ih => exact ih h.tail (by simpa using h.between t List.mem_cons_self o (ho o rfl)) hs

end Item

/-! ## Tokens and segments -/

/-- A token whose places are in this file. -/
structure Token.Within (file : Option String) (t : Token) : Prop where
  location : t.location.Within file
  tagStart : t.tagStart.Within file
  tagEnd : t.tagEnd.Within file

namespace Scanner

theorem within_advance {s : Scanner} (hc : s.cursor.Within file) (he : s.tagEnd.Within file)
    (h : s.advance.1 = .ok true) : s.advance.2.cursor.Within file ∧ s.advance.2.token.Within file := by
  unfold advance at h ⊢
  dsimp only at h ⊢
  split at h
  · cases h
  · rename_i hne
    have hscan := Scan.within_scan hc s.next
    rw [if_neg hne]
    split at h
    · refine ⟨hscan.cursor, hc.here, hc.last, ?_⟩
      show Location.Within file ((s.next.scan s.cursor).tagEnd.getD s.tagEnd)
      cases hend : (s.next.scan s.cursor).tagEnd with
      | none => exact he
      | some l => exact hscan.tagEnd l hend
    · cases h

theorem within_stream (s : Scanner) (hc : s.cursor.Within file) (he : s.tagEnd.Within file) :
    ∀ t ∈ s.stream.tokens, t.Within file := by
  fun_induction stream s with
  | case1 s h rest ih =>
    have hadvanced := within_advance hc he h
    intro t ht
    rcases List.mem_cons.1 ht with rfl | ht
    · exact hadvanced.2
    · exact ih hadvanced.1 hadvanced.2.tagEnd t ht
  | case2 => simp
  | case3 => simp

end Scanner

/-- A segment whose places are in this file. -/
inductive Segment.Within (file : Option String) : Segment → Prop
  | text {s : TextSegment} : s.start.Within file → s.tagStart.Within file → s.ending.Within file →
      Segment.Within file (.text s)
  | directive {d : Directive} : d.start.Within file → d.tagStart.Within file → d.ending.Within file →
      Segment.Within file (.directive d)

namespace Item

theorem within_ofText {kind : SegmentKind} {t : Token} (ht : t.Within file) {s : Segment}
    (h : .segment s ∈ ofText kind t) : s.Within file := by
  unfold ofText at h
  dsimp only at h
  split at h
  · cases h
  · obtain rfl := Item.segment.inj (List.mem_singleton.1 h)
    exact .text ht.location ht.tagStart ht.tagEnd

/-- What is known of a directive has its places in this file. -/
def Opened.Within (file : Option String) (o : Opened) : Prop :=
  ∀ d ∈ o.directive, (Segment.directive d).Within file

theorem Opened.Within.name {o : Opened} (h : o.Within file) {t : Token} (ht : t.Within file) :
    (o.name t).Within file := by
  unfold Opened.name
  dsimp only
  split
  · intro d hd
    obtain rfl := Option.some.inj hd
    exact .directive ht.location ht.tagStart ht.location
  · rename_i d hd
    exact fun d' hd' => h d' hd'

theorem Opened.Within.value {o : Opened} (h : o.Within file) (t : Token) : (o.value t).1.Within file := by
  unfold Opened.value
  split
  · rename_i key d _ hd
    intro d' hd'
    obtain rfl := Option.some.inj hd'
    cases h d hd with
    | directive hstart htag hend => exact .directive hstart htag hend
  · exact h

theorem Opened.Within.between {o : Opened} (h : o.Within file) {t : Token} (ht : t.Within file) :
    (o.between t).Within file := by
  intro d hd
  obtain ⟨d', hd', rfl⟩ := Option.map_eq_some_iff.1 hd
  cases h d' hd' with
  | directive hstart htag _ => exact .directive hstart htag ht.tagEnd

theorem Opened.Within.close {o : Opened} (h : o.Within file) {s : Segment} (hs : .segment s ∈ o.close) :
    s.Within file := by
  unfold Opened.close at hs
  split at hs
  · rename_i d hd
    obtain rfl := Item.segment.inj (List.mem_singleton.1 hs)
    exact h d hd
  · cases hs

theorem carries_within {ts : List Token} (hts : ∀ t ∈ ts, t.Within file) :
    Carries (Segment.Within file) (Opened.Within file) ts where
  text := fun t ht _ _ _ => within_ofText (hts t ht)
  opening := by simp [Opened.Within]
  name := fun t ht _ ho => ho.name (hts t ht)
  value := fun t _ _ ho => ho.value t
  between := fun t ht _ ho => ho.between (hts t ht)
  close := fun _ ho _ => ho.close

/-- Every segment of a text is in the file of that text. -/
theorem segment_within (file : Option String) (text : String) {s : Segment}
    (h : .segment s ∈ ofTokens none (Scanner.ofText file text).stream.tokens) : s.Within file :=
  (carries_within (Scanner.within_stream (.ofText file text) ⟨rfl, rfl⟩ rfl)).segments (by simp) h

end Item

end Templating
