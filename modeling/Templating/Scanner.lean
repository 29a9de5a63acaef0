import Templating.Token
import Templating.Text.Letter
import Templating.Text.Blank

/-!
# Reading tokens

A scanner stands between two tokens and already knows the kind of the next one. One step publishes
that kind, reads the text that belongs to it, and finds out the kind after it. Every step that
succeeds either reads characters or comes closer to a kind that must, so scanning ends
(`size_scan_lt`).
-/

namespace Templating

/-- The unread text with the place it begins at; `last` is the place of the last character that
could begin a tag. -/
structure Cursor where
  rest : List Char
  position : Nat
  here : Location
  last : Location

/-- What one scan found. -/
structure Scan where
  next : Except SyntaxFault TokenKind
  value : Option (List Char) := none
  tagEnd : Option Location := none
  cursor : Cursor

namespace Scan

/-- The line break after a tag belongs to the tag. -/
def skipLineBreak (c : Cursor) : Cursor :=
  match c.rest with
  | '\r' :: '\n' :: r => { c with rest := r, position := c.position + 2, here := c.here.nextLine }
  | '\r' :: r => { c with rest := r, position := c.position + 1, here := c.here.nextLine }
  | '\n' :: r => { c with rest := r, position := c.position + 1, here := c.here.nextLine }
  | _ => c

/-- The kind of tag that `<#` and the character after it open. -/
def opened : Char → TokenKind
  | '@' => .directive
  | '=' => .expression
  | '+' => .helper
  | _ => .block

/-- Literal text up to a tag or to the end. -/
def readContent (read : List Char) (position : Nat) (here last : Location) : List Char → Scan
  | [] => { next := .ok .eof, value := some read.reverse, cursor := ⟨[], position, here, last⟩ }
  | '\r' :: '\n' :: r => readContent ('\n' :: '\r' :: read) (position + 2) here.nextLine here r
  | '<' :: '#' :: k :: r =>
    { next := .ok (opened k)
      value := some read.reverse
      tagEnd := some here.nextColumn
      cursor :=
        if opened k = .block then ⟨k :: r, position + 2, here.addColumns 2, here⟩
        else ⟨r, position + 3, here.addColumns 3, here⟩ }
  | c :: r => readContent (c :: read) (position + 1) (here.step c) here r

/-- Inside a body an escaped closing tag loses its backslash. -/
def unescapeTags : List Char → List Char
  | '\\' :: '#' :: '>' :: r => '#' :: '>' :: unescapeTags r
  | c :: r => c :: unescapeTags r
  | [] => []

/-- Whether `>` closes the tag after what was read of its body, last character first. -/
def closes : List Char → Bool
  | '#' :: '\\' :: _ => false
  | '#' :: _ => true
  | _ => false

/-- The body of a code tag, up to the first closing tag that no backslash escapes. -/
def readBody (read : List Char) (position : Nat) (here last : Location) : List Char → Scan
  | [] => { next := .error ⟨.unexpectedEnd, here⟩, cursor := ⟨[], position, here, last⟩ }
  | '\r' :: '\n' :: r => readBody ('\n' :: '\r' :: read) (position + 2) here.nextLine here r
  | c :: r =>
    if c = '>' ∧ closes read then
      { next := .ok .content
        value := some (unescapeTags (read.drop 1).reverse)
        tagEnd := some here.nextColumn
        cursor := ⟨r, position + 1, here.nextColumn, here⟩ }
    else readBody (c :: read) (position + 1) (here.step c) here r

/-- Blanks inside a directive, up to a name, an equals sign or the closing tag. -/
def readDirective (position : Nat) (here last : Location) : List Char → Scan
  | [] => { next := .error ⟨.unexpectedEnd, here⟩, cursor := ⟨[], position, here, last⟩ }
  | '\r' :: '\n' :: r => readDirective (position + 2) here.nextLine last r
  | '#' :: '>' :: r =>
    { next := .ok .content
      tagEnd := some (here.addColumns 2)
      cursor := skipLineBreak ⟨r, position + 2, here.addColumns 3, last⟩ }
  | c :: r =>
    if Text.isAlphabetic c then
      { next := .ok .directiveName, cursor := ⟨c :: r, position, here, last⟩ }
    else if c = '=' then
      { next := .ok .directiveValue, cursor := ⟨r, position + 1, here.nextColumn, last⟩ }
    else if Text.isBlank c then readDirective (position + 1) (here.step c) last r
    else { next := .error ⟨.strayCharacter c, here⟩, cursor := ⟨c :: r, position, here, last⟩ }

/-- The letters and digits of a name. -/
def readName (read : List Char) (position : Nat) (here last : Location) : List Char → Scan
  | [] => { next := .error ⟨.unexpectedEnd, here⟩, cursor := ⟨[], position, here, last⟩ }
  | c :: r =>
    if Text.isAlphanumeric c then readName (c :: read) (position + 1) here.nextColumn last r
    else
      { next := .ok .directive
        value := some read.reverse
        cursor := ⟨c :: r, position, here, last⟩ }

/-- The text of a value up to the quote that opened it. -/
def readQuoted (quote : Char) (read : List Char) (position : Nat) (here last : Location) :
    List Char → Scan
  | [] => { next := .error ⟨.unexpectedEnd, here⟩, cursor := ⟨[], position, here, last⟩ }
  | '\r' :: '\n' :: r => readQuoted quote ('\n' :: '\r' :: read) (position + 2) here.nextLine last r
  | c :: r =>
    if c = quote then
      { next := .ok .directive
        value := some read.reverse
        cursor := ⟨r, position + 1, here.nextColumn, last⟩ }
    else readQuoted quote (c :: read) (position + 1) (here.step c) last r

/-- Blanks before the quote of a value. -/
def readValue (position : Nat) (here last : Location) : List Char → Scan
  | [] => { next := .error ⟨.unexpectedEnd, here⟩, cursor := ⟨[], position, here, last⟩ }
  | '\r' :: '\n' :: r => readValue (position + 2) here.nextLine last r
  | c :: r =>
    if c = '\'' ∨ c = '"' then readQuoted c [] (position + 1) here.nextColumn last r
    else if Text.isBlank c then readValue (position + 1) (here.step c) last r
    else
      { next := .error ⟨.unquotedValue c, here.nextColumn⟩
        cursor := ⟨c :: r, position, here.nextColumn, last⟩ }

/-- The first character of a name was recognised when the name was announced. -/
def readNameFrom (c : Cursor) : Scan :=
  match c.rest with
  | [] => readName [] c.position c.here c.last []
  | x :: r => readName [x] (c.position + 1) c.here.nextColumn c.last r

def readBodyAndLineBreak (c : Cursor) : Scan :=
  let s := readBody [] c.position c.here c.last c.rest
  match s.next with
  | .ok _ => { s with cursor := skipLineBreak s.cursor }
  | .error _ => s

end Scan

/-- Reads the text that belongs to a token of the given kind. -/
def TokenKind.scan (kind : TokenKind) (c : Cursor) : Scan :=
  match kind with
  | .content => Scan.readContent [] c.position c.here c.last c.rest
  | .expression => Scan.readBody [] c.position c.here c.last c.rest
  | .block | .helper => Scan.readBodyAndLineBreak c
  | .directive => Scan.readDirective c.position c.here c.last c.rest
  | .directiveName => Scan.readNameFrom c
  | .directiveValue => Scan.readValue c.position c.here c.last c.rest
  | .eof => { next := .ok .eof, cursor := c }

/-! ## Scanning ends -/

/-- How far a kind is from one that reads characters. -/
def TokenKind.rank : TokenKind → Nat
  | .eof => 0
  | .directiveName => 1
  | _ => 2

namespace Scan

theorem length_skipLineBreak_le (c : Cursor) :
    (skipLineBreak c).rest.length ≤ c.rest.length := by
  unfold skipLineBreak
  split <;> simp_all <;> omega

theorem length_readContent (read : List Char) (p : Nat) (h l : Location) (cs : List Char) :
    (readContent read p h l cs).cursor.rest.length < cs.length ∨
      (readContent read p h l cs).next = .ok .eof ∧ (readContent read p h l cs).cursor.rest = [] := by
  fun_induction readContent read p h l cs with
  | case1 => right; simp
  | case2 read p h l r ih =>
    rcases ih with ih | ih
    · left; simp only [List.length_cons]; omega
    · exact .inr ih
  | case3 read p h l k r => left; simp; split <;> simp <;> omega
  | case4 read p h l c r _ _ ih =>
    rcases ih with ih | ih
    · left; simp only [List.length_cons]; omega
    · exact .inr ih

theorem length_readBody (read : List Char) (p : Nat) (h l : Location) (cs : List Char) {k : TokenKind}
    (hk : (readBody read p h l cs).next = .ok k) :
    (readBody read p h l cs).cursor.rest.length < cs.length := by
  fun_induction readBody read p h l cs with
  | case1 => simp at hk
  | case2 read p h l r ih => have := ih hk; simp; omega
  | case3 => simp
  | case4 read p h l c r _ _ ih => have := ih hk; simp; omega

theorem length_readDirective (p : Nat) (h l : Location) (cs : List Char) {k : TokenKind}
    (hk : (readDirective p h l cs).next = .ok k) :
    (readDirective p h l cs).cursor.rest.length < cs.length ∨
      k = .directiveName ∧ (readDirective p h l cs).cursor.rest.length ≤ cs.length := by
  fun_induction readDirective p h l cs with
  | case1 => simp at hk
  | case2 p h r ih =>
    rcases ih hk with ih | ih
    · left; simp only [List.length_cons]; omega
    · exact .inr ⟨ih.1, by simp only [List.length_cons]; omega⟩
  | case3 p h r =>
    left
    have := length_skipLineBreak_le ⟨r, p + 2, h.addColumns 3, l⟩
    simp only [List.length_cons] at *
    omega
  | case4 => right; simp_all
  | case5 => left; simp
  | case6 p h c r _ _ _ _ _ ih =>
    rcases ih hk with ih | ih
    · left; simp only [List.length_cons]; omega
    · exact .inr ⟨ih.1, by simp only [List.length_cons]; omega⟩
  | case7 => simp at hk

theorem length_readName (read : List Char) (p : Nat) (h l : Location) (cs : List Char) :
    (readName read p h l cs).cursor.rest.length ≤ cs.length := by
  fun_induction readName read p h l cs with
  | case1 => simp
  | case2 read p h c r _ ih => simp; omega
  | case3 => simp

theorem length_readQuoted (q : Char) (read : List Char) (p : Nat) (h l : Location) (cs : List Char) :
    (readQuoted q read p h l cs).cursor.rest.length ≤ cs.length := by
  fun_induction readQuoted q read p h l cs with
  | case1 => simp
  | case2 read p h r ih => simp; omega
  | case3 => simp
  | case4 read p h c r _ _ ih => simp; omega

theorem length_readValue (p : Nat) (h l : Location) (cs : List Char) {k : TokenKind}
    (hk : (readValue p h l cs).next = .ok k) :
    (readValue p h l cs).cursor.rest.length < cs.length := by
  fun_induction readValue p h l cs with
  | case1 => simp at hk
  | case2 p h r ih => have := ih hk; simp; omega
  | case3 p h c r => have := length_readQuoted c [] (p + 1) h.nextColumn l r; simp; omega
  | case4 p h c r _ _ _ ih => have := ih hk; simp; omega
  | case5 => simp at hk

theorem length_readBodyAndLineBreak {c : Cursor} {k : TokenKind}
    (hk : (readBodyAndLineBreak c).next = .ok k) :
    (readBodyAndLineBreak c).cursor.rest.length < c.rest.length := by
  unfold readBodyAndLineBreak at hk ⊢
  cases hb : (readBody [] c.position c.here c.last c.rest).next with
  | error e => simp [hb] at hk
  | ok k' =>
    have h1 := length_readBody _ _ _ _ _ hb
    have h2 := length_skipLineBreak_le (readBody [] c.position c.here c.last c.rest).cursor
    simp only [hb]
    omega

theorem length_readNameFrom {c : Cursor} {k : TokenKind} (hk : (readNameFrom c).next = .ok k) :
    (readNameFrom c).cursor.rest.length < c.rest.length := by
  unfold readNameFrom at hk ⊢
  cases hc : c.rest with
  | nil => simp [hc, readName] at hk
  | cons x r =>
    have := length_readName [x] (c.position + 1) c.here.nextColumn c.last r
    simp only [List.length_cons]
    omega

end Scan

/-- Unread text first, then the kinds left to go through without reading. -/
def Cursor.size (c : Cursor) (next : TokenKind) : Nat :=
  3 * c.rest.length + next.rank

theorem TokenKind.rank_le (k : TokenKind) : k.rank ≤ 2 := by
  cases k <;> decide

theorem TokenKind.size_scan_lt {kind k : TokenKind} {c : Cursor} (hne : kind ≠ .eof)
    (hk : (kind.scan c).next = .ok k) : (kind.scan c).cursor.size k < c.size kind := by
  have hr := k.rank_le
  have h2 : TokenKind.content.rank = 2 := rfl
  unfold Cursor.size
  cases kind with
  | content =>
    show 3 * (Scan.readContent [] c.position c.here c.last c.rest).cursor.rest.length + k.rank <
      3 * c.rest.length + 2
    rcases Scan.length_readContent [] c.position c.here c.last c.rest with h | ⟨h, h'⟩
    · omega
    · have : k = .eof := by
        have hk' := hk
        simp only [TokenKind.scan] at hk'
        rw [h] at hk'; exact (Except.ok.inj hk').symm
      subst this
      simp [h', TokenKind.rank]
  | expression =>
    have := Scan.length_readBody _ _ _ _ _ hk
    show 3 * (Scan.readBody [] c.position c.here c.last c.rest).cursor.rest.length + k.rank <
      3 * c.rest.length + 2
    omega
  | block | helper =>
    show 3 * (Scan.readBodyAndLineBreak c).cursor.rest.length + k.rank < 3 * c.rest.length + 2
    have := Scan.length_readBodyAndLineBreak hk
    omega
  | directive =>
    show 3 * (Scan.readDirective c.position c.here c.last c.rest).cursor.rest.length + k.rank <
      3 * c.rest.length + 2
    rcases Scan.length_readDirective _ _ _ _ hk with h | ⟨rfl, h⟩
    · omega
    · have : TokenKind.directiveName.rank = 1 := rfl
      omega
  | directiveName =>
    show 3 * (Scan.readNameFrom c).cursor.rest.length + k.rank < 3 * c.rest.length + 1
    have := Scan.length_readNameFrom hk
    omega
  | directiveValue =>
    have := Scan.length_readValue _ _ _ _ hk
    show 3 * (Scan.readValue c.position c.here c.last c.rest).cursor.rest.length + k.rank <
      3 * c.rest.length + 2
    omega
  | eof => exact absurd rfl hne

/-! ## Scanners -/

/-- The current token and all that is known of the next. -/
structure Scanner where
  kind : TokenKind
  value : Option String
  location : Location
  tagStart : Location
  tagEnd : Location
  next : TokenKind
  cursor : Cursor

namespace Scanner

def ofText (file : Option String) (text : String) : Scanner :=
  let start := Location.start file
  { kind := .content, value := none, location := start, tagStart := start, tagEnd := start
    next := .content, cursor := ⟨text.toList, 0, start, start⟩ }

def token (s : Scanner) : Token :=
  ⟨s.kind, s.value, s.location, s.tagStart, s.tagEnd⟩

/-- The scanner on its next token, before the token's text is read. -/
def arrive (s : Scanner) : Scanner :=
  { s with
    kind := s.next
    value := none
    location := s.cursor.here
    tagStart := s.cursor.last }

/-- One step. The answer is `false` at the end of the text, where the scanner stays. After a fault
the scanner keeps its kind, and a further step fails again. -/
def advance (s : Scanner) : Except SyntaxFault Bool × Scanner :=
  let t := s.arrive
  if s.next = .eof then (.ok false, t)
  else
    let scan := s.next.scan s.cursor
    match scan.next with
    | .ok next =>
      (.ok true,
        { t with
          value := scan.value.map String.ofList
          tagEnd := scan.tagEnd.getD s.tagEnd
          next
          cursor := scan.cursor })
    | .error fault => (.error fault, { t with cursor := scan.cursor })

def size (s : Scanner) : Nat :=
  s.cursor.size s.next

theorem size_advance_lt {s : Scanner} (h : s.advance.1 = .ok true) : s.advance.2.size < s.size := by
  unfold advance at h ⊢
  by_cases hne : s.next = .eof
  · simp [hne] at h
  · cases hk : (s.next.scan s.cursor).next with
    | error e => simp [hne, hk] at h
    | ok k => simpa [hne, hk, size] using TokenKind.size_scan_lt hne hk

/-- All tokens from here on. -/
def stream (s : Scanner) : TokenStream :=
  match _h : s.advance.1 with
  | .ok true =>
    let rest := s.advance.2.stream
    { rest with tokens := s.advance.2.token :: rest.tokens }
  | .ok false => ⟨[], .ok s.advance.2.token⟩
  | .error fault => ⟨[], .error fault⟩
termination_by s.size
decreasing_by exact size_advance_lt (by assumption)

end Scanner

/-- The tokens of a text, the end-of-text token last, or the first fault. -/
def tokenize (file : Option String) (text : String) : Except SyntaxFault (List Token) :=
  let s := (Scanner.ofText file text).stream
  s.ending.map fun eof => s.tokens ++ [eof]

end Templating
