import Templating.Document

/-!
# Documents in JSON

The whole text is one value. Numbers are kept only if they are natural and written without fraction
and exponent. A quoted text may name half of a character; that matters only where the text is used.
-/

namespace Templating.Document.Json

def isSpace (c : Char) : Bool :=
  c = ' ' || c = '\n' || c = '\r' || c = '\t'

def skip (cs : List Char) : List Char :=
  cs.dropWhile isSpace

def dropKeyword? (word : String) (cs : List Char) : Option (List Char) :=
  if word.toList.isPrefixOf cs then some (cs.drop word.length) else none

/-! ## Quoted texts -/

def hexDigit? (c : Char) : Option Nat :=
  let n := c.toNat
  if 48 ≤ n ∧ n ≤ 57 then some (n - 48)
  else if 97 ≤ n ∧ n ≤ 102 then some (n - 87)
  else if 65 ≤ n ∧ n ≤ 70 then some (n - 55)
  else none

def hex? (cs : List Char) : Option Nat :=
  cs.foldlM (fun n c => (hexDigit? c).map (n * 16 + ·)) 0

def simpleEscape? : Char → Option Char
  | '"' => some '"'
  | '\\' => some '\\'
  | '/' => some '/'
  | 'b' => some '\x08'
  | 'f' => some '\x0c'
  | 'n' => some '\n'
  | 'r' => some '\r'
  | 't' => some '\t'
  | _ => none

/-- A piece of a quoted text: a character, or a number that an escape gives for a half. -/
inductive Piece
  | char (c : Char)
  | half (unit : Nat)

def Piece.ofUnit (n : Nat) : Piece :=
  if 0xD800 ≤ n ∧ n < 0xE000 then .half n else .char (Char.ofNat n)

/-- The pieces up to the closing quote. -/
def pieces? : List Char → Option (List Piece × List Char)
  | [] => none
  | '"' :: r => some ([], r)
  | '\\' :: 'u' :: a :: b :: c :: d :: r => do
    let n ← hex? [a, b, c, d]
    let (ps, rest) ← pieces? r
    return (.ofUnit n :: ps, rest)
  | '\\' :: e :: r => do
    let c ← simpleEscape? e
    let (ps, rest) ← pieces? r
    return (.char c :: ps, rest)
  | c :: r =>
    if c.toNat < 0x20 ∨ c = '\\' then none
    else do
      let (ps, rest) ← pieces? r
      return (.char c :: ps, rest)

/-- The text of some pieces. A first half needs a second one behind it, and no second half stands
alone. -/
def textOf? : List Piece → Option (List Char)
  | [] => some []
  | .char c :: r => (textOf? r).map (c :: ·)
  | .half a :: .half b :: r =>
    if a < 0xDC00 ∧ 0xDC00 ≤ b then
      (textOf? r).map (Char.ofNat (0x10000 + (a - 0xD800) * 0x400 + (b - 0xDC00)) :: ·)
    else none
  | .half _ :: _ => none

def quoted? (cs : List Char) : Option (Option String × List Char) :=
  (pieces? cs).map fun p => ((textOf? p.1).map String.ofList, p.2)

/-! ## Numbers -/

def digitsValue (ds : List Char) : Nat :=
  ds.foldl (fun n d => n * 10 + (d.toNat - 48)) 0

/-- At least one digit after a mark. -/
def digits? (cs : List Char) : Option (List Char × List Char) :=
  let (ds, rest) := cs.span Char.isDigit
  if ds.isEmpty then none else some (ds, rest)

/-- The text behind an optional fraction; the flag tells whether there is one. -/
def fraction? : List Char → Option (Bool × List Char)
  | '.' :: r => (digits? r).map fun p => (true, p.2)
  | cs => some (false, cs)

def exponent? : List Char → Option (Bool × List Char)
  | c :: r =>
    if c = 'e' ∨ c = 'E' then
      let r := match r with
        | s :: r' => if s = '+' ∨ s = '-' then r' else r
        | [] => r
      (digits? r).map fun p => (true, p.2)
    else some (false, c :: r)
  | [] => some (false, [])

def magnitude? (cs : List Char) : Option (Document × List Char) := do
  let (ds, rest) ← digits? cs
  if ds.head? = some '0' ∧ 1 < ds.length then none
  else
    let (fractional, rest) ← fraction? rest
    let (scaled, rest) ← exponent? rest
    return (if fractional || scaled then .number else .natural (digitsValue ds), rest)

def number? : List Char → Option (Document × List Char)
  | '-' :: r => (magnitude? r).map fun p => (.number, p.2)
  | cs => magnitude? cs

/-! ## Values -/

mutual

/-- A value with what follows it. Every step down takes at least one character, so `fuel` need not
exceed the length of the text. -/
def value? (fuel : Nat) (cs : List Char) : Option (Document × List Char) :=
  match fuel with
  | 0 => none
  | fuel + 1 =>
    match skip cs with
    | [] => none
    | '"' :: r => (quoted? r).map fun p =>
      ((match p.1 with
        | some s => .text s
        | none => .brokenText), p.2)
    | '[' :: r =>
      match skip r with
      | ']' :: r => some (.sequence [], r)
      | r => (items? fuel r).map fun p => (.sequence p.1, p.2)
    | '\x7b' :: r =>
      match skip r with
      | '\x7d' :: r => some (.table [], r)
      | r => (entries? fuel r).map fun p => (.table p.1, p.2)
    | 't' :: r => (dropKeyword? "rue" r).map fun r => (.boolean true, r)
    | 'f' :: r => (dropKeyword? "alse" r).map fun r => (.boolean false, r)
    | 'n' :: r => (dropKeyword? "ull" r).map fun r => (.null, r)
    | r => number? r

/-- The items of a sequence up to its end. -/
def items? (fuel : Nat) (cs : List Char) : Option (List Document × List Char) :=
  match fuel with
  | 0 => none
  | fuel + 1 => do
    let (d, rest) ← value? fuel cs
    match skip rest with
    | ']' :: r => return ([d], r)
    | ',' :: r =>
      let (ds, rest) ← items? fuel r
      return (d :: ds, rest)
    | _ => none

/-- The entries of a table up to its end. -/
def entries? (fuel : Nat) (cs : List Char) :
    Option (List (Option String × Document) × List Char) :=
  match fuel with
  | 0 => none
  | fuel + 1 =>
    match skip cs with
    | '"' :: r => do
      let (key, rest) ← quoted? r
      match skip rest with
      | ':' :: r =>
        let (d, rest) ← value? fuel r
        match skip rest with
        | '\x7d' :: r => return ([(key, d)], r)
        | ',' :: r =>
          let (es, rest) ← entries? fuel r
          return ((key, d) :: es, rest)
        | _ => none
      | _ => none
    | _ => none

end

/-- The value of a whole text. -/
def read? (text : String) : Option Document :=
  let cs := text.toList
  match value? (2 * cs.length + 1) cs with
  | some (d, rest) => if (skip rest).isEmpty then some d else none
  | none => none

end Templating.Document.Json
