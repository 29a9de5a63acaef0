import Templating.Document.Json

/-!
# Words of TOML

Blanks, comments, line breaks, keys and quoted texts. Every reader takes the text and gives what it
read with the rest, or nothing if the text is malformed.
-/

namespace Templating.Document.Toml

def isBlank (c : Char) : Bool :=
  c = ' ' || c = '\t'

/-- Characters that may stand in comments and quoted texts: all but the control characters. -/
def isPlain (c : Char) : Bool :=
  c = '\t' || (0x20 ≤ c.toNat && c.toNat ≠ 0x7F)

def skipBlanks (cs : List Char) : List Char :=
  cs.dropWhile isBlank

def newline? : List Char → Option (List Char)
  | '\n' :: r => some r
  | '\r' :: '\n' :: r => some r
  | _ => none

/-- The text behind the rest of a line, which holds at most a comment. -/
def lineEnd? (cs : List Char) : Option (List Char) :=
  let r := match skipBlanks cs with
    | '#' :: r => r.dropWhile isPlain
    | r => r
  if r.isEmpty then some [] else newline? r

/-- Drops blanks and line breaks. -/
def skipLines : List Char → List Char
  | '\n' :: r => skipLines r
  | '\r' :: '\n' :: r => skipLines r
  | c :: r => if isBlank c then skipLines r else c :: r
  | [] => []

/-- Drops blanks, line breaks and comments. The flag tells whether the text begins in a comment. -/
def skipFiller : Bool → List Char → List Char
  | _, '\n' :: r => skipFiller false r
  | _, '\r' :: '\n' :: r => skipFiller false r
  | true, c :: r => if isPlain c then skipFiller true r else c :: r
  | false, c :: r =>
    if isBlank c then skipFiller false r else if c = '#' then skipFiller true r else c :: r
  | _, [] => []

/-! ## Quoted texts -/

def hexEscape? (digits : Nat) (cs : List Char) : Option (Char × List Char) :=
  let ds := cs.take digits
  match Json.hex? ds with
  | some n =>
    if ds.length = digits ∧ (n < 0xD800 ∨ (0xE000 ≤ n ∧ n < 0x110000)) then
      some (Char.ofNat n, cs.drop digits)
    else none
  | none => none

/-- The character of an escape, read behind its backslash. -/
def escape? : List Char → Option (Char × List Char)
  | 'b' :: r => some ('\x08', r)
  | 't' :: r => some ('\t', r)
  | 'n' :: r => some ('\n', r)
  | 'f' :: r => some ('\x0c', r)
  | 'r' :: r => some ('\r', r)
  | '"' :: r => some ('"', r)
  | '\\' :: r => some ('\\', r)
  | 'u' :: r => hexEscape? 4 r
  | 'U' :: r => hexEscape? 8 r
  | _ => none

def consed (c : Char) (r : Option (List Char × List Char)) : Option (List Char × List Char) :=
  r.map fun p => (c :: p.1, p.2)

/-- A text on one line up to its closing quote. -/
def basic? : (fuel : Nat) → List Char → Option (List Char × List Char)
  | 0, _ => none
  | fuel + 1, cs =>
    match cs with
    | [] => none
    | '"' :: r => some ([], r)
    | '\\' :: r =>
      match escape? r with
      | some (c, r) => consed c (basic? fuel r)
      | none => none
    | c :: r => if isPlain c then consed c (basic? fuel r) else none

/-- A text on one line in which nothing is escaped. -/
def literal? : List Char → Option (List Char × List Char)
  | [] => none
  | c :: r =>
    if c = '\'' then some ([], r) else if isPlain c then consed c (literal? r) else none

/-- The end of a text over several lines, at a run of its quotes: one or two belong to the text, and
up to two may stand before the three that close it. -/
inductive Closing
  | inside (quotes : List Char) (rest : List Char)
  | closes (quotes : List Char) (rest : List Char)
  | malformed

def closing (quote : Char) (cs : List Char) : Closing :=
  let (qs, rest) := cs.span (· = quote)
  if qs.length < 3 then .inside qs rest
  else if qs.length ≤ 5 then .closes (qs.drop 3) rest
  else .malformed

/-- A text over several lines up to its closing quotes. A backslash at the end of a line joins it to
the next text. -/
def longBasic? : (fuel : Nat) → List Char → Option (List Char × List Char)
  | 0, _ => none
  | fuel + 1, cs =>
    match cs with
    | [] => none
    | '"' :: _ =>
      match closing '"' cs with
      | .inside qs rest => (longBasic? fuel rest).map fun p => (qs ++ p.1, p.2)
      | .closes qs rest => some (qs, rest)
      | .malformed => none
    | '\\' :: r =>
      match newline? (skipBlanks r) with
      | some r => longBasic? fuel (skipLines r)
      | none =>
        match escape? r with
        | some (c, r) => consed c (longBasic? fuel r)
        | none => none
    | c :: r =>
      match newline? cs with
      | some r => consed '\n' (longBasic? fuel r)
      | none => if isPlain c then consed c (longBasic? fuel r) else none

/-- A text over several lines in which nothing is escaped. -/
def longLiteral? : (fuel : Nat) → List Char → Option (List Char × List Char)
  | 0, _ => none
  | fuel + 1, cs =>
    match cs with
    | [] => none
    | c :: r =>
      if c = '\'' then
        match closing '\'' cs with
        | .inside qs rest => (longLiteral? fuel rest).map fun p => (qs ++ p.1, p.2)
        | .closes qs rest => some (qs, rest)
        | .malformed => none
      else match newline? cs with
        | some r => consed '\n' (longLiteral? fuel r)
        | none => if isPlain c then consed c (longLiteral? fuel r) else none

/-- A quoted text of any kind. A line break right behind three opening quotes does not count. -/
def quoted? (cs : List Char) : Option (List Char × List Char) :=
  let fuel := cs.length + 1
  match cs with
  | '"' :: '"' :: '"' :: r => longBasic? fuel ((newline? r).getD r)
  | '"' :: r => basic? fuel r
  | '\'' :: '\'' :: '\'' :: r => longLiteral? fuel ((newline? r).getD r)
  | '\'' :: r => literal? r
  | _ => none

/-! ## Keys -/

def isKeyChar (c : Char) : Bool :=
  c.isAlphanum || c = '-' || c = '_'

def simpleKey? (cs : List Char) : Option (String × List Char) :=
  match cs with
  | '"' :: r => (basic? (r.length + 1) r).map fun p => (String.ofList p.1, p.2)
  | '\'' :: r => (literal? r).map fun p => (String.ofList p.1, p.2)
  | _ =>
    let (k, rest) := cs.span isKeyChar
    if k.isEmpty then none else some (String.ofList k, rest)

/-- Keys with dots between them. -/
def keys? : (fuel : Nat) → List Char → Option (List String × List Char)
  | 0, _ => none
  | fuel + 1, cs => do
    let (k, rest) ← simpleKey? (skipBlanks cs)
    match skipBlanks rest with
    | '.' :: r =>
      let (ks, rest) ← keys? fuel r
      return (k :: ks, rest)
    | rest => return ([k], rest)

/-- How deep values may be nested, and how many parts a key may have. -/
def depthBound : Nat := 80

/-- The way to an entry: the tables above it and its own key. -/
def key? (cs : List Char) : Option ((List String × String) × List Char) := do
  let (ks, rest) ← keys? (cs.length + 1) cs
  match ks.getLast? with
  | some k => if ks.length < depthBound then some ((ks.dropLast, k), rest) else none
  | none => none

end Templating.Document.Toml
