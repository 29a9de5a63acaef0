import Templating.Text.Blank
import Templating.Text.Split

/-!
# Compiler messages

The lines in which a compiler reports errors and warnings, in four layouts: `file(line,col): error
CODE: text`, `file:line:col: error[CODE]: text`, and both without a place. The file of the first
layout is as long as can be, that of the second as short as can be.
-/

namespace Templating

structure CompilerMessage where
  file : Option String
  line : Nat
  column : Nat
  isWarning : Bool
  code : String
  text : String
deriving DecidableEq, Repr

namespace CompilerMessage

def error (code text : String) : CompilerMessage :=
  ⟨none, 0, 0, false, code, text⟩

/-! ## Parts of a line -/

/-- A part read from the front, and the rest. -/
abbrev Reader (α : Type) := List Char → Option (α × List Char)

def literal (s : String) : Reader Unit := fun cs =>
  if s.toList.isPrefixOf cs then some ((), cs.drop s.length) else none

/-- One or more characters of a class, as many as there are. -/
def run (p : Char → Bool) : Reader (List Char) := fun cs =>
  let r := cs.takeWhile p
  if r.isEmpty then none else some (r, cs.dropWhile p)

/-- A number; one that does not fit 32 bits is 0. -/
def number : Reader Nat := fun cs =>
  (run Char.isDigit cs).map fun r =>
    let n := r.1.foldl (fun n c => n * 10 + (c.toNat - '0'.toNat)) 0
    (if n < 0x100000000 then n else 0, r.2)

/-- `true` for a warning. -/
def severity : Reader Bool := fun cs =>
  match literal "error" cs with
  | some (_, r) => some (false, r)
  | none => (literal "warning" cs).map fun r => (true, r.2)

/-- Letters and then digits. -/
def codeWord : Reader String := fun cs => do
  let (letters, r) ← run Char.isAlpha cs
  let (digits, r) ← run Char.isDigit r
  return (String.ofList (letters ++ digits), r)

/-- The text of a message is all that is left of its line. -/
def lastPart (cs : List Char) : Option String :=
  if '\n' ∈ cs then none else some (String.ofList cs)

/-- `CODE: text`, with one blank before the colon allowed. -/
def codeAndText (cs : List Char) : Option (String × String) := do
  let (c, r) ← codeWord cs
  let r := match r with
    | ' ' :: r => r
    | r => r
  let (_, r) ← literal ": " r
  return (c, ← lastPart r)

/-- `[CODE]: text`, where the code may be missing. -/
def bracketedCodeAndText (cs : List Char) : Option (String × String) := do
  match cs with
  | '[' :: r =>
    let (c, r) ← codeWord r
    let (_, r) ← literal "]: " r
    return (c, ← lastPart r)
  | r =>
    let (_, r) ← literal ": " r
    return ("", ← lastPart r)

/-! ## Layouts -/

/-- What follows the file in `file(line,col): error CODE: text`. -/
def parenthesized (cs : List Char) : Option CompilerMessage := do
  let (_, r) ← literal "(" cs
  let (line, r) ← number r
  let (_, r) ← literal "," r
  let (column, r) ← number r
  let (_, r) ← literal "): " r
  let (isWarning, r) ← severity r
  let (_, r) ← literal " " r
  let (c, t) ← codeAndText r
  return ⟨none, line, column, isWarning, c, t⟩

/-- What follows the file in `file:line:col: error[CODE]: text`. -/
def separated (cs : List Char) : Option CompilerMessage := do
  let (_, r) ← literal ":" cs
  let (line, r) ← number r
  let (_, r) ← literal ":" r
  let (column, r) ← number r
  let (_, r) ← literal ": " r
  let (isWarning, r) ← severity r
  let (c, t) ← bracketedCodeAndText r
  return ⟨none, line, column, isWarning, c, t⟩

def withFile (read : List Char) (m : CompilerMessage) : CompilerMessage :=
  { m with file := some (String.ofList read.reverse) }

/-- The longest file before a parenthesized place. `read` is the file so far, last character first. -/
def findLast (read : List Char) : List Char → Option CompilerMessage
  | [] => none
  | c :: r =>
    let later := if c = '\n' then none else findLast (c :: read) r
    later <|> (parenthesized (c :: r)).map (withFile read)

/-- The shortest non-empty file before a separated place. -/
def findFirst (read : List Char) : List Char → Option CompilerMessage
  | [] => none
  | c :: r =>
    let here := if read.isEmpty then none else (separated (c :: r)).map (withFile read)
    here <|> if c = '\n' then none else findFirst (c :: read) r

def spaced (cs : List Char) : Option CompilerMessage := do
  let (isWarning, r) ← severity cs
  let (_, r) ← literal " " r
  let (c, t) ← codeAndText r
  return ⟨none, 0, 0, isWarning, c, t⟩

def bracketed (cs : List Char) : Option CompilerMessage := do
  let (isWarning, r) ← severity cs
  let (c, t) ← bracketedCodeAndText r
  return ⟨none, 0, 0, isWarning, c, t⟩

/-- Lines that only sum up what others say. -/
def isSummary (text : String) : Bool :=
  Text.startsWith "aborting due to" text || Text.endsWith "warning emitted" text ||
    Text.endsWith "warnings emitted" text

/-- The message of a line, if it has one. -/
def ofLine? (line : String) : Option CompilerMessage :=
  let cs := (Text.trimEnd line).toList
  let found := findLast [] cs <|> findFirst [] cs <|> spaced cs <|> bracketed cs
  found.filter fun m => !isSummary m.text

end CompilerMessage

end Templating
