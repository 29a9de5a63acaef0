import Templating.Outcome

/-!
# Locations

A place in a template: the file, if it has one, and a line and column counted from 1. The empty
location, which is no file at (-1, -1), marks what concerns no place in particular. Lines and columns
are signed 32-bit numbers; a text has fewer characters than that, so only arithmetic on places from
elsewhere can leave the range.
-/

namespace Templating

structure Location where
  file : Option String
  line : Int
  column : Int
deriving DecidableEq, Repr, Inhabited

namespace Location

def empty : Location := ⟨none, -1, -1⟩

/-- The first character of a file. -/
def start (file : Option String) : Location := ⟨file, 1, 1⟩

/-- A file as a whole, without a place in it. -/
def whole (file : Option String) : Location := ⟨file, -1, -1⟩

def isEmpty (l : Location) : Bool :=
  l.line == -1 && l.column == -1 && l.file.isNone

def nextLine (l : Location) : Location :=
  { l with line := l.line + 1, column := 1 }

def addColumns (l : Location) (n : Int) : Location :=
  { l with column := l.column + n }

def nextColumn (l : Location) : Location :=
  l.addColumns 1

def withFile (l : Location) (file : String) : Location :=
  { l with file := some file }

/-- A place without a file belongs to the root template, if there is one. -/
def orIn (root : Option String) (l : Location) : Location :=
  match l.file, root with
  | none, some file => l.withFile file
  | _, _ => l

/-- The place after one character that is not the first half of a CRLF. -/
def step (l : Location) (c : Char) : Location :=
  if c = '\r' ∨ c = '\n' then l.nextLine else l.nextColumn

/-- The place after a text that begins here: each of CRLF, CR and LF starts a line. -/
def after (l : Location) : List Char → Location
  | [] => l
  | '\r' :: '\n' :: r => l.nextLine.after r
  | c :: r => (l.step c).after r

/-- A number that fits 32 bits with a sign; arithmetic that leads to any other gives up. -/
def fit (n : Int) : Outcome Int :=
  if -0x80000000 ≤ n ∧ n < 0x80000000 then .value n else .aborted

/-- The place itself, if its line and column are in range. -/
def checked (l : Location) : Outcome Location := do
  return { l with line := ← fit l.line, column := ← fit l.column }

def text (l : Location) : String :=
  "[" ++ l.file.getD "" ++ " (" ++ toString l.line ++ "," ++ toString l.column ++ ")]"

end Location

end Templating
