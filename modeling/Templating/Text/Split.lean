/-!
# Cutting text

Splitting at a character, cutting once, and dividing a text into its lines. The recursions run over
characters; the functions on `String` only wrap them.
-/

namespace Templating.Text

/-- The pieces between the occurrences of `sep`, the empty ones included. -/
def pieces (sep : Char) : List Char → List (List Char)
  | [] => [[]]
  | c :: r =>
    if c = sep then [] :: pieces sep r
    else match pieces sep r with
      | [] => [[c]]
      | p :: ps => (c :: p) :: ps

/-- The text before and after the first `sep`. -/
def cutChars (sep : Char) : List Char → Option (List Char × List Char)
  | [] => none
  | c :: r => if c = sep then some ([], r) else (cutChars sep r).map fun p => (c :: p.1, p.2)

def split (s : String) (sep : Char) : List String :=
  (pieces sep s.toList).map String.ofList

def cut (s : String) (sep : Char) : Option (String × String) :=
  (cutChars sep s.toList).map fun p => (String.ofList p.1, String.ofList p.2)

/-- A line that a line feed ended, without a carriage return before it. -/
def chomp (line : List Char) : List Char :=
  match line.reverse with
  | '\r' :: r => r.reverse
  | _ => line

/-- Ended lines lose their line break; a last line that no line feed ends stays as it is. -/
def chomped : List (List Char) → List (List Char)
  | [] => []
  | [last] => if last.isEmpty then [] else [last]
  | line :: rest => chomp line :: chomped rest

def lines (s : String) : List String :=
  (chomped (pieces '\n' s.toList)).map String.ofList

/-- How many line feeds a text holds. -/
def lineFeeds (s : String) : Nat :=
  s.toList.count '\n'

def dropPrefix? (start s : String) : Option String :=
  let cs := s.toList
  if start.toList.isPrefixOf cs then some (String.ofList (cs.drop start.length)) else none

def startsWith (start s : String) : Bool :=
  start.toList.isPrefixOf s.toList

def endsWith (ending s : String) : Bool :=
  ending.toList.isSuffixOf s.toList

def join (sep : String) : List String → String
  | [] => ""
  | [s] => s
  | s :: rest => s ++ sep ++ join sep rest

end Templating.Text
