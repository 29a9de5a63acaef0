/-!
# Escaped text

Text on one line: backslash, line feed and carriage return are written with a backslash. Reading back
takes any other character after a backslash as itself.
-/

namespace Templating.Text

def escapeChar (c : Char) : List Char :=
  if c = '\\' then ['\\', '\\']
  else if c = '\n' then ['\\', 'n']
  else if c = '\r' then ['\\', 'r']
  else [c]

def escapeChars (cs : List Char) : List Char :=
  cs.flatMap escapeChar

def unescapeChars : List Char → List Char
  | [] => []
  | ['\\'] => ['\\']
  | '\\' :: c :: r =>
    (if c = 'n' then '\n' else if c = 'r' then '\r' else c) :: unescapeChars r
  | c :: r => c :: unescapeChars r

def escape (s : String) : String :=
  String.ofList (escapeChars s.toList)

def unescape (s : String) : String :=
  String.ofList (unescapeChars s.toList)

end Templating.Text
