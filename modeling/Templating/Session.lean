import Templating.Dictionary
import Templating.Text.Escaped
import Templating.Text.Split

/-!
# Sessions

The values a program is started with, as text: a line for each entry in key order, key and value
escaped and parted by an equals sign. An equals sign of the key has a backslash before it.
-/

namespace Templating.Session

def protectEquals (cs : List Char) : List Char :=
  cs.flatMap fun c => if c = '=' then ['\\', '='] else [c]

def renderEntry (e : String × String) : List Char :=
  protectEquals (Text.escapeChars e.1.toList) ++ '=' :: Text.escapeChars e.2.toList ++ ['\n']

def render (d : Dictionary) : String :=
  String.ofList (d.entries.flatMap renderEntry)

/-- A line cut at its first equals sign that no backslash protects. -/
def cutLine : List Char → Option (List Char × List Char)
  | [] => none
  | ['\\'] => none
  | '\\' :: c :: r => (cutLine r).map fun p => ('\\' :: c :: p.1, p.2)
  | c :: r => if c = '=' then some ([], r) else (cutLine r).map fun p => (c :: p.1, p.2)

def parseLine (line : String) : Option (String × String) :=
  (cutLine line.toList).map fun p =>
    (String.ofList (Text.unescapeChars p.1), String.ofList (Text.unescapeChars p.2))

/-- Lines without an equals sign do not count; of two entries for a key the later one does. -/
def parse (text : String) : Dictionary :=
  .ofList ((Text.lines text).filterMap parseLine)

end Templating.Session
