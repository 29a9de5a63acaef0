import Templating.Text.Escaped
import Templating.Text.Split

/-!
# Replies

What a finished program tells its caller: the operations it has, the messages it recorded, and its
output if it came to an end. Each is a line with a tag and an escaped payload; other lines do not
count.
-/

namespace Templating

structure Message where
  isWarning : Bool
  text : String
deriving DecidableEq, Repr

structure Reply where
  entries : List String := []
  messages : List Message := []
  output : Option String := none
deriving DecidableEq, Repr

namespace Reply

def initializeEntry : String := "initialize"

def transformEntry : String := "transform_text"

def hasEntry (r : Reply) (name : String) : Bool :=
  r.entries.contains name

def messageTag (m : Message) : String :=
  if m.isWarning then "@warning" else "@error"

def line (tag payload : String) : String :=
  tag ++ " " ++ payload ++ "\n"

def render (r : Reply) : String :=
  String.join (r.entries.map (line "@entry")) ++
    String.join (r.messages.map fun m => line (messageTag m) (Text.escape m.text)) ++
    match r.output with
    | some output => line "@output" (Text.escape output)
    | none => ""

/-- Takes a line into the reply. The last output counts. -/
def takeLine (r : Reply) (line : String) : Reply :=
  match Text.cut line ' ' with
  | none => r
  | some (tag, payload) =>
    if tag = "@entry" then { r with entries := r.entries ++ [payload] }
    else if tag = "@error" then
      { r with messages := r.messages ++ [⟨false, Text.unescape payload⟩] }
    else if tag = "@warning" then
      { r with messages := r.messages ++ [⟨true, Text.unescape payload⟩] }
    else if tag = "@output" then { r with output := some (Text.unescape payload) }
    else r

def parse (text : String) : Reply :=
  (Text.lines text).foldl takeLine {}

end Reply

end Templating
