import Templating.Text.Blank
import Templating.Text.Split

/-!
# Argument lists

The `key=value` pairs of a `requires` or `provides` attribute, divided by semicolons. A key stands
once, at its first place, with its last value; a key without an equals sign has no value.
-/

namespace Templating

structure Argument where
  key : String
  value : Option String
deriving DecidableEq, Repr

abbrev Arguments := List Argument

namespace Arguments

def get? (args : Arguments) (key : String) : Option Argument :=
  args.find? (·.key == key)

def set (key : String) (value : Option String) : Arguments → Arguments
  | [] => [⟨key, value⟩]
  | a :: r => if a.key = key then ⟨key, value⟩ :: r else a :: set key value r

/-- One part of the list as a key with its value. -/
def pair (part : String) : String × Option String :=
  match Text.cut part '=' with
  | some (key, value) => (Text.trim key, some (Text.trim value))
  | none => (Text.trim part, none)

def add (args : Arguments) (part : String) : Arguments :=
  let p := pair part
  if p.1.isEmpty then args else set p.1 p.2 args

def parse (text : String) : Arguments :=
  (Text.split text ';').foldl add []

end Arguments

end Templating
