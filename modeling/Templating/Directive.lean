import Templating.Location
import Templating.Text.Ascii

/-!
# Directives

A directive is a name with attributes in source order. Names and attribute keys compare without
regard to ASCII case; an attribute given twice keeps its first place and spelling and takes the last
value.
-/

namespace Templating

structure Directive where
  name : String
  attributes : List (String × String) := []
  start : Location
  tagStart : Location
  ending : Location
deriving DecidableEq, Repr

namespace Directive

def isNamed (d : Directive) (name : String) : Bool :=
  Text.sameIgnoringCase d.name name

def attribute? (d : Directive) (key : String) : Option String :=
  (d.attributes.find? fun a => Text.sameIgnoringCase a.1 key).map (·.2)

def hasAttribute (d : Directive) (key : String) : Bool :=
  (d.attribute? key).isSome

def setIn (key value : String) : List (String × String) → List (String × String)
  | [] => [(key, value)]
  | a :: r => if Text.sameIgnoringCase a.1 key then (a.1, value) :: r else a :: setIn key value r

def setAttribute (d : Directive) (key value : String) : Directive :=
  { d with attributes := setIn key value d.attributes }

/-- The directives that configure a template without a processor. -/
def builtIns : List String :=
  ["template", "output", "import", "assembly", "parameter"]

def isBuiltIn (d : Directive) : Bool :=
  builtIns.any d.isNamed

end Directive

end Templating
