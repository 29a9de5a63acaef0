import Templating.Path

/-!
# Class names of templates

The class that a template is compiled to is named after its file: the runs of ASCII letters and digits
of the file's stem, each begun with a capital. What would not begin with a letter gets a word in front.
-/

namespace Templating.ClassName

def isWordChar (c : Char) : Bool :=
  c.isAlphanum

/-- The runs of word characters, some of them empty. -/
def words : List Char → List (List Char)
  | [] => [[]]
  | c :: r =>
    if isWordChar c then
      match words r with
      | [] => [[c]]
      | w :: ws => (c :: w) :: ws
    else [] :: words r

def capitalized : List Char → List Char
  | [] => []
  | c :: r => c.toUpper :: r

def begins (word : String) (p : Char → Bool) : Bool :=
  word.toList.head?.any p

def ofStem (stem : String) : String :=
  let name := String.ofList ((words stem.toList).flatMap capitalized)
  if name.isEmpty || begins name Char.isDigit then "Template" ++ name else name

/-- The name for a template file. -/
def ofTemplate (template : Path) : String :=
  ofStem (template.stem?.getD "")

end Templating.ClassName
