/-!
# Identifiers

Names that generated code can declare: ASCII letters, digits and underscores, no digit in front, and
no reserved word.
-/

namespace Templating.Identifier

def reserved : List String :=
  ["_", "as", "async", "await", "break", "const", "continue", "crate", "dyn", "else", "enum",
    "extern", "false", "fn", "for", "if", "impl", "in", "let", "loop", "match", "mod", "move",
    "mut", "pub", "ref", "return", "self", "Self", "static", "struct", "super", "trait", "true",
    "type", "unsafe", "use", "where", "while", "yield"]

def isStart (c : Char) : Bool :=
  c = '_' || c.isAlpha

def isPart (c : Char) : Bool :=
  c = '_' || c.isAlphanum

def isValid (name : String) : Bool :=
  match name.toList with
  | [] => false
  | c :: r => isStart c && r.all isPart && !reserved.contains name

end Templating.Identifier
