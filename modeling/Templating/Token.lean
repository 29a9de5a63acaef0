import Templating.Location

/-!
# Tokens

What a template is cut into: literal text, the three kinds of code tags, and the names and values
inside directive tags. A `directive` token stands for the stretches between them.
-/

namespace Templating

inductive TokenKind
  | content
  | directive
  | expression
  | block
  | helper
  | directiveName
  | directiveValue
  | eof
deriving DecidableEq, Repr, Inhabited

structure Token where
  kind : TokenKind
  value : Option String
  location : Location
  tagStart : Location
  tagEnd : Location
deriving DecidableEq, Repr

inductive SyntaxCause
  | unexpectedEnd
  | strayCharacter (c : Char)
  | unquotedValue (c : Char)
deriving DecidableEq, Repr

def SyntaxCause.message : SyntaxCause → String
  | .unexpectedEnd => "Unexpected end of file."
  | .strayCharacter c => "Directive ended unexpectedly with character '" ++ c.toString ++ "'"
  | .unquotedValue c =>
    "Unexpected character '" ++ c.toString ++ "'. Expecting attribute value."

/-- Why and where a template cannot be read. -/
structure SyntaxFault where
  cause : SyntaxCause
  location : Location
deriving DecidableEq, Repr

def SyntaxFault.message (f : SyntaxFault) : String :=
  f.cause.message

/-- A template as tokens, up to its end or to the first fault. -/
structure TokenStream where
  tokens : List Token
  ending : Except SyntaxFault Token

def TokenStream.fault? (s : TokenStream) : Option SyntaxFault :=
  match s.ending with
  | .ok _ => none
  | .error f => some f

end Templating
