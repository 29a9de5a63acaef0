import Templating.Location
import Templating.Text.Split

/-!
# Diagnostics

What a run has to report, each entry an error or a warning with a code. A run has failed exactly if
one of its entries is an error.
-/

namespace Templating

inductive Severity
  | error
  | warning
deriving DecidableEq, Repr

def Severity.name : Severity → String
  | .error => "error"
  | .warning => "warning"

structure Diagnostic where
  severity : Severity
  code : String
  message : String
  location : Option Location
deriving DecidableEq, Repr

namespace Diagnostic

def error (code message : String) (at_ : Location) : Diagnostic :=
  ⟨.error, code, message, some at_⟩

def warning (code message : String) (at_ : Location) : Diagnostic :=
  ⟨.warning, code, message, some at_⟩

def isError (d : Diagnostic) : Bool :=
  d.severity == .error

/-- One line; the place shrinks to what the location knows. -/
def render (d : Diagnostic) : String :=
  let head := d.severity.name ++ "[" ++ d.code ++ "] "
  match d.location with
  | none => head ++ d.message
  | some l =>
    if 1 ≤ l.line then
      head ++ l.file.getD "<unknown>" ++ ":" ++ toString l.line ++ ":" ++ toString l.column ++ " "
        ++ d.message
    else match l.file with
      | some file => head ++ file ++ ": " ++ d.message
      | none => head ++ d.message

end Diagnostic

/-- The diagnostics of a run in the order they arose. -/
abbrev Diagnostics := List Diagnostic

namespace Diagnostics

def hasErrors (ds : Diagnostics) : Bool :=
  ds.any Diagnostic.isError

def errorCount (ds : Diagnostics) : Nat :=
  ds.countP Diagnostic.isError

def render (ds : Diagnostics) : String :=
  Text.join "\n" (ds.map Diagnostic.render)

end Diagnostics

end Templating
