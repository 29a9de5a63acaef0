import Templating.FileTree
import Templating.GeneratedUnit
import Templating.Processor

/-!
# Failures

What can end an operation outside of a template run, with the text that is shown for it.
-/

namespace Templating

inductive Failure
  | io (message : String)
  | invalidPath (path : String)
  | config (message : String)
  | parse (fault : SyntaxFault)
  | processor (error : ProcessorError)
  | codegen (message : String)
  | invalidArgument (message : String)
  /-- The diagnostics of the run say it all. -/
  | reported
deriving DecidableEq, Repr

namespace Failure

def message : Failure → String
  | .io m => "IO error: " ++ m
  | .invalidPath p => "Invalid path: " ++ p
  | .config m => "Invalid configuration: " ++ m
  | .parse f => "Parse error: " ++ f.message
  | .processor e => "Directive processor error: " ++ e.message
  | .codegen m => "Code generation error: " ++ m
  | .invalidArgument m => m
  | .reported => "template run reported errors"

def ofFile (e : FileError) : Failure :=
  .io e.message

def ofUnit : UnitError → Failure
  | .className name => .invalidArgument ("class name '" ++ name ++ "' is not a valid identifier")
  | .namespaceSegment part =>
    .codegen ("namespace segment '" ++ part ++ "' is not a valid module name")

end Failure

end Templating
