import Templating.CompilerMessage
import Templating.Failure
import Templating.Outcome
import Templating.Process

/-!
# Compilers

What a compiler is asked and what it answers: a unit's source goes in, messages and perhaps a module
come out.
-/

namespace Templating

structure CompilerParameters where
  references : List String := []
  debugInformation : Bool := false
  executable : Bool := true
  outputName : String := "template"
  extraOptions : List String := []
deriving DecidableEq, Repr

structure CompiledModule where
  path : Path
  symbols : Option Path := none
  references : List Path := []
  workspace : Path
  binary : Binary

structure CompilerResult where
  /-- In the lines of the unit. -/
  messages : List CompilerMessage := []
  output : List String := []
  /-- The exit code, or -1. -/
  returnValue : Int := 0
  sourcePath : Path
  module? : Option CompiledModule := none

def CompilerResult.hasErrors (r : CompilerResult) : Bool :=
  r.messages.any fun m => !m.isWarning

structure Compiler where
  compile : (source : String) → CompilerParameters → Outcome (Except Failure CompilerResult)

end Templating
