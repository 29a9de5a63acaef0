import Templating.Dictionary
import Templating.Include
import Templating.Processor

/-!
# Hosts

What a run needs from its surroundings: the template's name, includes, references, parameters,
processors, and the session of the finished program. A bare host knows a name and nothing else.
-/

namespace Templating

structure Host where
  templateFile : Option String
  standardReferences : List String := []
  standardImports : List String := []
  includes : IncludeSource := .empty
  resolveReference : String → String := id
  parameter : ParameterLookup := fun _ _ _ => none
  resolveProcessor : String → Except String Processor :=
    fun name => .error ("directive processor '" ++ name ++ "' is not registered")
  resolvePath : String → String := id
  session : Dictionary := {}

end Templating
