import Templating.Directive

/-!
# Directive processors

A processor turns directives into code, in runs: one run covers one template. It is started, takes the
directives routed to it in source order, and is finished; only then can its code for the template's
initialization be read. Values for a directive come from a lookup that the host provides.
-/

namespace Templating

inductive ProcessorError
  | alreadyProcessing (processor : String)
  | notProcessing (processor : String)
  | unresolvedRequired (key : String)
  | custom (text : String)
deriving DecidableEq, Repr

def ProcessorError.message : ProcessorError → String
  | .alreadyProcessing p => "directive processor '" ++ p ++ "' is already in a processing run"
  | .notProcessing p => "directive processor '" ++ p ++ "' is not in a processing run"
  | .unresolvedRequired key => "Could not resolve required value '" ++ key ++ "'"
  | .custom text => text

/-- The value of a parameter for a directive and a processor. -/
abbrev ParameterLookup :=
  (directive : Option String) → (processor : Option String) → (name : String) → Option String

/-- A processor with its current state. A step can fail and still change the state. -/
structure Processor where
  State : Type
  state : State
  friendlyName : String
  start : State → Except ProcessorError Unit × State
  process : ParameterLookup → Directive → State → Except ProcessorError String × State
  finish : State → State
  preInitialization : State → Except ProcessorError String
  postInitialization : State → Except ProcessorError String
  references : State → List String := fun _ => []
  imports : State → List String := fun _ => []

namespace Processor

def onto (p : Processor) (s : p.State) : Processor :=
  { p with state := s }

def startRun (p : Processor) : Except ProcessorError Unit × Processor :=
  let r := p.start p.state
  (r.1, p.onto r.2)

def processDirective (p : Processor) (values : ParameterLookup) (d : Directive) :
    Except ProcessorError String × Processor :=
  let r := p.process values d p.state
  (r.1, p.onto r.2)

def finishRun (p : Processor) : Processor :=
  p.onto (p.finish p.state)

def preCode (p : Processor) : Except ProcessorError String :=
  p.preInitialization p.state

def postCode (p : Processor) : Except ProcessorError String :=
  p.postInitialization p.state

def currentReferences (p : Processor) : List String :=
  p.references p.state

def currentImports (p : Processor) : List String :=
  p.imports p.state

end Processor

end Templating
