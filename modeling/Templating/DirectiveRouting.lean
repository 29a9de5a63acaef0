import Templating.GeneratedUnit
import Templating.Host
import Templating.RequiresProvides

/-!
# Routing directives

Every directive that is not built in goes to a processor, named by its `processor` attribute or implied
by a requires or provides list. A processor is started at its first directive, takes its directives in
source order, and is finished and asked for its code when all directives are done.
-/

namespace Templating

structure ActiveProcessor where
  name : String
  processor : Processor

/-- The state between two directives. -/
structure Routing where
  active : List ActiveProcessor := []
  code : DirectiveCode := {}
  diagnostics : Diagnostics := []

namespace Routing

def report (r : Routing) (code message : String) (l : Location) : Routing :=
  { r with diagnostics := r.diagnostics ++ [.error code message l] }

/-- Where a directive belongs. -/
inductive Route
  | processor (name : String)
  | builtIn
  | nowhere
deriving DecidableEq, Repr

def route (d : Directive) : Route :=
  match d.attribute? "processor" with
  | some name => .processor (Text.trim name)
  | none =>
    if d.hasAttribute "requires" || d.hasAttribute "provides" then
      .processor RequiresProvides.processorName
    else if d.isBuiltIn then .builtIn
    else .nowhere

def resolve (host : Host) (name : String) : Except String Processor :=
  if Text.sameIgnoringCase name RequiresProvides.processorName then
    .ok RequiresProvides.sessionProcessor
  else host.resolveProcessor name

/-- Hands a directive to the first processor of that name; `none` if there is none. -/
def hand (values : ParameterLookup) (name : String) (d : Directive) :
    List ActiveProcessor → Option (Except ProcessorError String × List ActiveProcessor)
  | [] => none
  | p :: r =>
    if Text.sameIgnoringCase p.name name then
      let (answer, q) := p.processor.processDirective values d
      some (answer, { p with processor := q } :: r)
    else (hand values name d r).map fun x => (x.1, p :: x.2)

/-- Records what a processor made of the directive at an index. -/
def record (r : Routing) (index : Nat) (l : Location) : Except ProcessorError String → Routing
  | .ok fragment =>
    { r with code := { r.code with occurrences := r.code.occurrences ++ [(index, fragment)] } }
  | .error e => r.report "TT2002" e.message l

def process (host : Host) (r : Routing) (name : String) (index : Nat) (d : Directive)
    (l : Location) : Routing :=
  match hand host.parameter name d r.active with
  | some (answer, active) => { r with active : Routing }.record index l answer
  | none =>
    match resolve host name with
    | .error message => r.report "TT2001" message l
    | .ok p =>
      match p.startRun with
      | (.error e, _) => r.report "TT2002" e.message l
      | (.ok (), p) =>
        let (answer, p) := p.processDirective host.parameter d
        let started : ActiveProcessor := ⟨name, p⟩
        { r with active := r.active ++ [started] : Routing }.record index l answer

def step (host : Host) (root : Option String) (r : Routing) (s : Segment × Nat) : Routing :=
  match s.1 with
  | .text _ => r
  | .directive d =>
    let l := d.start.orIn root
    match route d with
    | .builtIn => r
    | .nowhere => r.report "TT2001" ("directive '" ++ d.name ++ "' has no processor") l
    | .processor name => r.process host name s.2 d l

/-- The part of the code that a processor gives, if it gives it. -/
def part (r : Routing) (l : Location) (answer : Except ProcessorError String)
    (add : DirectiveCode → String → DirectiveCode) : Routing :=
  match answer with
  | .ok fragment => { r with code := add r.code fragment }
  | .error e => r.report "TT2002" e.message l

/-- Finishes a processor and takes its code. -/
def finish (root : Option String) (r : Routing) (p : ActiveProcessor) : Routing :=
  let q := p.processor.finishRun
  let l := Location.whole root
  let r := r.part l q.preCode fun c f => { c with preInitialization := c.preInitialization ++ f }
  let r := r.part l q.postCode fun c f => { c with postInitialization := c.postInitialization ++ f }
  { r with
    code := { r.code with
      references := r.code.references ++ q.currentReferences
      imports := r.code.imports ++ q.currentImports } }

def ofTemplate (host : Host) (t : Template) : DirectiveCode × Diagnostics :=
  let r := t.segments.zipIdx.foldl (step host t.root) {}
  let r := r.active.foldl (finish t.root) r
  (r.code, r.diagnostics)

end Routing

end Templating
