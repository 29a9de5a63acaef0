import Templating.Arguments
import Templating.Identifier
import Templating.Processor
import Templating.Text.Quoted

/-!
# Requires and provides

A processor for directives that list the values they require and provide. Required values must be
found, provided ones may be; the code that uses them comes from a generator. The built-in generator
puts the values into the session and binds the keys that are identifiers to locals.
-/

namespace Templating

/-- The part of a requires/provides processor that writes code. Each code function gives the text to
append. -/
structure CodeGenerator where
  friendlyName : String
  initializeRequires : (directive : String) → Arguments → Arguments := fun _ a => a
  initializeProvides : (directive : String) → Arguments → Arguments := fun _ a => a
  uniqueId : (directive : String) → Directive → (requires provides : Arguments) → String :=
    fun name _ _ _ => name
  postProcess : (directive : String) → (requires provides : Arguments) → Arguments × Arguments :=
    fun _ r p => (r, p)
  preInitialization : (directive : String) → (requires provides : Arguments) → String
  postInitialization : (directive : String) → (requires provides : Arguments) → String
  transform : (directive : String) → (requires provides : Arguments) → String

namespace RequiresProvides

/-- The name the built-in processor goes by. -/
def processorName : String := "RequiresProvides"

structure Run where
  running : Bool := false
  pre : String := ""
  post : String := ""
deriving DecidableEq, Repr

/-- Every required key with the value found for it, or else its own; the first key without any value
fails. -/
def resolveRequired (lookup : String → Option String) : Arguments → Except ProcessorError Arguments
  | [] => .ok []
  | a :: r =>
    match lookup a.key <|> a.value with
    | none => .error (.unresolvedRequired a.key)
    | some v => (resolveRequired lookup r).map (⟨a.key, some v⟩ :: ·)

def resolveProvided (lookup : String → Option String) (args : Arguments) : Arguments :=
  args.map fun a => { a with value := lookup a.key <|> a.value }

/-- The requires and provides lists of a directive, with all values in place. -/
def resolve (g : CodeGenerator) (values : ParameterLookup) (d : Directive) :
    Except ProcessorError (Arguments × Arguments) := do
  let provides := g.initializeProvides d.name (((d.attribute? "provides").map Arguments.parse).getD [])
  let requires := g.initializeRequires d.name (((d.attribute? "requires").map Arguments.parse).getD [])
  let id := g.uniqueId d.name d requires provides
  let lookup := values (some id) (some g.friendlyName)
  let required ← resolveRequired lookup requires
  return g.postProcess d.name required (resolveProvided lookup provides)

def start (g : CodeGenerator) (r : Run) : Except ProcessorError Unit × Run :=
  if r.running then (.error (.alreadyProcessing g.friendlyName), r) else (.ok (), { running := true })

def process (g : CodeGenerator) (values : ParameterLookup) (d : Directive) (r : Run) :
    Except ProcessorError String × Run :=
  if r.running then
    match resolve g values d with
    | .error e => (.error e, r)
    | .ok (requires, provides) =>
      (.ok (g.transform d.name requires provides),
        { r with
          pre := r.pre ++ g.preInitialization d.name requires provides
          post := r.post ++ g.postInitialization d.name requires provides })
  else (.error (.notProcessing g.friendlyName), r)

def finish (r : Run) : Run :=
  { r with running := false }

/-- Code can only be read between runs. -/
def code (g : CodeGenerator) (part : Run → String) (r : Run) : Except ProcessorError String :=
  if r.running then .error (.alreadyProcessing g.friendlyName) else .ok (part r)

def processor (g : CodeGenerator) : Processor where
  State := Run
  state := {}
  friendlyName := g.friendlyName
  start := start g
  process := process g
  finish := finish
  preInitialization := code g Run.pre
  postInitialization := code g Run.post

/-! ## Session values -/

def storeValue (a : Argument) : String :=
  match a.value with
  | some v => "self.set_session_value(" ++ Text.quote a.key ++ ", " ++ Text.quote v ++ ");\n"
  | none => ""

def bindValue (a : Argument) : String :=
  if Identifier.isValid a.key then
    "let " ++ a.key ++ ": String = self.session_value(" ++ Text.quote a.key
      ++ ").unwrap_or_default().to_string();\n"
  else ""

/-- Required values come from the lookup alone; what the directive itself says of them is dropped. -/
def sessionGenerator : CodeGenerator where
  friendlyName := processorName
  initializeRequires _ args := args.map fun a => { a with value := none }
  preInitialization _ _ _ := ""
  postInitialization _ requires provides := String.join ((requires ++ provides).map storeValue)
  transform _ requires provides := String.join ((requires ++ provides).map bindValue)

def sessionProcessor : Processor :=
  processor sessionGenerator

end RequiresProvides

end Templating
