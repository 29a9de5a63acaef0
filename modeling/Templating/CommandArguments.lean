import Templating.Failure
import Templating.Generator

/-!
# Command arguments

What follows a command: a target, flags with values, and parameters of the form `name=value` or
`processor!directive!name=value`.
-/

namespace Templating

structure CommandArguments where
  target : Option Path := none
  output : Option Path := none
  className : Option String := none
  namespace_ : Option String := none
  parameters : List String := []
  includePaths : List Path := []
  references : List String := []
  referencePaths : List Path := []
  settings : Option Path := none
  verbose : Bool := false
deriving DecidableEq, Repr

namespace CommandArguments

/-- What the value of a flag sets, if the flag takes one. -/
def setter? : (flag : String) → Option (CommandArguments → String → CommandArguments)
  | "-o" | "--out" => some fun a v => { a with output := some ⟨v⟩ }
  | "--class" => some fun a v => { a with className := some v }
  | "--namespace" => some fun a v => { a with namespace_ := some v }
  | "-p" => some fun a v => { a with parameters := a.parameters ++ [v] }
  | "-I" => some fun a v => { a with includePaths := a.includePaths ++ [⟨v⟩] }
  | "-r" => some fun a v => { a with references := a.references ++ [v] }
  | "-P" => some fun a v => { a with referencePaths := a.referencePaths ++ [⟨v⟩] }
  | "--settings" => some fun a v => { a with settings := some ⟨v⟩ }
  | _ => none

/-- Takes an argument that is no flag with a value. -/
def take (a : CommandArguments) (arg : String) : Except Failure CommandArguments :=
  if arg = "-v" ∨ arg = "--verbose" then .ok { a with verbose := true }
  else if Text.startsWith "-" arg then .error (.invalidArgument ("unknown flag " ++ arg))
  else if a.target.isNone then .ok { a with target := some ⟨arg⟩ }
  else .error (.invalidArgument ("unexpected argument " ++ arg))

def parseFrom (a : CommandArguments) : List String → Except Failure CommandArguments
  | [] => .ok a
  | [arg] =>
    match setter? arg with
    | some _ => .error (.invalidArgument (arg ++ " expects a value"))
    | none => a.take arg
  | arg :: value :: rest =>
    match setter? arg with
    | some set => parseFrom (set a value) rest
    | none =>
      match a.take arg with
      | .ok a => parseFrom a (value :: rest)
      | .error e => .error e

def parse (args : List String) : Except Failure CommandArguments :=
  parseFrom {} args

/-! ## Parameters -/

def nonEmpty? (part : String) : Option String :=
  let part := Text.trim part
  if part.isEmpty then none else some part

/-- What a parameter's key stands for. The processor or the directive may be left empty. -/
def key? (key : String) : Option ParameterKey :=
  match Text.split key '!' with
  | [name] => (nonEmpty? name).map fun name => { name }
  | [processor, directive, name] => (nonEmpty? name).map fun name =>
    { processor := nonEmpty? processor, directive := nonEmpty? directive, name }
  | _ => none

def parseParameter (raw : String) : Except Failure (ParameterKey × String) :=
  let malformed (form : String) : Except Failure (ParameterKey × String) :=
    .error (.invalidArgument ("parameter '" ++ raw ++ "' must look like " ++ form))
  match Text.cut raw '=' with
  | none => malformed "name=value"
  | some (key, value) =>
    match key? key with
    | some k => .ok (k, value)
    | none => malformed "[processor!directive!]name=value"

end CommandArguments

end Templating
