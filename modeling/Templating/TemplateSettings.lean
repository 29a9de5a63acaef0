import Templating.Encoding
import Templating.Identifier
import Templating.Template

/-!
# Template settings

What the built-in directives of a template ask for. Directives are read in order and later ones win;
what cannot be understood is reported and otherwise ignored.
-/

namespace Templating

/-- A value that the template takes from its session. -/
structure Parameter where
  name : String
  type : String
  location : Location
deriving DecidableEq, Repr

structure TemplateSettings where
  debug : Bool := false
  linePragmas : Bool := true
  hostSpecific : Bool := false
  isInternal : Bool := false
  extension? : Option String := none
  encoding? : Option Encoding := none
  imports : List String := []
  references : List String := []
  parameters : List Parameter := []
deriving DecidableEq, Repr

namespace TemplateSettings

/-- Settings together with what there is to report on them. -/
abbrev Reading := TemplateSettings × Diagnostics

def report (r : Reading) (d : Diagnostic) : Reading :=
  (r.1, r.2 ++ [d])

def boolean (key value : String) (current : Bool) (d : Directive) : Bool × Diagnostics :=
  match Text.lower (Text.trim value) with
  | "true" => (true, [])
  | "false" => (false, [])
  | _ => (current,
      [.warning "TT2003" ("attribute '" ++ key ++ "' expects true or false, got '" ++ value ++ "'")
        d.start])

/-- An attribute that must be there and not blank. -/
def required (d : Directive) (key : String) : Except Diagnostic String :=
  match (d.attribute? key).map Text.trim with
  | some value => if value.isEmpty then missing else .ok value
  | none => missing
where
  missing : Except Diagnostic String :=
    .error (.error "TT2007"
      (Text.lower d.name ++ " directive requires a '" ++ key ++ "' attribute") d.start)

/-- Attributes that concern a processor and not the template. -/
def routingAttributes : List String :=
  ["processor", "requires", "provides"]

def readTemplateAttribute (d : Directive) (r : Reading) (a : String × String) : Reading :=
  let key := a.1
  let value := a.2
  let s := r.1
  match Text.lower key with
  | "language" =>
    if Text.sameIgnoringCase (Text.trim value) "rust" then r
    else report r (.error "TT2004"
      ("template language '" ++ value ++ "' is not supported; templates embed Rust") d.start)
  | "debug" =>
    let b := boolean key value s.debug d
    ({ s with debug := b.1 }, r.2 ++ b.2)
  | "linepragmas" =>
    let b := boolean key value s.linePragmas d
    ({ s with linePragmas := b.1 }, r.2 ++ b.2)
  | "hostspecific" =>
    if Text.sameIgnoringCase value "truefrombase" then ({ s with hostSpecific := true }, r.2)
    else
      let b := boolean key value s.hostSpecific d
      ({ s with hostSpecific := b.1 }, r.2 ++ b.2)
  | "visibility" =>
    match Text.lower value with
    | "public" => ({ s with isInternal := false }, r.2)
    | "internal" => ({ s with isInternal := true }, r.2)
    | _ => report r (.warning "TT2003"
        ("unknown visibility '" ++ value ++ "'; expected public or internal") d.start)
  | "inherits" =>
    report r (.warning "TT2005"
      ("inherits=\"" ++ value ++ "\" is not supported and was ignored") d.start)
  | other =>
    if routingAttributes.contains other then r
    else report r (.warning "TT2003"
      ("unknown attribute '" ++ key ++ "' in template directive") d.start)

def readTemplate (d : Directive) (r : Reading) : Reading :=
  d.attributes.foldl (readTemplateAttribute d) r

def readOutput (d : Directive) (r : Reading) : Reading :=
  let s := match d.attribute? "extension" with
    | some ext => { r.1 with extension? := some ext }
    | none => r.1
  match d.attribute? "encoding" with
  | none => (s, r.2)
  | some name =>
    match Encoding.ofName? name with
    | some e => ({ s with encoding? := some e }, r.2)
    | none => report (s, r.2) (.warning "TT2003"
        ("unknown output encoding '" ++ name ++ "'; utf-8 is used") d.start)

def parameterType (d : Directive) : String :=
  match (d.attribute? "type").map Text.trim with
  | some type => if type.isEmpty then "String" else type
  | none => "String"

def readParameter (d : Directive) (r : Reading) : Reading :=
  match required d "name" with
  | .error e => report r e
  | .ok name =>
    if Identifier.isValid name then
      ({ r.1 with parameters := r.1.parameters ++ [⟨name, parameterType d, d.start⟩] }, r.2)
    else report r (.error "TT2006"
      ("parameter name '" ++ name ++ "' is not a valid identifier") d.start)

def readImport (d : Directive) (r : Reading) : Reading :=
  match required d "namespace" with
  | .error e => report r e
  | .ok import_ => ({ r.1 with imports := r.1.imports ++ [import_] }, r.2)

def readAssembly (d : Directive) (r : Reading) : Reading :=
  match required d "name" with
  | .error e => report r e
  | .ok reference => ({ r.1 with references := r.1.references ++ [reference] }, r.2)

def readDirective (r : Reading) (d : Directive) : Reading :=
  match Text.lower d.name with
  | "template" => readTemplate d r
  | "output" => readOutput d r
  | "import" => readImport d r
  | "assembly" => readAssembly d r
  | "parameter" => readParameter d r
  | _ => r

def ofTemplate (t : Template) : Reading :=
  t.directives.foldl readDirective ({}, [])

end TemplateSettings

end Templating
