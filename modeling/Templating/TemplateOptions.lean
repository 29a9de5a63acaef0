import Templating.Document.Json
import Templating.Failure

/-!
# Options of a template

What is settled for a single template, in a file that stands beside it: what kind of output it has,
where the output goes, and what makes the template run again.
-/

namespace Templating

inductive OutputKind
  /-- The text that the template writes. -/
  | text
  /-- A module that can write the text. -/
  | textGenerator
  | unknown
deriving DecidableEq, Repr

structure TemplateOptions where
  /-- Whether a compilation of code is to start the template. -/
  onCompilation : Bool := false
  /-- Whether a change of a watched path is to start the template. -/
  onAssetChange : Bool := false
  /-- Milliseconds that a change has to rest. -/
  triggerDelay : Nat := 500
  outputKind : OutputKind := .text
  outputPath : Option Path := none
  watchedPaths : List Path := []
deriving DecidableEq, Repr

namespace OutputKind

def name : OutputKind → String
  | .text => "Text"
  | .textGenerator => "TextGenerator"
  | .unknown => "Unknown"

def ofName (name : String) : OutputKind :=
  if name = "Text" then .text else if name = "TextGenerator" then .textGenerator else .unknown

/-- A kind is given by its name, or by a table with nothing under its name. -/
def ofDocument? : Document → Option OutputKind
  | .text name => some (ofName name)
  | .table [(some name, .null)] => some (ofName name)
  | _ => none

end OutputKind

namespace TemplateOptions

/-- Shorter delays are raised to this one. -/
def minimalDelay : Nat := 500

def triggerFields : List String :=
  ["codeCompilation", "assetChanges"]

/-- The two triggers. -/
def triggers? (d : Document) : Option (Bool × Bool) := do
  let fields ← d.fields? triggerFields false
  return (← fields.get? "codeCompilation" Document.boolean? false,
    ← fields.get? "assetChanges" Document.boolean? false)

def fieldNames : List String :=
  ["generationTriggers", "triggerDelayMs", "outputType", "outputPath", "watchedPaths"]

def ofDocument? (d : Document) : Option TemplateOptions := do
  let fields ← d.fields? fieldNames false
  let (onCompilation, onAssetChange) ←
    fields.get? "generationTriggers" triggers? (false, false)
  return {
    onCompilation
    onAssetChange
    triggerDelay := max minimalDelay
      (← fields.get? "triggerDelayMs" Document.natural? minimalDelay)
    outputKind := ← fields.get? "outputType" OutputKind.ofDocument? .text
    outputPath := ← fields.get? "outputPath" (Document.optional? Document.path?) none
    watchedPaths := ← fields.get? "watchedPaths" (Document.list? Document.path?) [] }

/-- The file beside a template that holds its options. -/
def sidecar (template : Path) : Path :=
  ⟨template.text ++ ".settings.json"⟩

/-- The options of a template. Without a file they are the default ones. -/
def load (files : FileTree) (template : Path) : Except Failure TemplateOptions :=
  let p := sidecar template
  if files.isFile p then
    match files.readText p with
    | .error e => .error (.ofFile e)
    | .ok text =>
      match (Document.Json.read? text).bind ofDocument? with
      | some o => .ok o
      | none => .error (.config ("failed to parse " ++ p.text))
  else .ok {}

/-- The options of a template, or the default ones if its file cannot be used. -/
def loadOrDefault (files : FileTree) (template : Path) : TemplateOptions :=
  match load files template with
  | .ok o => o
  | .error _ => {}

/-- What a change of starts the template: itself, its options and, if assets count, the watched paths,
seen from the template's directory. -/
def triggerInputs (o : TemplateOptions) (template : Path) : List Path :=
  let assets := if o.onAssetChange then
      o.watchedPaths.map ((template.parent?.getD ⟨""⟩).join ·)
    else []
  [template, sidecar template] ++ assets

end TemplateOptions

end Templating
