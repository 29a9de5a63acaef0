import Templating.Engine
import Templating.ToolSettings

/-!
# Generators

A generator holds what all its runs share, where to look for included texts and references, parameters
and processors, and what the last run left behind. As a host it answers from files: includes are looked
up beside the template first, then in the include paths.
-/

namespace Templating

/-- What a parameter is for. One for no processor and no directive is for all of them. -/
structure ParameterKey where
  processor : Option String := none
  directive : Option String := none
  name : String
deriving DecidableEq, Repr

def ParameterKey.isGlobal (k : ParameterKey) : Bool :=
  k.processor.isNone && k.directive.isNone

structure Generator where
  recycler : Recycler := .new Recycler.defaultMaxUses
  includePaths : List Path := []
  referencePaths : List Path := []
  references : List String := []
  imports : List String := []
  /-- The latest first. -/
  parameters : List (ParameterKey × String) := []
  /-- By lower-case names, the latest first. -/
  processors : List (String × Processor) := []
  templateFile : Option String := none
  extension : Option String := none
  encoding : Encoding := .utf8
  outputFile : Option Path := none
  failedStage : Option Stage := none
  errors : Diagnostics := []

namespace Generator

/-! ## Configuration -/

def addIncludePath (g : Generator) (p : Path) : Generator :=
  { g with includePaths := g.includePaths ++ [p] }

def addReferencePath (g : Generator) (p : Path) : Generator :=
  { g with referencePaths := g.referencePaths ++ [p] }

def addReference (g : Generator) (reference : String) : Generator :=
  { g with references := g.references ++ [reference] }

def addImport (g : Generator) (path : String) : Generator :=
  { g with imports := g.imports ++ [path] }

def addParameter (g : Generator) (key : ParameterKey) (value : String) : Generator :=
  { g with parameters := (key, value) :: g.parameters }

def registerProcessor (g : Generator) (name : String) (p : Processor) : Generator :=
  { g with processors := (Text.lower name, p) :: g.processors }

/-- A generator configured by tool settings. -/
def ofSettings (s : ToolSettings) : Generator :=
  s.parameters.entries.foldl (fun g e => g.addParameter { name := e.1 } e.2)
    { includePaths := s.includePaths
      referencePaths := s.referencePaths
      references := s.references
      imports := s.imports }

/-! ## Looking things up -/

def parameter? (g : Generator) (key : ParameterKey) : Option String :=
  g.parameters.lookup key

/-- The value for this very processor and directive, or else the global one. -/
def resolveParameter (g : Generator) : ParameterLookup := fun directive processor name =>
  g.parameter? { processor, directive, name } <|> g.parameter? { name }

/-- The global parameters. -/
def session (g : Generator) : Dictionary :=
  .ofList (g.parameters.reverse.filterMap fun e =>
    if e.1.isGlobal then some (e.1.name, e.2) else none)

def resolveProcessor (g : Generator) (name : String) : Except String Processor :=
  match g.processors.lookup (Text.lower name) with
  | some p => .ok p
  | none => .error ("directive processor '" ++ name ++ "' is not registered")

def templateDirectory (g : Generator) : Option Path :=
  g.templateFile.bind fun f => (Path.mk f).parent?

/-- A path as seen from the template's directory. -/
def resolvePath (g : Generator) (files : FileTree) (path : String) : String :=
  let p : Path := ⟨path⟩
  if p.isAbsolute then path
  else
    let joined := match g.templateDirectory with
      | some dir => dir.join p
      | none => p
    (files.canonicalOr joined).text

/-- The file names that a reference may stand for. -/
def referenceFileNames (name : String) : List String :=
  [name, "lib" ++ name ++ ".rlib", name ++ ".rlib"]

/-- The file of a reference: the first of its file names in the first reference path that has one, or
else a file of its very name. What is found nowhere is handed on as it is. -/
def resolveReference (g : Generator) (files : FileTree) (reference : String) : String :=
  let name := Text.trim reference
  if '=' ∈ name.toList ∨ (Path.mk name).isAbsolute then name
  else
    let candidates := g.referencePaths.flatMap fun dir =>
      (referenceFileNames name).map fun file => dir.join ⟨file⟩
    match candidates.find? files.isFile with
    | some p => p.text
    | none =>
      if files.isFile ⟨name⟩ then (files.canonicalOr ⟨name⟩).text else name

/-! ## Included texts -/

/-- Where a requested text may be, in the order of preference. -/
def includeCandidates (g : Generator) (files : FileTree) (request : String) : List Path :=
  let p : Path := ⟨request⟩
  ⟨g.resolvePath files request⟩ ::
    if p.isAbsolute then [] else g.includePaths.map (·.join p)

/-- A requested text under its canonical name. -/
def loadInclude (g : Generator) (files : FileTree) (request : String) : Option Include :=
  match (g.includeCandidates files request).find? files.isFile with
  | none => none
  | some p =>
    match files.readTemplate p with
    | .ok content => some ⟨content, (files.canonicalOr p).text⟩
    | .error _ => none

theorem name_mem_of_loadInclude {g : Generator} {files : FileTree} {request : String}
    {i : Include} (h : g.loadInclude files request = some i) : i.name ∈ files.fileNames := by
  unfold loadInclude at h
  split at h
  · cases h
  · next p hp =>
    split at h
    · cases h
      exact files.canonicalOr_mem_fileNames (List.find?_some hp)
    · cases h

def includes (g : Generator) (files : FileTree) : IncludeSource where
  load := g.loadInclude files
  names := files.fileNames
  name_mem := name_mem_of_loadInclude

def host (g : Generator) (files : FileTree) : Host where
  templateFile := g.templateFile
  standardReferences := g.references
  standardImports := g.imports
  includes := g.includes files
  resolveReference := g.resolveReference files
  parameter := g.resolveParameter
  resolveProcessor := g.resolveProcessor
  resolvePath := g.resolvePath files
  session := g.session

/-! ## What a run sets -/

/-- Sets the extension of the output, without blanks around it and dots in front. -/
def setExtension (g : Generator) (ext : String) : Generator :=
  { g with extension := some (String.ofList ((Text.trim ext).toList.dropWhile (· = '.'))) }

def setEncoding (g : Generator) (e : Encoding) : Generator :=
  { g with encoding := e }

def log (g : Generator) (ds : Diagnostics) : Generator :=
  { g with errors := g.errors ++ ds }

def hasErrors (g : Generator) : Bool :=
  g.errors.hasErrors

/-- What an effect of the engine means to the generator. -/
def observe (g : Generator) : Effect → Generator
  | .setExtension ext => g.setExtension ext
  | .setEncoding e => g.setEncoding e
  | .log ds => g.log ds
  | .compile _ | .execute => g

end Generator

end Templating
