import Templating.Document.Toml
import Templating.Failure
import Templating.ProcessCompiler

/-!
# Tool settings

Settings that hold for all templates of a directory, kept in a file beside them. A directory without
the file has the default settings.
-/

namespace Templating

structure CompilerSettings where
  path : String := "rustc"
  edition : String := "2021"
  warnAsError : Bool := false
  /-- Seconds to keep an idle compiler. -/
  timeToLive : Nat := 60
  timeout : Option Nat := none
  extraArguments : List String := []
  options : Dictionary := {}
deriving DecidableEq

structure ToolSettings where
  includePaths : List Path := []
  excludePaths : List Path := []
  referencePaths : List Path := []
  references : List String := []
  imports : List String := []
  parameters : Dictionary := {}
  verbose : Bool := false
  compiler : CompilerSettings := {}
deriving DecidableEq

namespace CompilerSettings

def fieldNames : List String :=
  ["path", "edition", "warn_as_error", "server_time_to_live_secs", "timeout_secs", "extra_args",
    "options"]

/-- Reads the settings; `open_` as for the fields of any record. -/
def ofDocument? (open_ : Bool) (d : Document) : Option CompilerSettings := do
  let fields ← d.fields? fieldNames open_
  return {
    path := ← fields.get? "path" Document.text? "rustc"
    edition := ← fields.get? "edition" Document.text? "2021"
    warnAsError := ← fields.get? "warn_as_error" Document.boolean? false
    timeToLive := ← fields.get? "server_time_to_live_secs" Document.natural? 60
    timeout := ← fields.get? "timeout_secs" (Document.optional? Document.natural?) none
    extraArguments := ← fields.get? "extra_args" (Document.list? Document.text?) []
    options := ← fields.get? "options" Document.dictionary? {} }

/-- The options under their names. The edition is no option if an option of that name is given; the
extra arguments, one on a line, replace an option of theirs. -/
def namedOptions (s : CompilerSettings) : Dictionary :=
  let withEdition :=
    if (s.options.get? "edition").isSome then s.options else s.options.insert "edition" s.edition
  if s.extraArguments.isEmpty then withEdition
  else withEdition.insert "extra-args" (Text.join "\n" s.extraArguments)

def compilerOptions (s : CompilerSettings) : CompilerOptions where
  program := ⟨s.path⟩
  timeToLive := s.timeToLive
  timeout := s.timeout
  warnAsError := s.warnAsError
  options := s.namedOptions

end CompilerSettings

namespace ToolSettings

/-- The file that holds the settings of a directory. -/
def fileName : String := "texttransform.toml"

def fieldNames : List String :=
  ["include_paths", "exclude_paths", "reference_paths", "references", "imports", "parameters",
    "verbose", "compiler"]

def ofDocument? (open_ : Bool) (d : Document) : Option ToolSettings := do
  let fields ← d.fields? fieldNames open_
  return {
    includePaths := ← fields.get? "include_paths" (Document.list? Document.path?) []
    excludePaths := ← fields.get? "exclude_paths" (Document.list? Document.path?) []
    referencePaths := ← fields.get? "reference_paths" (Document.list? Document.path?) []
    references := ← fields.get? "references" (Document.list? Document.text?) []
    imports := ← fields.get? "imports" (Document.list? Document.text?) []
    parameters := ← fields.get? "parameters" Document.dictionary? {}
    verbose := ← fields.get? "verbose" Document.boolean? false
    compiler := ← fields.get? "compiler" (CompilerSettings.ofDocument? open_) {} }

/-- Whether a path is one of the excluded ones or lies under one. -/
def isExcluded (s : ToolSettings) (p : Path) : Bool :=
  s.excludePaths.any p.isUnder

def unreadable (p : Path) : Failure :=
  .config ("failed to parse " ++ p.text)

def read (files : FileTree) (p : Path) : Except Failure ToolSettings :=
  match files.readText p with
  | .error e => .error (.ofFile e)
  | .ok text =>
    match (Document.Toml.read? text).bind (ofDocument? true) with
    | some s => .ok s
    | none => .error (unreadable p)

/-- The settings of a directory. -/
def load (files : FileTree) (directory : Path) : Except Failure ToolSettings :=
  let p := directory.join ⟨fileName⟩
  if files.isFile p then read files p else .ok {}

end ToolSettings

end Templating
