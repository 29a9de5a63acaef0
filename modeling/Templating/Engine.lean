import Templating.DirectiveRouting
import Templating.Execution

/-!
# The engine

From template text to output: parse, route the directives, generate a unit, compile it and run it. A
stage that reports an error ends the run. What the engine does to its surroundings on the way is listed
as effects, in order.
-/

namespace Templating

inductive Stage
  | idle
  | tokenizing
  | parsing
  | directiveProcessing
  | codeGenerating
  | compiling
  | executing
  | done
deriving DecidableEq, Repr

/-- Stages that end a run before the module is executed. -/
def Stage.isBeforeExecution : Stage → Bool
  | .executing | .done => false
  | _ => true

structure CompileRequest where
  source : String
  parameters : CompilerParameters
deriving DecidableEq, Repr

inductive Effect
  | setExtension (ext : String)
  | setEncoding (e : Encoding)
  | compile (request : CompileRequest)
  | execute
  | log (ds : Diagnostics)
deriving DecidableEq, Repr

/-- The end of a run that either has a result or stopped at a stage. -/
structure RunResult (α : Type) where
  result : Except Stage α
  diagnostics : Diagnostics

namespace RunResult

def failedStage? {α : Type} (r : RunResult α) : Option Stage :=
  match r.result with
  | .ok _ => none
  | .error s => some s

def value? {α : Type} (r : RunResult α) : Option α :=
  match r.result with
  | .ok a => some a
  | .error _ => none

end RunResult

structure PreprocessedTemplate where
  language : String
  references : List String
  source : String
deriving DecidableEq, Repr

structure Preparation where
  unit : GeneratedUnit
  settings : TemplateSettings
  references : List String

/-- A run with what it did. -/
structure EngineRun (α : Type) where
  outcome : Outcome (RunResult α)
  effects : List Effect
  recycler : Recycler

namespace Engine

/-! ## Preparing -/

/-- Every reference as the host resolves it, each once. -/
def resolveReferences (host : Host) (names : List String) : List String :=
  GeneratedUnit.distinct (names.map host.resolveReference)

def parseStage (ds : Diagnostics) : Stage :=
  if ds.any (·.code == "TT1001") then .tokenizing else .parsing

def unitDiagnostic (templateFile : Option String) (e : UnitError) : Diagnostic :=
  .error "TT3003" ("failed to generate transformation: " ++ (Failure.ofUnit e).message)
    (.whole templateFile)

/-- All that comes before compilation. -/
def prepare (files : FileTree) (host : Host) (text : String) (kind : UnitKind) :
    RunResult Preparation :=
  let t := Template.ofText files host.includes host.templateFile text
  if t.errors.hasErrors then ⟨.error (parseStage t.errors), t.errors⟩
  else
    let (settings, settingsReport) := TemplateSettings.ofTemplate t
    let (code, routingReport) := Routing.ofTemplate host t
    let ds := t.errors ++ settingsReport ++ routingReport
    if ds.hasErrors then ⟨.error .directiveProcessing, ds⟩
    else
      let references := resolveReferences host
        (host.standardReferences ++ settings.references ++ code.references)
      let input : UnitInput :=
        { template := t, settings, code
          imports := host.standardImports ++ settings.imports
          templateFile := host.templateFile }
      match GeneratedUnit.generate input kind with
      | .error e => ⟨.error .codeGenerating, ds ++ [unitDiagnostic host.templateFile e]⟩
      | .ok unit => ⟨.ok { unit, settings, references }, ds⟩

/-! ## Compiler messages -/

/-- Whether a message is about a file of the unit's name. -/
def concernsUnit (m : CompilerMessage) (source : Path) : Bool :=
  match m.file.bind fun f => (Path.mk f).name? with
  | some name => source.name? == some name
  | none => false

/-- A message as a diagnostic of the template. Inside the unit its place is looked up; a place that
came from no template is told in the text. -/
def ofCompilerMessage (source : Path) (unit : GeneratedUnit) (root : Option String)
    (m : CompilerMessage) : Outcome Diagnostic :=
  let inUnit := concernsUnit m source && 0 < m.line
  let place := if inUnit then unit.lineMap.locate m.line m.column else .value none
  place.map fun place =>
  { severity := if m.isWarning then .warning else .error
    code := if m.code.isEmpty then "TT3000" else m.code
    message :=
      if inUnit ∧ place.isNone then
        m.text ++ " (generated line " ++ toString m.line ++ ")"
      else m.text
    location := match place with
      | some l => some (l.orIn root)
      | none => some (.whole root) }

/-! ## Running -/

def settingEffects (s : TemplateSettings) : List Effect :=
  (s.extension?.map Effect.setExtension).toList ++ (s.encoding?.map Effect.setEncoding).toList

/-- The module's directory: that of the template, if there is one. -/
def workingDirectory (files : FileTree) (templateFile : Option String) : Option Path :=
  (templateFile.bind fun f => (Path.mk f).parent?).filter files.isDirectory

/-- From the compiler's answer to the end of the run. -/
def finish (files : FileTree) (recycler : Recycler) (fresh : Except FileError Unit) (host : Host)
    (p : Preparation) (ds : Diagnostics) (effects : List Effect)
    (answer : Except Failure CompilerResult) : EngineRun String :=
  let root := host.templateFile
  let ended (result : Except Stage String) (ds : Diagnostics) (effects : List Effect)
      (recycler : Recycler) : EngineRun String :=
    ⟨.value ⟨result, ds⟩, effects ++ [.log ds], recycler⟩
  match answer with
  | .error e =>
    ended (.error .compiling)
      (ds ++ [.error "TT5003" ("failed to compile template: " ++ e.message) (.whole root)])
      effects recycler
  | .ok results =>
    match Outcome.all (results.messages.map (ofCompilerMessage results.sourcePath p.unit root)) with
    | .aborted => ⟨.aborted, effects, recycler⟩
    | .value reported =>
    let ds := ds ++ reported
    let noModule (ds : Diagnostics) :=
      let ds := if ds.hasErrors then ds
        else ds ++ [.error "TT3001" "compiler produced no module" (.whole root)]
      ended (.error .compiling) ds effects recycler
    match results.module? with
    | none => noModule ds
    | some m =>
      if results.hasErrors then noModule ds
      else
        let (outcome, recycler) := Execution.run files recycler fresh m host.session
          (workingDirectory files root) root
        let ds := ds ++ outcome.diagnostics
        match outcome.output with
        | some output =>
          if outcome.diagnostics.hasErrors then
            ended (.error .executing) ds (effects ++ [.execute]) recycler
          else ended (.ok output) ds (effects ++ [.execute]) recycler
        | none => ended (.error .executing) ds (effects ++ [.execute]) recycler

/-- Processes a template all the way to its output. `fresh` is how making a fresh sandbox ends, should
one be needed. -/
def process (compiler : Compiler) (files : FileTree) (recycler : Recycler) (host : Host)
    (text : String) (fresh : Except FileError Unit := .ok ()) : EngineRun String :=
  let prepared := prepare files host text .executable
  match prepared.result with
  | .error stage =>
    ⟨.value ⟨.error stage, prepared.diagnostics⟩, [.log prepared.diagnostics], recycler⟩
  | .ok p =>
    let request : CompileRequest :=
      ⟨p.unit.source, { references := p.references, debugInformation := p.settings.debug }⟩
    let effects := settingEffects p.settings ++ [.compile request]
    match compiler.compile request.source request.parameters with
    | .aborted => ⟨.aborted, effects, recycler⟩
    | .value answer => finish files recycler fresh host p prepared.diagnostics effects answer

/-- The language that preprocessed templates are written in. -/
def language : String := "Rust"

/-- Generates a module of the given name and leaves it at that. -/
def preprocess (files : FileTree) (recycler : Recycler) (host : Host)
    (text className namespace_ : String) : EngineRun PreprocessedTemplate :=
  let prepared := prepare files host text (.preprocessed className namespace_)
  let result := prepared.result.map fun p =>
    { language := language, references := p.references, source := p.unit.source }
  ⟨.value ⟨result, prepared.diagnostics⟩, [.log prepared.diagnostics], recycler⟩

end Engine

end Templating
