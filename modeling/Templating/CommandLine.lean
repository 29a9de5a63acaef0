import Templating.CommandArguments
import Templating.Generation
import Templating.TemplateSearch
import Templating.Watcher

/-!
# The command line

Commands over a file tree. A command writes lines to its output and its error output, changes files,
and fails or not. Watching has no end of its own; it goes on in rounds.
-/

namespace Templating

structure CommandResult where
  output : String := ""
  errors : String := ""
  failed : Bool := false
deriving DecidableEq, Repr

/-- What commands work with besides files: a compiler's surroundings, and a path for staging. -/
structure Workshop where
  tools : Toolchain
  staging : Path

namespace CommandResult

def writeLine (r : CommandResult) (line : String) : CommandResult :=
  { r with output := r.output ++ line ++ "\n" }

/-- Writes to the error output, unless there is nothing to write. -/
def complain (r : CommandResult) (text : String) : CommandResult :=
  if text.isEmpty then r else { r with errors := r.errors ++ text ++ "\n" }

def fail (r : CommandResult) : CommandResult :=
  { r with failed := true }

/-- The end of a command that could not do its work. -/
def ofFailure (f : Failure) : CommandResult :=
  { errors := f.message ++ "\n", failed := true }

def exitCode (r : CommandResult) : Nat :=
  if r.failed then 1 else 0

end CommandResult

namespace CommandLine

def help : String := "texttransform

USAGE:
  texttransform <COMMAND>

COMMANDS:
  process <template.tt> [-o <output>] [OPTIONS]
  preprocess <template.tt> [--class <Name>] [--namespace <a.b>] [-o <output.rs>] [OPTIONS]
  run <template.tt|dir> [OPTIONS]
  watch <template.tt|dir> [OPTIONS]
  help

OPTIONS:
  -p [processor!directive!]name=value
  -I <include dir>
  -r <reference>
  -P <reference dir>
  --settings <texttransform.toml>
  -v, --verbose

  -h, --help"

/-! ## Preparing a command -/

/-- The directory whose settings hold for a target. -/
def settingsDirectory (files : FileTree) (target : Path) : Path :=
  let here := FileTree.pathOf files.workingDirectory
  if files.isDirectory target then target
  else match target.parent? with
    | some dir => if dir.text.isEmpty then here else dir
    | none => here

def settings (files : FileTree) (a : CommandArguments) (target : Path) :
    Except Failure ToolSettings :=
  match a.settings with
  | some p => ToolSettings.read files p
  | none => ToolSettings.load files (settingsDirectory files target)

def existingTarget (files : FileTree) (a : CommandArguments) : Except Failure Path :=
  match a.target with
  | none => .error (.invalidArgument "missing template path")
  | some p => if files.exists? p then .ok p else .error (.invalidPath p.text)

def addParameters (g : Generator) : List String → Except Failure Generator
  | [] => .ok g
  | raw :: rest =>
    match CommandArguments.parseParameter raw with
    | .ok (key, value) => addParameters (g.addParameter key value) rest
    | .error e => .error e

def generator (s : ToolSettings) (a : CommandArguments) : Except Failure Generator :=
  let g := Generator.ofSettings s
  addParameters
    { g with
      includePaths := g.includePaths ++ a.includePaths
      referencePaths := g.referencePaths ++ a.referencePaths
      references := g.references ++ a.references }
    a.parameters

/-- A command whose arguments are in order. -/
structure Task where
  arguments : CommandArguments
  target : Path
  settings : ToolSettings
  generator : Generator

def parseTarget (files : FileTree) (args : List String) :
    Except Failure (CommandArguments × Path × ToolSettings) := do
  let a ← CommandArguments.parse args
  let target ← existingTarget files a
  return (a, target, ← settings files a target)

def task (files : FileTree) (args : List String) : Except Failure Task :=
  match parseTarget files args with
  | .error e => .error e
  | .ok (a, target, s) =>
    match generator s a with
    | .error e => .error e
    | .ok g => .ok { arguments := a, target, settings := s, generator := g }

def Task.compiler (t : Task) (tools : Toolchain) (files : FileTree) : Compiler :=
  ProcessCompiler.compiler t.settings.compiler.compilerOptions tools files

/-- The templates of the target: itself, or those of the directory. -/
def Task.templates (t : Task) (files : FileTree) : List Path :=
  if files.isDirectory t.target then TemplateSearch.find files t.target t.settings else [t.target]

/-! ## Commands for one file -/

/-- Reports on a file written, or not. -/
def reportFile (r : Outcome Bool × Generation) : Outcome CommandResult × FileTree :=
  let (outcome, w) := r
  let report := ({} : CommandResult).complain w.generator.errors.render
  (outcome.map fun written =>
    if written then
      match w.generator.outputFile with
      | some p => report.writeLine p.text
      | none => report
    else report.fail, w.files)

def process (shop : Workshop) (files : FileTree) (t : Task) : Outcome CommandResult × FileTree :=
  let w : Generation := { generator := t.generator, files }
  reportFile (w.process (t.compiler shop.tools files) t.target t.arguments.output)

def preprocess (files : FileTree) (t : Task) : Outcome CommandResult × FileTree :=
  let w : Generation := { generator := t.generator, files }
  let name := t.arguments.className.getD (ClassName.ofTemplate t.target)
  reportFile (w.preprocess t.target name (t.arguments.namespace_.getD "") t.arguments.output)

/-! ## Runs -/

def statusText : RunStatus → String
  | .success => "generated"
  | .noChanges => "unchanged"
  | .unknownOutputType => "unknown output type"
  | .processingError => "processing failed"
  | .compilationError => "compilation failed"

/-- Runs one template and reports on it. -/
def runTemplate (shop : Workshop) (compiler : Compiler) (w : Generation) (r : CommandResult)
    (template : Path) : Outcome CommandResult × Generation :=
  match w.run compiler shop.staging template with
  | (.aborted, w) => (.aborted, w)
  | (.value status, w) =>
    let r := r.complain w.generator.errors.render
    let r := r.writeLine (template.text ++ ": " ++ statusText status)
    (.value (if status.succeeded then r else r.fail), w)

/-- Runs templates one after the other. A failure does not keep the others from running. -/
def runTemplates (shop : Workshop) (compiler : Compiler) :
    Generation → CommandResult → List Path → Outcome CommandResult × Generation
  | w, r, [] => (.value r, w)
  | w, r, p :: rest =>
    match runTemplate shop compiler w r p with
    | (.aborted, w) => (.aborted, w)
    | (.value r, w) => runTemplates shop compiler w r rest

def run (shop : Workshop) (files : FileTree) (t : Task) : Outcome CommandResult × FileTree :=
  let (outcome, w) := runTemplates shop (t.compiler shop.tools files)
    { generator := t.generator, files } {} (t.templates files)
  (outcome, w.files)

/-! ## Watching -/

/-- A watch under way. -/
structure Watch where
  task : Task
  watcher : Watcher := {}

/-- Begins to watch the templates that are not watched yet, and gives them. -/
def trackAll (files : FileTree) (watcher : Watcher) (templates : List Path) :
    List Path × Watcher :=
  templates.foldl (fun (acc : List Path × Watcher) p =>
    match acc.2.track files p with
    | (true, w) => (acc.1 ++ [p], w)
    | (false, w) => (acc.1, w)) ([], watcher)

/-- One round: new templates run at once, changed ones when they have come to rest. -/
def Watch.round (shop : Workshop) (files : FileTree) (now : Nat) (w : Watch) :
    Outcome CommandResult × Watch × FileTree :=
  let (fresh, watcher) := trackAll files w.watcher (w.task.templates files)
  let (_, watcher) := watcher.poll files now
  let (ready, watcher) := { watcher with scheduler := watcher.scheduler.pass now }.receive
  let (outcome, g) := runTemplates shop (w.task.compiler shop.tools files)
    { generator := w.task.generator, files } {} (fresh ++ ready.toList)
  (outcome, { task := { w.task with generator := g.generator }, watcher }, g.files)

def watchBanner (t : Task) : CommandResult :=
  ({} : CommandResult).writeLine ("watching " ++ t.target.text)

/-! ## All commands -/

inductive Command
  | help
  | process
  | preprocess
  | run
  | watch
deriving DecidableEq, Repr

def Command.ofName? : String → Option Command
  | "-h" | "--help" | "help" => some .help
  | "process" => some .process
  | "preprocess" => some .preprocess
  | "run" => some .run
  | "watch" => some .watch
  | _ => none

/-- Does what a command line asks for. A watch ends here before its first round. -/
def execute (shop : Workshop) (files : FileTree) (args : List String) :
    Outcome CommandResult × FileTree :=
  let helped : CommandResult := ({} : CommandResult).writeLine help
  let withTask (rest : List String) (act : Task → Outcome CommandResult × FileTree) :
      Outcome CommandResult × FileTree :=
    match task files rest with
    | .ok t => act t
    | .error e => (.value (.ofFailure e), files)
  match args with
  | [] => (.value helped, files)
  | name :: rest =>
    match Command.ofName? name with
    | none => (.value (.ofFailure (.invalidArgument ("unknown command " ++ name))), files)
    | some .help => (.value helped, files)
    | some .process => withTask rest (process shop files)
    | some .preprocess => withTask rest (preprocess files)
    | some .run => withTask rest (run shop files)
    | some .watch => withTask rest fun t => (.value (watchBanner t), files)

end CommandLine

end Templating
