import Templating.ClassName
import Templating.Digest
import Templating.Generator
import Templating.TemplateOptions

/-!
# Generating files

A generator at work on a file tree. Templates are processed or preprocessed into files; a run follows
the options of its template: it works in a staging directory and changes the target only if the content
differs. A write that breaks off leaves a part of the file behind.
-/

namespace Templating

/-- A generator and the files around it. -/
structure Generation where
  generator : Generator
  files : FileTree

/-- How the run of a template ends. -/
inductive RunStatus
  | success
  /-- The target already holds the output. -/
  | noChanges
  | unknownOutputType
  /-- The template was compiled, but failed later. -/
  | processingError
  | compilationError
deriving DecidableEq, Repr

def RunStatus.succeeded : RunStatus → Bool
  | .success | .noChanges => true
  | _ => false

/-- What goes wrong when a run writes: with the file that it stages, and with its target. -/
structure RunFaults where
  staged : Option WriteFault := none
  target : Option WriteFault := none

namespace Generation

/-- The extension of output whose template asks for none. -/
def defaultExtension : String := "txt"

/-- The extension of preprocessed templates. -/
def sourceExtension : String := "rs"

def report (w : Generation) (d : Diagnostic) : Generation :=
  { w with generator := w.generator.log [d] }

def place (w : Generation) : Location :=
  .whole w.generator.templateFile

/-! ## Steps of a run -/

/-- Forgets the last run and reads the template. -/
def start (w : Generation) (input : Path) : Option String × Generation :=
  let g := { w.generator with
    errors := []
    extension := none
    encoding := .utf8
    outputFile := none
    failedStage := none
    templateFile := some (w.files.canonicalOr input).text }
  match w.files.readTemplate input with
  | .ok text => (some text, { w with generator := g })
  | .error e =>
    let w := { w with generator := { g with failedStage := some .tokenizing } }
    (none, w.report (.error "TT5001" ("could not read template: " ++ e.message) w.place))

def reportWriteError (w : Generation) (target : Path) (e : FileError) : Generation :=
  w.report (.error "TT5002"
    ("could not write output file " ++ target.text ++ ": " ++ e.message) w.place)

def writeOutput (w : Generation) (target : Path) (bytes : ByteArray)
    (fault : Option WriteFault := none) : Bool × Generation :=
  match w.files.write target bytes fault with
  | .ok files => (true, { generator := { w.generator with outputFile := some target }, files })
  | .error e => (false, { w with files := e.files }.reportWriteError target e.error)

/-- Takes over what the engine did. The value is there if the run is free of errors. -/
def absorb {α : Type} (w : Generation) (run : EngineRun α) : Outcome (Option α) × Generation :=
  let g := run.effects.foldl Generator.observe { w.generator with recycler := run.recycler }
  match run.outcome with
  | .aborted => (.aborted, { w with generator := g })
  | .value r =>
    let w := { w with generator := { g with failedStage := r.failedStage? } }
    (.value (if w.generator.hasErrors then none else r.value?), w)

/-- Where the output goes: the extension is that of the template's output, if the template asks for
one. An extension cannot hold a slash. -/
def outputPath? (g : Generator) (input : Path) : Option Path → Option Path
  | some output =>
    match g.extension with
    | some ext => output.withExtension? ext
    | none => some output
  | none => input.withExtension? (g.extension.getD defaultExtension)

/-! ## Files from templates -/

/-- Processes a template and writes its output. Nothing is written if there is an error. -/
def process (w : Generation) (compiler : Compiler) (input : Path) (output : Option Path)
    (fresh : Except FileError Unit := .ok ()) (fault : Option WriteFault := none) :
    Outcome Bool × Generation :=
  match w.start input with
  | (none, w) => (.value false, w)
  | (some text, w) =>
    let g := w.generator
    match w.absorb (Engine.process compiler w.files g.recycler (g.host w.files) text fresh) with
    | (.aborted, w) => (.aborted, w)
    | (.value none, w) => (.value false, w)
    | (.value (some text), w) =>
      match outputPath? w.generator input output with
      | none => (.aborted, w)
      | some target =>
        let (written, w) := w.writeOutput target (w.generator.encoding.encode text) fault
        (.value written, w)

/-- Writes a template's module instead of running it. -/
def preprocess (w : Generation) (input : Path) (className namespace_ : String)
    (output : Option Path) (fault : Option WriteFault := none) : Outcome Bool × Generation :=
  match w.start input with
  | (none, w) => (.value false, w)
  | (some text, w) =>
    let g := w.generator
    match w.absorb
      (Engine.preprocess w.files g.recycler (g.host w.files) text className namespace_) with
    | (.aborted, w) => (.aborted, w)
    | (.value none, w) => (.value false, w)
    | (.value (some t), w) =>
      let target := output.getD (input.withPlainExtension sourceExtension)
      let (written, w) := w.writeOutput target t.source.toUTF8 fault
      (.value written, w)

/-! ## Runs -/

def digest? (files : FileTree) (p : Path) : Option String :=
  (files.read p).toOption.map Digest.ofBytes

def sameContent (files : FileTree) (p q : Path) : Bool :=
  match digest? files p with
  | some d => digest? files q == some d
  | none => false

/-- Brings a staged file to its target. -/
def deliver (w : Generation) (staged target : Path) (fault : Option WriteFault := none) :
    RunStatus × Generation :=
  let delivered (files : FileTree) : Generation :=
    { generator := { w.generator with outputFile := some target }, files }
  if sameContent w.files target staged then (.noChanges, delivered w.files)
  else
    let (files, refused) := match target.parent? with
      | some dir => if dir.text.isEmpty then (w.files, none) else w.files.makeDirectories dir
      | none => (w.files, none)
    let w := { w with files }
    match refused with
    | some e => (.processingError, w.reportWriteError target e)
    | none =>
      match files.copy staged target fault with
      | .ok files => (.success, delivered files)
      | .error e =>
        (.processingError, { w with files := e.files }.reportWriteError target e.error)

/-- The target that the options name, seen from the template's directory, or else the default. -/
def target (o : TemplateOptions) (template default : Path) : Path :=
  match o.outputPath with
  | none => default
  | some p =>
    match template.parent? with
    | some dir => dir.join p
    | none => p

def failureStatus (g : Generator) : RunStatus :=
  match g.failedStage with
  | some s => if s.isBeforeExecution then .compilationError else .processingError
  | none => .processingError

/-- The file name, without extension, of what a template is staged as. -/
def stagedStem (template : Path) : String :=
  template.stem?.getD "template"

def runText (w : Generation) (compiler : Compiler) (staging template : Path)
    (o : TemplateOptions) (fresh : Except FileError Unit := .ok ()) (faults : RunFaults := {}) :
    Outcome RunStatus × Generation :=
  match w.process compiler template (some (staging.join ⟨stagedStem template⟩)) fresh
    faults.staged with
  | (.aborted, w) => (.aborted, w)
  | (.value false, w) => (.value (failureStatus w.generator), w)
  | (.value true, w) =>
    match w.generator.outputFile with
    | none => (.value .processingError, w)
    | some staged =>
      let ext := staged.extension?.getD defaultExtension
      let (status, w) :=
        w.deliver staged (target o template (template.withPlainExtension ext)) faults.target
      (.value status, w)

def runTextGenerator (w : Generation) (staging template : Path) (o : TemplateOptions)
    (faults : RunFaults := {}) : Outcome RunStatus × Generation :=
  let staged := staging.join ⟨stagedStem template ++ "." ++ sourceExtension⟩
  match w.preprocess template (ClassName.ofTemplate template) "" (some staged) faults.staged with
  | (.aborted, w) => (.aborted, w)
  | (.value false, w) => (.value .compilationError, w)
  | (.value true, w) =>
    let default := template.withPlainExtension sourceExtension
    let (status, w) := w.deliver staged (target o template default) faults.target
    (.value status, w)

def runStaged (w : Generation) (compiler : Compiler) (staging template : Path)
    (o : TemplateOptions) (fresh : Except FileError Unit := .ok ()) (faults : RunFaults := {}) :
    Outcome RunStatus × Generation :=
  match o.outputKind with
  | .unknown => (.value .unknownOutputType, w)
  | .text => w.runText compiler staging template o fresh faults
  | .textGenerator => w.runTextGenerator staging template o faults

/-- Drops the staging directory. -/
def unstage (w : Generation) (staging : Path) : Generation :=
  match w.files.remove staging with
  | .ok files => { w with files }
  | .error _ => w

/-- Runs a template as its options say. `staging` is a path for the staging directory, which exists only
during the run. -/
def run (w : Generation) (compiler : Compiler) (staging template : Path)
    (fresh : Except FileError Unit := .ok ()) (faults : RunFaults := {}) :
    Outcome RunStatus × Generation :=
  let o := TemplateOptions.loadOrDefault w.files template
  match w.files.makeDirectory staging with
  | .error e =>
    let d : Diagnostic :=
      ⟨.error, "TT5002", "failed to create staging directory: " ++ e.message, none⟩
    (.value .processingError, w.report d)
  | .ok files =>
    let (outcome, w) := { w with files }.runStaged compiler staging template o fresh faults
    (outcome, w.unstage staging)

end Generation

end Templating
