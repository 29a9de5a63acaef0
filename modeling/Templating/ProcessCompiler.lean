import Templating.Compiler
import Templating.Dictionary
import Templating.Reference

/-!
# Compiling with a process

A compiler that is a program of its own. It gets its arguments in a response file, one on a line, and
works in a temporary directory; what it prints is read for messages, its error output first. A module
counts only if the program succeeded and the module's file is there.
-/

namespace Templating

structure CompilerOptions where
  program : Path := ⟨"rustc"⟩
  /-- Seconds to keep an idle compiler, for compilers that can wait. -/
  timeToLive : Nat := 0
  /-- Seconds to wait for the compiler; without them the wait is unbounded. -/
  timeout : Option Nat := none
  warnAsError : Bool := false
  options : Dictionary := {}
deriving DecidableEq

/-- What a process has printed. -/
structure Printed where
  stderr : ByteArray := .empty
  stdout : ByteArray := .empty

/-- What a compiler process does. It ends after its delay, in milliseconds, and builds only then. -/
structure ToolRun where
  delay : Nat := 0
  stdout : ByteArray := .empty
  stderr : ByteArray := .empty
  /-- What it has printed after so many milliseconds of its delay. -/
  soFar : (milliseconds : Nat) → Printed := fun _ => {}
  binary : Option Binary := none
  extraFiles : List String := []
  status : ExitStatus := .exited 0

/-- Where compilations take place, the seconds that the clock shows then, where a program with a bare
name is found, and what the programs do with a response file. A program goes by the names that lead to
its file; other files are none. -/
structure Toolchain where
  workspace : Path
  clock : Nat := 0
  search : (name : String) → Except FileError (List String) := fun _ => .error .notFound
  run? : (program : List String) → (responseFile : String) → Option ToolRun

namespace ProcessCompiler

/-! ## Arguments -/

def referenceArguments (r : Reference) : List String :=
  match r.path with
  | some p => ["--extern", r.name ++ "=" ++ p.text]
  | none => ["--extern", r.name]

/-- The directories of the references, each once. -/
def addDirectory (dirs : List Path) (r : Reference) : List Path :=
  match r.path.bind Path.parent? with
  | none => dirs
  | some dir => if dir.text.isEmpty ∨ dirs.any (·.same dir) then dirs else dirs ++ [dir]

/-- The lines of an option that lists arguments. -/
def listedArguments (text : String) : List String :=
  ((Text.lines text).map Text.trim).filter fun line => !line.isEmpty

def arguments (o : CompilerOptions) (source output : Path) (ps : CompilerParameters) :
    List String :=
  let references := ps.references.map Reference.ofText
  [source.text,
    "--crate-name=texttransform_unit",
    "--crate-type=" ++ (if ps.executable then "bin" else "lib"),
    "--edition=" ++ (o.options.get? "edition").getD "2021",
    "--error-format=short",
    "-o",
    output.text] ++
  [if ps.debugInformation then "-Cdebuginfo=2" else "-Copt-level=1"] ++
  (if o.warnAsError then ["-Dwarnings"] else []) ++
  references.flatMap referenceArguments ++
  (references.foldl addDirectory []).map (fun dir => "-Ldependency=" ++ dir.text) ++
  ((o.options.get? "extra-args").map listedArguments).getD [] ++
  ps.extraOptions

def responseFile (args : List String) : String :=
  Text.join "\n" args

/-! ## Running -/

def sourcePath (workspace : Path) : Path :=
  workspace.join ⟨"unit.rs"⟩

def outputPath (workspace : Path) (ps : CompilerParameters) : Path :=
  if ps.executable then workspace.join ⟨ps.outputName⟩
  else workspace.join ⟨"lib" ++ ps.outputName ++ ".rlib"⟩

def put (t : FileTree) (p : Path) (bytes : ByteArray) : FileTree :=
  match t.write p bytes with
  | .ok t' => t'
  | .error _ => t

/-- The files with a workspace in which the compiler is about to start. -/
def staged (files : FileTree) (workspace : Path) (source args : String) : FileTree :=
  let empty := (files.makeDirectories workspace).1
  let written := put (put empty (sourcePath workspace) source.toUTF8)
    (workspace.join ⟨"unit.args"⟩) args.toUTF8
  put (put written (workspace.join ⟨"rustc.stdout"⟩) .empty)
    (workspace.join ⟨"rustc.stderr"⟩) .empty

/-- Starts a program in a workspace. -/
def start (tools : Toolchain) (files : FileTree) (program : Path) (args : String) :
    Except FileError ToolRun := do
  let here := (Text.split tools.workspace.text '/').filter (· ≠ "")
  let names ← { files with workingDirectory := here }.program program tools.search
  match tools.run? names args with
  | some run => return run
  | none => throw .permissionDenied

/-- The files after a run that was not cut short. -/
def filesAfter (files : FileTree) (workspace output : Path) (run : ToolRun) : FileTree :=
  let printed := put (put files (workspace.join ⟨"rustc.stdout"⟩) run.stdout)
    (workspace.join ⟨"rustc.stderr"⟩) run.stderr
  let built := match run.binary with
    | some _ => put printed output .empty
    | none => printed
  run.extraFiles.foldl (fun t f => put t (workspace.join ⟨f⟩) .empty) built

def findSymbols (t : FileTree) (output : Path) : Option Path :=
  [output.withPlainExtension "pdb", ⟨output.text ++ ".dSYM"⟩].find? t.exists?

/-- Output that is no text counts as none. -/
def printedLines (bytes : ByteArray) : List String :=
  Text.lines ((Text.decode? bytes).getD "")

def readOutput (sourcePath : Path) (printed : Printed) : CompilerResult :=
  let lines := printedLines printed.stderr ++ printedLines printed.stdout
  { messages := lines.filterMap CompilerMessage.ofLine?, output := lines, sourcePath }

def timedOut (sourcePath : Path) (seconds : Nat) (run : ToolRun) : CompilerResult :=
  let read := readOutput sourcePath (run.soFar (seconds * 1000))
  { read with
    messages := read.messages ++ [.error "TT3002"
      ("compiler did not finish within " ++ toString seconds ++ " seconds")]
    returnValue := -1 }

def finished (workspace : Path) (files : FileTree) (ps : CompilerParameters) (run : ToolRun) :
    CompilerResult :=
  let output := outputPath workspace ps
  let read := readOutput (sourcePath workspace) ⟨run.stderr, run.stdout⟩
  let messages :=
    if !run.status.succeeded ∧ !read.hasErrors then
      read.messages ++ [.error "TT3001" ("compiler exited with " ++ run.status.text)]
    else read.messages
  let files := filesAfter files workspace output run
  { read with
    messages
    returnValue := match run.status.code? with
      | some code => code
      | none => -1
    module? :=
      if run.status.succeeded ∧ files.exists? output then
        some
          { path := output
            symbols := findSymbols files output
            references := ps.references.filterMap fun r => (Reference.ofText r).path
            workspace
            binary := run.binary.getD .notExecutable }
      else none }

/-- The first second that the clock cannot show. A deadline has to come before it. -/
def endOfTime : Nat := 0x8000000000000000

def compile (o : CompilerOptions) (tools : Toolchain) (files : FileTree) (source : String)
    (ps : CompilerParameters) : Outcome (Except Failure CompilerResult) :=
  let sourcePath := sourcePath tools.workspace
  let args := responseFile (arguments o sourcePath (outputPath tools.workspace ps) ps)
  let files := staged files tools.workspace source args
  match start tools files o.program args with
  | .error e =>
    .value (.error (.io ("failed to start compiler " ++ o.program.text ++ ": " ++ e.message)))
  | .ok run =>
    match o.timeout with
    | none => .value (.ok (finished tools.workspace files ps run))
    | some seconds =>
      if endOfTime ≤ tools.clock + seconds then .aborted
      else if seconds * 1000 ≤ run.delay then .value (.ok (timedOut sourcePath seconds run))
      else .value (.ok (finished tools.workspace files ps run))

def compiler (o : CompilerOptions) (tools : Toolchain) (files : FileTree) : Compiler :=
  ⟨compile o tools files⟩

end ProcessCompiler

end Templating
