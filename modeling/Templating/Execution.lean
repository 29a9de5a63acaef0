import Templating.Compiler
import Templating.Reply
import Templating.Sandbox
import Templating.Session

/-!
# Execution

Running a compiled module in a sandbox. The module gets the session on its standard input and writes
its reply to a file; whatever goes wrong becomes a diagnostic of the template.
-/

namespace Templating

structure ExecutionOutcome where
  output : Option String := none
  diagnostics : Diagnostics := []
deriving DecidableEq, Repr

def ExecutionOutcome.succeeded (o : ExecutionOutcome) : Bool :=
  o.output.isSome && !o.diagnostics.hasErrors

namespace Execution

def failure (l : Location) (text : String) : ExecutionOutcome :=
  { diagnostics := [.error "TT4001" text l] }

/-- The last line of the error output, without blanks around it. -/
def lastLine (stderr : ByteArray) : String :=
  Text.trim ((Text.lines (Text.decodeLossy stderr)).getLast?.getD "")

def withoutReply (l : Location) (run : ModuleRun) : ExecutionOutcome :=
  let text := "transformation process exited with " ++ run.status.text ++ " and no reply"
  let detail := lastLine run.stderr
  failure l (if detail.isEmpty then text else text ++ ": " ++ detail)

def missingEntries (l : Location) (r : Reply) : Diagnostics :=
  ([Reply.initializeEntry, Reply.transformEntry].filter fun e => !r.hasEntry e).map fun e =>
    .error "TT4002" ("template must have operation " ++ e) l

def ofMessage (l : Location) (m : Message) : Diagnostic :=
  if m.isWarning then .warning "TT4004" m.text l else .error "TT4003" m.text l

def ofReply (l : Location) (r : Reply) : ExecutionOutcome :=
  let missing := missingEntries l r
  if missing.isEmpty then ⟨r.output, r.messages.map (ofMessage l)⟩ else { diagnostics := missing }

/-- What a process amounts to. The reply of a finished one counts, however it ended. -/
def ofRun (l : Location) (run : ModuleRun) : ExecutionOutcome :=
  match run.fault with
  | some e => failure l ("failed to run compiled template: " ++ e)
  | none =>
    match run.reply.bind Text.decode? with
    | some text => ofReply l (Reply.parse text)
    | none => withoutReply l run

/-- What keeps a process from starting in a directory. -/
def startError? (files : FileTree) (directory : Option Path) (b : Binary) : Option FileError :=
  directory.bind files.enterError? <|> match b with
    | .missing => some .notFound
    | .notExecutable => some .permissionDenied
    | .program _ => none

/-- Loads and runs a module. Without a directory it runs in its sandbox. -/
def execute (files : FileTree) (m : CompiledModule) (session : Dictionary) (directory : Option Path)
    (l : Location) : ExecutionOutcome :=
  match m.binary with
  | .missing =>
    failure l ("failed to load compiled template: " ++ (Failure.ofFile .notFound).message)
  | b =>
    match startError? files directory b with
    | some e => failure l ("failed to run compiled template: " ++ e.message)
    | none =>
      match b with
      | .program run => ofRun l (run (Session.render session))
      | _ => failure l ("failed to run compiled template: " ++ FileError.permissionDenied.message)

/-- Runs a module in a sandbox of the recycler and gives the sandbox back. -/
def run (files : FileTree) (recycler : Recycler) (fresh : Except FileError Unit) (m : CompiledModule)
    (session : Dictionary) (directory : Option Path) (templateFile : Option String) :
    ExecutionOutcome × Recycler :=
  let l := Location.whole templateFile
  match recycler.acquire fresh with
  | (.error e, r) =>
    (failure l ("failed to create execution sandbox: " ++ (Failure.ofFile e).message), r)
  | (.ok handle, r) => (execute files m session directory l, r.release handle.sandbox)

end Execution

end Templating
