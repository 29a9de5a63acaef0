/-!
# Processes

How a process ends and what it leaves behind.
-/

namespace Templating

inductive ExitStatus
  | exited (code : Nat)
  | signaled (signal : Nat)
deriving DecidableEq, Repr

namespace ExitStatus

def succeeded : ExitStatus → Bool
  | .exited code => code == 0
  | .signaled _ => false

/-- The exit code; a signal leaves none. -/
def code? : ExitStatus → Option Nat
  | .exited code => some code
  | .signaled _ => none

def signalNames : List String :=
  ["SIGHUP", "SIGINT", "SIGQUIT", "SIGILL", "SIGTRAP", "SIGABRT", "SIGBUS", "SIGFPE", "SIGKILL",
    "SIGUSR1", "SIGSEGV", "SIGUSR2", "SIGPIPE", "SIGALRM", "SIGTERM", "SIGSTKFLT", "SIGCHLD",
    "SIGCONT", "SIGSTOP", "SIGTSTP", "SIGTTIN", "SIGTTOU", "SIGURG", "SIGXCPU", "SIGXFSZ",
    "SIGVTALRM", "SIGPROF", "SIGWINCH", "SIGIO", "SIGPWR", "SIGSYS"]

def text : ExitStatus → String
  | .exited code => "exit status: " ++ toString code
  | .signaled n =>
    "signal: " ++ toString n ++
      match if n = 0 then none else signalNames[n - 1]? with
      | some name => " (" ++ name ++ ")"
      | none => ""

end ExitStatus

/-- A run of a compiled module. -/
structure ModuleRun where
  reply : Option ByteArray := none
  stderr : ByteArray := .empty
  status : ExitStatus := .exited 0
  /-- What went wrong while the process was started, given its input or awaited. -/
  fault : Option String := none

/-- A module's file, and what its process does with a session. -/
inductive Binary
  | missing
  | notExecutable
  | program (run : (session : String) → ModuleRun)

end Templating
