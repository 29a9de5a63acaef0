import Templating.CommandLine

/-!
# The program

The command line over the files below the working directory: they are read into a file tree, and what a
command changed is written back. No compiler can be started from here, so templates can be preprocessed
but not run.
-/

namespace Templating.Main

def shop : Workshop where
  tools := { workspace := ⟨"/templating-workspace"⟩, run? := fun _ _ => none }
  staging := ⟨"/templating-staging"⟩

/-- Adds a directory and all below it. What cannot be read is left out. -/
partial def addDirectory (names : List String) (t : FileTree) : IO FileTree := do
  let path ← IO.FS.realPath (FileTree.pathOf names).text
  let mut t := t.put names .directory
  for e in ← path.readDir do
    let names := names ++ [e.fileName]
    t ← try
        let info ← e.path.metadata
        match info.type with
        | .dir => addDirectory names t
        | .file =>
          let bytes ← IO.FS.readBinFile e.path
          let stamp := info.modified.sec.toNat * 1000000000 + info.modified.nsec.toNat
          pure (t.put names (.file bytes stamp))
        | _ => pure t
      catch _ => pure t
  return t

def load : IO FileTree := do
  let here ← IO.currentDir
  let names := (Text.split here.toString '/').filter fun n => !n.isEmpty
  addDirectory names { workingDirectory := names }

/-- Writes what is in a tree and not, or not so, in an earlier one. -/
def store (before after : FileTree) : IO Unit := do
  for (names, e) in after.entries do
    let path := (FileTree.pathOf names).text
    match e, before.lookup names with
    | .directory, none => IO.FS.createDirAll path
    | .directory, some _ => pure ()
    | .file bytes _, some (.file old _) => if bytes != old then IO.FS.writeBinFile path bytes
    | .file bytes _, _ => IO.FS.writeBinFile path bytes

/-- Prints what a command wrote and gives its exit code; a command that gave up has one of its own. -/
def finish : Outcome CommandResult → IO UInt32
  | .aborted => return 101
  | .value r => do
    IO.print r.output
    IO.eprint r.errors
    return r.exitCode.toUInt32

/-- Milliseconds between two rounds of a watch. -/
def pollInterval : UInt32 := 250

partial def watch (w : CommandLine.Watch) : IO UInt32 := do
  let before ← load
  let (outcome, w, after) := w.round shop before (← IO.monoMsNow)
  store before after
  let code ← finish outcome
  if outcome.isAborted then return code
  IO.sleep pollInterval
  watch w

end Templating.Main

open Templating in
def main (args : List String) : IO UInt32 := do
  let before ← Main.load
  let (outcome, after) := CommandLine.execute Main.shop before args
  Main.store before after
  let code ← Main.finish outcome
  match args with
  | "watch" :: rest =>
    match CommandLine.task before rest with
    | .ok task => Main.watch { task }
    | .error _ => return code
  | _ => return code
