import Templating.FileTree

/-!
# Sandboxes

Directories in which compiled modules run. A sandbox takes a bounded number of loads, then a fresh one
replaces it; it is removed when its last handle is released.
-/

namespace Templating

structure Sandbox where
  id : Nat
  uses : Nat
  handles : Nat
deriving DecidableEq, Repr

/-- One reserved load in a sandbox. -/
structure SandboxHandle where
  sandbox : Nat
  load : Nat
deriving DecidableEq, Repr

structure Recycler where
  maxUses : Nat
  current : Option Sandbox := none
  /-- Sandboxes that took all their loads and still have handles. -/
  retired : List Sandbox := []
  nextId : Nat := 0
  created : Nat := 0
deriving DecidableEq, Repr

namespace Recycler

def defaultMaxUses : Nat := 20

/-- Every sandbox takes at least one load. -/
def new (maxUses : Nat) : Recycler :=
  { maxUses := max maxUses 1 }

def live (r : Recycler) : List Sandbox :=
  r.current.toList ++ r.retired

def liveCount (r : Recycler) : Nat :=
  r.live.length

def isLive (r : Recycler) (id : Nat) : Bool :=
  r.live.any (·.id == id)

/-- Reserves a load in a sandbox with room for one, and retires it if it was the last. -/
def reserve (r : Recycler) (s : Sandbox) : SandboxHandle × Recycler :=
  let s := { s with uses := s.uses + 1, handles := s.handles + 1 }
  let handle := ⟨s.id, s.uses⟩
  if r.maxUses ≤ s.uses then (handle, { r with current := none, retired := r.retired ++ [s] })
  else (handle, { r with current := some s })

/-- Takes the current sandbox or a fresh one. `directory` is how making a fresh directory ends. -/
def acquire (r : Recycler) (directory : Except FileError Unit) :
    Except FileError SandboxHandle × Recycler :=
  match r.current with
  | some s =>
    let (h, r) := r.reserve s
    (.ok h, r)
  | none =>
    match directory with
    | .error e => (.error e, r)
    | .ok () =>
      let (h, r') := { r with nextId := r.nextId + 1, created := r.created + 1 }.reserve
        ⟨r.nextId, 0, 0⟩
      (.ok h, r')

def dropHandle (s : Sandbox) : Sandbox :=
  { s with handles := s.handles - 1 }

/-- Releases one handle of a sandbox among others. -/
def releaseIn (id : Nat) : List Sandbox → List Sandbox
  | [] => []
  | s :: r =>
    if s.id = id then
      let s := dropHandle s
      if s.handles = 0 then r else s :: r
    else s :: releaseIn id r

def release (r : Recycler) (id : Nat) : Recycler :=
  match r.current with
  | some s =>
    if s.id = id then { r with current := (releaseIn id [s]).head? }
    else { r with retired := releaseIn id r.retired }
  | none => { r with retired := releaseIn id r.retired }

end Recycler

/-- The file name of the module loaded under a handle. -/
def SandboxHandle.fileName (h : SandboxHandle) : String :=
  "module-" ++ toString h.load

end Templating
