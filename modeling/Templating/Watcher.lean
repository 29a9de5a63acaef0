import Templating.Scheduler
import Templating.TemplateOptions

/-!
# Watching templates

A watcher remembers how the files looked that a template depends on. When it looks again and something
is different, the template is scheduled; a template whose file is gone is not.
-/

namespace Templating

/-- A file as it looked, under the components of its path. -/
structure Fingerprint where
  path : List Path.Component
  size : Nat
  stamp : Nat
deriving DecidableEq

structure WatchedTemplate where
  path : Path
  options : TemplateOptions
  fingerprints : List Fingerprint

structure Watcher where
  templates : List WatchedTemplate := []
  scheduler : Scheduler Path := {}

namespace Fingerprint

def ofFound (f : FileTree.Found) : Fingerprint :=
  ⟨f.path.components, f.size, f.stamp⟩

/-- Adds a fingerprint; an earlier one of the same path gives way. -/
def add (l : List Fingerprint) (f : Fingerprint) : List Fingerprint :=
  l.filter (fun g => g.path ≠ f.path) ++ [f]

/-- The fingerprints of all files at or below some paths. -/
def collect (files : FileTree) (paths : List Path) : List Fingerprint :=
  ((paths.flatMap files.filesUnder).map ofFound).foldl add []

/-- Whether two lists hold the same fingerprints, in whatever order. -/
def same (a b : List Fingerprint) : Bool :=
  a.length = b.length && a.all b.contains

end Fingerprint

/-- How a template and its inputs look now. -/
def WatchedTemplate.look (files : FileTree) (template : Path) : WatchedTemplate :=
  let options := TemplateOptions.loadOrDefault files template
  { path := template
    options
    fingerprints := Fingerprint.collect files (options.triggerInputs template) }

namespace Watcher

def find? (w : Watcher) (p : Path) : Option WatchedTemplate :=
  w.templates.find? (·.path.same p)

def tracked (w : Watcher) : Nat :=
  w.templates.length

/-- Starts to watch a template; tells whether it was not watched before. -/
def track (w : Watcher) (files : FileTree) (p : Path) : Bool × Watcher :=
  match w.find? p with
  | some _ => (false, w)
  | none => (true, { w with templates := w.templates ++ [.look files p] })

/-- Stops watching a template and takes its pending run back; tells whether it was watched. -/
def untrack (w : Watcher) (p : Path) : Bool × Watcher :=
  match w.find? p with
  | none => (false, w)
  | some t =>
    (true,
      { templates := w.templates.filter fun t => !t.path.same p
        scheduler := (w.scheduler.cancel t.path).2 })

def delay? (w : Watcher) (p : Path) : Option Nat :=
  (w.find? p).map (·.options.triggerDelay)

/-- What a second look at a template shows. -/
inductive Change
  | unchanged
  | changed
  | gone
deriving DecidableEq

def examine (files : FileTree) (t : WatchedTemplate) : Change × WatchedTemplate :=
  let current := WatchedTemplate.look files t.path
  if Fingerprint.same current.fingerprints t.fingerprints then (.unchanged, t)
  else if files.isFile t.path then (.changed, current)
  else (.gone, current)

def note (now : Nat) (s : Scheduler Path) (seen : Change × WatchedTemplate) : Scheduler Path :=
  match seen.1 with
  | .unchanged => s
  | .changed => s.schedule now seen.2.path seen.2.options.triggerDelay
  | .gone => (s.cancel seen.2.path).2

/-- Looks at all templates again and schedules those that changed; tells how many. -/
def poll (w : Watcher) (files : FileTree) (now : Nat) : Nat × Watcher :=
  let seen := w.templates.map (examine files)
  (seen.countP (·.1 = .changed),
    { templates := seen.map (·.2), scheduler := seen.foldl (note now) w.scheduler })

def pending (w : Watcher) : Nat :=
  w.scheduler.pending

/-- The next template that is ready to run. -/
def receive (w : Watcher) : Option Path × Watcher :=
  let (p, scheduler) := w.scheduler.receive
  (p, { w with scheduler })

/-- As `receive`, after a wait until `limit` at most. -/
def await (w : Watcher) (now limit : Nat) : Option Path × Nat × Watcher :=
  let (p, time, scheduler) := w.scheduler.await now (some limit)
  (p, time, { w with scheduler })

end Watcher

end Templating
