/-!
# Scheduling with rest

Requests by key, each to become ready after a delay. A new request for a key takes the place of the one
before it, so a key that is asked for again and again becomes ready once, when it has come to rest. Ready
keys wait in a queue for their receiver.
-/

namespace Templating

structure Scheduler (κ : Type) where
  /-- The keys whose time is still to come, each once. -/
  deadlines : List (κ × Nat) := []
  queue : List κ := []
deriving Repr

namespace Scheduler

variable {κ : Type} [DecidableEq κ]

def without (s : Scheduler κ) (key : κ) : List (κ × Nat) :=
  s.deadlines.filter fun d => d.1 ≠ key

def deadline? (s : Scheduler κ) (key : κ) : Option Nat :=
  s.deadlines.lookup key

/-- How many keys wait for their time. -/
def pending (s : Scheduler κ) : Nat :=
  s.deadlines.length

/-- Asks for a key. Without a delay it is ready at once. -/
def schedule (s : Scheduler κ) (now : Nat) (key : κ) (delay : Nat) : Scheduler κ :=
  if delay = 0 then { deadlines := s.without key, queue := s.queue ++ [key] }
  else { s with deadlines := s.without key ++ [(key, now + delay)] }

/-- Takes a request back; tells whether there was one. -/
def cancel (s : Scheduler κ) (key : κ) : Bool × Scheduler κ :=
  ((s.deadline? key).isSome, { s with deadlines := s.without key })

/-- The requests whose time has come, the earliest first. -/
def due (s : Scheduler κ) (now : Nat) : List (κ × Nat) :=
  (s.deadlines.filter fun d => d.2 ≤ now).mergeSort fun a b => a.2 ≤ b.2

/-- One pass of the timer: what is due becomes ready. -/
def pass (s : Scheduler κ) (now : Nat) : Scheduler κ :=
  { deadlines := s.deadlines.filter fun d => now < d.2
    queue := s.queue ++ (s.due now).map (·.1) }

/-- The first ready key, if there is one. -/
def receive (s : Scheduler κ) : Option κ × Scheduler κ :=
  match s.queue with
  | [] => (none, s)
  | key :: rest => (some key, { s with queue := rest })

def earliest? (s : Scheduler κ) : Option Nat :=
  (s.deadlines.map (·.2)).min?

/-- The first ready key after a wait that may last until `limit`, and the time when the wait ends.
Nothing but the timer makes keys ready meanwhile. -/
def await (s : Scheduler κ) (now : Nat) (limit : Option Nat) : Option κ × Nat × Scheduler κ :=
  match s.queue with
  | key :: rest => (some key, now, { s with queue := rest })
  | [] =>
    let time := match s.earliest?, limit with
      | some t, some l => min t l
      | some t, none => t
      | none, some l => l
      | none, none => now
    let (key, s) := (s.pass (max now time)).receive
    (key, max now time, s)

end Scheduler

end Templating
