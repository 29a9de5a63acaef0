/-!
# Outcomes

How an operation ends: with a value, or by giving up altogether, which no caller can handle.
-/

namespace Templating

inductive Outcome (α : Type)
  | value (a : α)
  | aborted
deriving DecidableEq, Repr

namespace Outcome

def map {α β : Type} (f : α → β) : Outcome α → Outcome β
  | value a => value (f a)
  | aborted => aborted

def bind {α β : Type} (o : Outcome α) (f : α → Outcome β) : Outcome β :=
  match o with
  | value a => f a
  | aborted => aborted

instance : Monad Outcome where
  pure := value
  bind := bind

/-- The values of a list of outcomes, if all of them have one. -/
def all {α : Type} : List (Outcome α) → Outcome (List α)
  | [] => value []
  | o :: os => o.bind fun a => (all os).map (a :: ·)

def isAborted {α : Type} : Outcome α → Bool
  | value _ => false
  | aborted => true

end Outcome

end Templating
