import Templating.Dictionary
import Templating.Path

/-!
# Settings documents

What a settings file says, whatever format it is written in: plain values, sequences and tables. A
record is read from a table by the names of its fields, or from a sequence by their order; a field that
is absent has its default. Values a record does not ask for are not looked at.
-/

namespace Templating

inductive Document
  | null
  | boolean (b : Bool)
  | natural (n : Nat)
  /-- A number that is not a natural one. -/
  | number
  | text (s : String)
  /-- A quoted text that is no text, since half a character is missing. -/
  | brokenText
  | sequence (items : List Document)
  /-- A broken key is `none`. -/
  | table (entries : List (Option String × Document))
deriving Inhabited

namespace Document

/-- Counts are kept in 64 bits. -/
def naturalBound : Nat := 0x10000000000000000

def boolean? : Document → Option Bool
  | .boolean b => some b
  | _ => none

def natural? : Document → Option Nat
  | .natural n => if n < naturalBound then some n else none
  | _ => none

def text? : Document → Option String
  | .text s => some s
  | _ => none

def path? (d : Document) : Option Path :=
  d.text?.map Path.mk

def list? {α : Type} (read : Document → Option α) : Document → Option (List α)
  | .sequence items => items.mapM read
  | _ => none

def optional? {α : Type} (read : Document → Option α) : Document → Option (Option α)
  | .null => some none
  | d => (read d).map some

def textEntry? (e : Option String × Document) : Option (String × String) :=
  match e.1, e.2.text? with
  | some k, some v => some (k, v)
  | _, _ => none

/-- A table of texts. Of two entries with one key the later counts. -/
def dictionary? : Document → Option Dictionary
  | .table entries => (entries.mapM textEntry?).map Dictionary.ofList
  | _ => none

/-! ## Records -/

/-- The fields that a document gives to a record. -/
abbrev Fields := List (String × Document)

def namedEntry? (e : Option String × Document) : Option (String × Document) :=
  e.1.map fun k => (k, e.2)

def hasRepeats : List String → Bool
  | [] => false
  | s :: r => r.contains s || hasRepeats r

/-- The fields of a record with the given names, no field twice. A sequence may be shorter than the
record, and longer only if `open_` says so. -/
def fields? (names : List String) (open_ : Bool) : Document → Option Fields
  | .table entries => do
    let named ← entries.mapM namedEntry?
    let known := named.filter fun e => names.contains e.1
    if hasRepeats (known.map (·.1)) then none else some known
  | .sequence items =>
    if names.length < items.length ∧ !open_ then none else some (names.zip items)
  | _ => none

/-- A field's value, or the default if the field is absent. -/
def Fields.get? {α : Type} (fields : Fields) (name : String) (read : Document → Option α)
    (default : α) : Option α :=
  match fields.lookup name with
  | some d => read d
  | none => some default

end Document

end Templating
