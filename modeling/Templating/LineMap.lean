import Templating.Location

/-!
# Line maps

Which lines of a generated unit came from which place of a template. Inside a verbatim entry a
position moves with its line and column; in any other entry it is the place of the entry. A position
so far to the right that its place has no 32-bit column makes the look-up give up.
-/

namespace Templating

/-- Lines `first` to `last` of a unit, counted from 1, and the place they came from. -/
structure LineMapEntry where
  first : Nat
  last : Nat
  location : Location
  verbatim : Bool
deriving DecidableEq, Repr

abbrev LineMap := List LineMapEntry

/-- An unsigned 32-bit number read as a signed one. -/
def signed32 (n : Int) : Int :=
  Int.bmod n 0x100000000

namespace LineMapEntry

def covers (e : LineMapEntry) (line : Nat) : Bool :=
  e.first ≤ line && line ≤ e.last

/-- The place of a position in the entry, step by step in 32 bits. -/
def locate (e : LineMapEntry) (line column : Nat) : Outcome Location :=
  let l := e.location
  if e.verbatim then
    let offset := signed32 (line - e.first : Nat)
    let column := signed32 (max column 1 : Nat)
    if offset = 0 then do
      let sum ← Location.fit (l.column + column)
      return { l with column := ← Location.fit (sum - 1) }
    else do return { l with line := ← Location.fit (l.line + offset), column }
  else .value l

end LineMapEntry

namespace LineMap

def locate (m : LineMap) (line column : Nat) : Outcome (Option Location) :=
  match m.find? (·.covers line) with
  | some e => (e.locate line column).map some
  | none => .value none

end LineMap

end Templating
