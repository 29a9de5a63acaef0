/-!
# Parameter types

The types a template parameter can have, and how the text of a session value is read as one of them.
Integers are decimal with an optional sign and have to fit their width.
-/

namespace Templating

/-- Integers of a given width, or of the width of an address. -/
inductive ParameterType
  | integer (signed : Bool) (bits : Nat)
  | size (signed : Bool)
  | boolean
  | character
  | text
deriving DecidableEq, Repr

namespace ParameterType

def name : ParameterType → String
  | .integer signed bits => (if signed then "i" else "u") ++ toString bits
  | .size signed => if signed then "isize" else "usize"
  | .boolean => "bool"
  | .character => "char"
  | .text => "alloc::string::String"

/-- The type that is declared under a name. -/
def ofName? : String → Option ParameterType
  | "bool" => some .boolean
  | "char" => some .character
  | "String" => some .text
  | "usize" => some (.size false)
  | "isize" => some (.size true)
  | "u8" => some (.integer false 8)
  | "u16" => some (.integer false 16)
  | "u32" => some (.integer false 32)
  | "u64" => some (.integer false 64)
  | "u128" => some (.integer false 128)
  | "i8" => some (.integer true 8)
  | "i16" => some (.integer true 16)
  | "i32" => some (.integer true 32)
  | "i64" => some (.integer true 64)
  | "i128" => some (.integer true 128)
  | _ => none

def digitsValue (cs : List Char) : Option Nat :=
  if cs.isEmpty ∨ !cs.all Char.isDigit then none
  else some (cs.foldl (fun n c => n * 10 + (c.toNat - '0'.toNat)) 0)

/-- A sign and digits. Only signed types take a minus sign. -/
def integer? (signed : Bool) (bits : Nat) (cs : List Char) : Option Int := do
  let n : Int ← match cs with
    | '+' :: r => (digitsValue r).map fun n => (n : Int)
    | '-' :: r => if signed then (digitsValue r).map fun n => -(n : Int) else none
    | r => (digitsValue r).map fun n => (n : Int)
  let low : Int := if signed then -(1 <<< (bits - 1) : Nat) else 0
  let high : Int := if signed then (1 <<< (bits - 1) : Nat) - 1 else (1 <<< bits : Nat) - 1
  if low ≤ n ∧ n ≤ high then some n else none

/-- The value of a text, written out again. -/
def parse? (t : ParameterType) (raw : String) : Option String :=
  match t with
  | .integer signed bits => (integer? signed bits raw.toList).map toString
  | .size signed => (integer? signed 64 raw.toList).map toString
  | .boolean => if raw = "true" ∨ raw = "false" then some raw else none
  | .character => if raw.length = 1 then some raw else none
  | .text => some raw

def default : ParameterType → String
  | .integer .. => "0"
  | .size _ => "0"
  | .boolean => "false"
  | .character => "\x00"
  | .text => ""

end ParameterType

end Templating
