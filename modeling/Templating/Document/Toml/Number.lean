import Templating.Document.Toml.Lexeme

/-!
# Numbers and moments in TOML

Numbers are kept only if they are natural; all others count as some number. A whole number has to fit
into 64 bits with a sign, and a decimal one must not be too large to be finite. A moment is a date, a
time of day or both.
-/

namespace Templating.Document.Toml

/-! ## Moments -/

/-- Exactly `n` digits, as a number. -/
def fixed? (n : Nat) (cs : List Char) : Option (Nat × List Char) :=
  let ds := cs.take n
  if ds.length = n ∧ ds.all Char.isDigit then some (Json.digitsValue ds, cs.drop n) else none

def fixedIn? (n low high : Nat) (cs : List Char) : Option (Nat × List Char) :=
  (fixed? n cs).filter fun p => low ≤ p.1 && p.1 ≤ high

def mark? (c : Char) : List Char → Option (List Char)
  | d :: r => if c = d then some r else none
  | [] => none

def padded (width n : Nat) : String :=
  let s := toString n
  String.ofList (List.replicate (width - s.length) '0') ++ s

def daysIn (year month : Nat) : Nat :=
  if month = 2 then
    if year % 4 = 0 ∧ (year % 100 ≠ 0 ∨ year % 400 = 0) then 29 else 28
  else if month = 4 ∨ month = 6 ∨ month = 9 ∨ month = 11 then 30
  else 31

def date? (cs : List Char) : Option (String × List Char) := do
  let (year, r) ← fixed? 4 cs
  let (month, r) ← fixedIn? 2 1 12 (← mark? '-' r)
  let (day, r) ← fixedIn? 2 1 (daysIn year month) (← mark? '-' r)
  return (padded 4 year ++ "-" ++ padded 2 month ++ "-" ++ padded 2 day, r)

/-- A fraction of a second, cut after nine digits and without zeros at its end. -/
def secondFraction (cs : List Char) : String × List Char :=
  match cs with
  | '.' :: r =>
    let (ds, rest) := r.span Char.isDigit
    if ds.isEmpty then ("", cs)
    else
      let kept := ((ds.take 9).reverse.dropWhile (· = '0')).reverse
      (if kept.isEmpty then "" else "." ++ String.ofList kept, rest)
  | _ => ("", cs)

def time? (cs : List Char) : Option (String × List Char) := do
  let (hour, r) ← fixedIn? 2 0 23 cs
  let (minute, r) ← fixedIn? 2 0 59 (← mark? ':' r)
  let (second, r) ← fixedIn? 2 0 60 (← mark? ':' r)
  let (fraction, r) := secondFraction r
  return (padded 2 hour ++ ":" ++ padded 2 minute ++ ":" ++ padded 2 second ++ fraction, r)

/-- The distance from universal time. A zero distance has no minus. -/
def offset? : List Char → Option (String × List Char)
  | c :: r =>
    if c = 'Z' ∨ c = 'z' then some ("Z", r)
    else if c = '+' ∨ c = '-' then do
      let (hours, r) ← fixedIn? 2 0 23 r
      let (minutes, r) ← fixedIn? 2 0 59 (← mark? ':' r)
      let sign := if c = '-' ∧ 0 < hours + minutes then "-" else "+"
      return (sign ++ padded 2 hours ++ ":" ++ padded 2 minutes, r)
    else none
  | [] => none

/-- The text of a moment in its usual form. -/
def moment? (cs : List Char) : Option (String × List Char) :=
  match date? cs with
  | none => time? cs
  | some (date, r) =>
    let after := match r with
      | c :: r' => if c = 'T' ∨ c = 't' ∨ c = ' ' then time? r' else none
      | [] => none
    match after with
    | none => some (date, r)
    | some (time, r) =>
      match offset? r with
      | some (offset, r) => some (date ++ "T" ++ time ++ offset, r)
      | none => some (date ++ "T" ++ time, r)

/-- The key under which a moment is handed on. -/
def momentKey : String := "$__toml_private_datetime"

/-! ## Numbers -/

/-- Digits behind a first one, with single underscores between them. -/
def moreDigits? (isDigit : Char → Bool) : List Char → Option (List Char × List Char)
  | '_' :: c :: r => if isDigit c then consed c (moreDigits? isDigit r) else none
  | c :: r =>
    if c = '_' then none
    else if isDigit c then consed c (moreDigits? isDigit r)
    else some ([], c :: r)
  | [] => some ([], [])

def digits? (isDigit : Char → Bool) : List Char → Option (List Char × List Char)
  | c :: r => if isDigit c then consed c (moreDigits? isDigit r) else none
  | [] => none

/-- A whole number without a sign: one digit, or more that do not begin with zero. -/
def wholeDigits? : List Char → Option (List Char × List Char)
  | '0' :: r => some (['0'], r)
  | cs => digits? Char.isDigit cs

def radixValue (radix : Nat) (ds : List Char) : Nat :=
  ds.foldl (fun n d => n * radix + (Json.hexDigit? d).getD 0) 0

/-- A number in another radix, read behind the mark of the radix. -/
def radixNumber? (radix : Nat) (cs : List Char) : Option (Document × List Char) :=
  match digits? (fun c => match Json.hexDigit? c with
    | some d => d < radix
    | none => false) cs with
  | some (ds, rest) =>
    let n := radixValue radix ds
    if n < 0x8000000000000000 then some (.natural n, rest) else none
  | none => none

/-- Where decimal numbers stop being finite: half a unit above the largest. -/
def finiteBound : Nat := 0x3fffffffffffff <<< 970

/-- Whether `m` times the power of ten is finite. Numbers far from the bound are told by their
digits. -/
def isFinite (m : Nat) (exponent : Int) : Bool :=
  let size : Int := (toString m).length + exponent
  if m = 0 ∨ size < 300 then true
  else if 320 < size then false
  else if 0 ≤ exponent then m * Nat.pow 10 exponent.toNat < finiteBound
  else m < finiteBound * Nat.pow 10 (-exponent).toNat

def fractionDigits? : List Char → Option (Option (List Char) × List Char)
  | '.' :: r => (digits? Char.isDigit r).map fun p => (some p.1, p.2)
  | cs => some (none, cs)

def exponent? : List Char → Option (Option Int × List Char)
  | c :: r =>
    if c = 'e' ∨ c = 'E' then
      let (negative, r) : Bool × List Char := match r with
        | '-' :: r' => (true, r')
        | '+' :: r' => (false, r')
        | _ => (false, r)
      (digits? Char.isDigit r).map fun p =>
        let n : Int := Json.digitsValue p.1
        (some (if negative then -n else n), p.2)
    else some (none, c :: r)
  | [] => some (none, [])

def unsigned? (negative : Bool) (cs : List Char) : Option (Document × List Char) := do
  if "inf".toList.isPrefixOf cs ∨ "nan".toList.isPrefixOf cs then return (.number, cs.drop 3)
  let (whole, rest) ← wholeDigits? cs
  let (fraction, rest) ← fractionDigits? rest
  let (exponent, rest) ← exponent? rest
  if fraction.isNone ∧ exponent.isNone then
    let n := Json.digitsValue whole
    if n < 0x8000000000000000 ∨ (negative ∧ n = 0x8000000000000000) then
      return (if negative ∧ 0 < n then .number else .natural n, rest)
    else none
  else
    let fraction := fraction.getD []
    if negative ∨ isFinite (Json.digitsValue (whole ++ fraction))
        (exponent.getD 0 - fraction.length) then
      return (.number, rest)
    else none

def number? : List Char → Option (Document × List Char)
  | '0' :: 'x' :: r => radixNumber? 16 r
  | '0' :: 'o' :: r => radixNumber? 8 r
  | '0' :: 'b' :: r => radixNumber? 2 r
  | '+' :: r => unsigned? false r
  | '-' :: r => unsigned? true r
  | cs => unsigned? false cs

/-- A moment counts as a table of one entry. -/
def scalar? (cs : List Char) : Option (Document × List Char) :=
  match moment? cs with
  | some (shown, rest) => some (.table [(some momentKey, .text shown)], rest)
  | none => number? cs

end Templating.Document.Toml
