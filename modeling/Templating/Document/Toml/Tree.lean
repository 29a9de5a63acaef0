import Templating.Document

/-!
# Tables under construction

A TOML text fills its tables piece by piece. Each table remembers how it came to be, because that
decides whether it may be filled further: a table with a header of its own is closed to dotted keys, and
one that dotted keys made gets no header.
-/

namespace Templating.Document.Toml

inductive Origin
  /-- Named by a header, or the root. -/
  | defined
  /-- Lies on the way to a header. -/
  | implied
  /-- Lies on the way of a dotted key. -/
  | dotted
deriving DecidableEq

inductive Node
  | value (d : Document)
  | table (origin : Origin) (entries : List (String × Node))
  | tables (elements : List (List (String × Node)))

abbrev Entries := List (String × Node)

namespace Entries

def put (es : Entries) (k : String) (n : Node) : Entries :=
  if (es.lookup k).isSome then es.map fun e => if e.1 = k then (k, n) else e else es ++ [(k, n)]

/-- What stands at the end of a way. -/
def find? : Entries → List String → Option Node
  | _, [] => none
  | es, [k] => es.lookup k
  | es, k :: path =>
    match es.lookup k with
    | some (.table _ inner) => find? inner path
    | some (.tables elements) => find? (elements.getLast?.getD []) path
    | _ => none

/-- Changes the table at the end of a way, and makes the tables that are missing on it. The way leads
through the last element of a sequence of tables and through no value; the way of a dotted key leads
through no table with a header. -/
def update (dottedKey : Bool) (change : Origin → Entries → Option Entries) :
    List String → Origin → Entries → Option Entries
  | [], origin, es => change origin es
  | k :: path, _, es =>
    match es.lookup k with
    | none => do
      let origin := if dottedKey then .dotted else .implied
      let inner ← update dottedKey change path origin []
      return es.put k (.table origin inner)
    | some (.value _) => none
    | some (.table origin inner) =>
      if dottedKey ∧ origin = .defined then none
      else do
        let inner ← update dottedKey change path origin inner
        return es.put k (.table origin inner)
    | some (.tables elements) => do
      let inner ← update dottedKey change path .defined (elements.getLast?.getD [])
      return es.put k (.tables (elements.dropLast ++ [inner]))

/-- Adds a value under a new key. A dotted key must end in a table that dotted keys made. -/
def insertValue (es : Entries) (path : List String) (key : String) (d : Document) : Option Entries :=
  update true (fun origin inner =>
    if (inner.lookup key).isSome ∨ (path ≠ [] ∧ origin ≠ .dotted) then none
    else some (inner.put key (.value d))) path .defined es

def insertTable (es : Entries) (path : List String) (key : String) (table : Entries) :
    Option Entries :=
  update false (fun _ inner => some (inner.put key (.table .defined table))) path .defined es

/-- Adds an element to a sequence of tables. -/
def insertElement (es : Entries) (path : List String) (key : String) (table : Entries) :
    Option Entries :=
  update false (fun _ inner =>
    match inner.lookup key with
    | none => some (inner.put key (.tables [table]))
    | some (.tables elements) => some (inner.put key (.tables (elements ++ [table])))
    | some _ => none) path .defined es

end Entries

mutual

def Node.document : Node → Document
  | .value d => d
  | .table _ entries => .table (entryDocuments entries)
  | .tables elements => .sequence (elementDocuments elements)

def entryDocuments : List (String × Node) → List (Option String × Document)
  | [] => []
  | (k, n) :: r => (some k, n.document) :: entryDocuments r

def elementDocuments : List (List (String × Node)) → List Document
  | [] => []
  | es :: r => .table (entryDocuments es) :: elementDocuments r

end

end Templating.Document.Toml
