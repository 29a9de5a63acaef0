import Templating.Document.Toml.Number
import Templating.Document.Toml.Tree

/-!
# Documents in TOML

A text of lines: comments, headers, and keys with values. The entries of a header's table are collected
until the next header and then put in their place.
-/

namespace Templating.Document.Toml

def dropKeyword? (word : String) (d : Document) (cs : List Char) :
    Option (Document × List Char) :=
  (Json.dropKeyword? word cs).map fun r => (d, r)

mutual

/-- A value. `depth` counts the sequences and tables around it. -/
def value? (fuel depth : Nat) (cs : List Char) : Option (Document × List Char) :=
  match fuel with
  | 0 => none
  | fuel + 1 =>
    match cs with
    | [] => none
    | '[' :: r =>
      if depthBound ≤ depth + 1 then none
      else (items? fuel (depth + 1) r).map fun p => (.sequence p.1, p.2)
    | '\x7b' :: r =>
      if depthBound ≤ depth + 1 then none
      else
        match skipBlanks r with
        | '\x7d' :: r => some (.table [], r)
        | r => (entries? fuel (depth + 1) [] r).map fun p => (.table (entryDocuments p.1), p.2)
    | 't' :: _ => dropKeyword? "true" (.boolean true) cs
    | 'f' :: _ => dropKeyword? "false" (.boolean false) cs
    | c :: _ =>
      if c = '"' ∨ c = '\'' then (quoted? cs).map fun p => (.text (String.ofList p.1), p.2)
      else scalar? cs

/-- The items of a sequence up to its end. A comma may stand behind the last one. -/
def items? (fuel depth : Nat) (cs : List Char) : Option (List Document × List Char) :=
  match fuel with
  | 0 => none
  | fuel + 1 =>
    match skipFiller false cs with
    | ']' :: r => some ([], r)
    | r => do
      let (d, rest) ← value? fuel depth r
      match skipFiller false rest with
      | ']' :: r => return ([d], r)
      | ',' :: r =>
        let (ds, rest) ← items? fuel depth r
        return (d :: ds, rest)
      | _ => none

/-- The entries of a table on one line up to its end. -/
def entries? (fuel depth : Nat) (done : Entries) (cs : List Char) :
    Option (Entries × List Char) :=
  match fuel with
  | 0 => none
  | fuel + 1 => do
    let ((path, key), rest) ← key? cs
    let (d, rest) ← value? fuel depth (skipBlanks (← mark? '=' rest))
    let done ← done.insertValue path key d
    match skipBlanks rest with
    | '\x7d' :: r => return (done, r)
    | ',' :: r => entries? fuel depth done r
    | _ => none

end

/-! ## Lines -/

/-- The tables read so far, and the one under way with the way to its place. -/
structure Draft where
  root : Entries := []
  /-- No place is given for the root itself. -/
  place : Option (List String × String) := none
  isElement : Bool := false
  entries : Entries := []

namespace Draft

/-- Puts the table under way in its place. -/
def settle (d : Draft) : Option Entries :=
  match d.place with
  | none => some d.entries
  | some (path, key) =>
    if d.isElement then d.root.insertElement path key d.entries
    else d.root.insertTable path key d.entries

/-- Begins a table. Its place must be free, or hold a table that only lies on the way to others. -/
def beginTable (d : Draft) (path : List String) (key : String) : Option Draft := do
  let root ← d.settle
  match root.find? (path ++ [key]) with
  | none => return { root, place := some (path, key) }
  | some (.table .implied entries) => return { root, place := some (path, key), entries }
  | some _ => none

def beginElement (d : Draft) (path : List String) (key : String) : Option Draft := do
  let root ← d.settle
  match root.find? (path ++ [key]) with
  | none | some (.tables _) => return { root, place := some (path, key), isElement := true }
  | some _ => none

end Draft

/-- One line that is not empty. -/
def line? (d : Draft) (cs : List Char) : Option (Draft × List Char) :=
  match cs with
  | '[' :: '[' :: r => do
    let ((path, key), rest) ← key? r
    let rest ← mark? ']' (← mark? ']' rest)
    return (← d.beginElement path key, ← lineEnd? rest)
  | '[' :: r => do
    let ((path, key), rest) ← key? r
    let rest ← mark? ']' rest
    return (← d.beginTable path key, ← lineEnd? rest)
  | _ => do
    let ((path, key), rest) ← key? cs
    let rest := skipBlanks (← mark? '=' rest)
    let (v, rest) ← value? (2 * rest.length + 1) 0 rest
    return ({ d with entries := ← d.entries.insertValue path key v }, ← lineEnd? rest)

def lines? : (fuel : Nat) → Draft → List Char → Option Draft
  | 0, _, _ => none
  | fuel + 1, d, cs =>
    match skipLines cs with
    | [] => some d
    | '#' :: r => (lineEnd? ('#' :: r)).bind (lines? fuel d)
    | r =>
      match line? d r with
      | some (d, rest) => lines? fuel d rest
      | none => none

/-- The table of a whole text. A byte order mark may stand in front. -/
def read? (text : String) : Option Document := do
  let cs := match text.toList with
    | '\ufeff' :: r => r
    | cs => cs
  let d ← lines? (cs.length + 1) {} cs
  let root ← d.settle
  return .table (entryDocuments root)

end Templating.Document.Toml
