import Templating.Text.Split

/-!
# Paths

A path is a text cut at slashes. Empty pieces and single dots do not count, except a dot that begins
a relative path. Two paths are the same if their components are; joining and shortening work on the
text and leave the rest of it as it was written.
-/

namespace Templating

structure Path where
  text : String
deriving DecidableEq, Repr, Inhabited

namespace Path

inductive Component
  | root
  | current
  | parent
  | name (s : String)
deriving DecidableEq, Repr

def isAbsolute (p : Path) : Bool :=
  Text.startsWith "/" p.text

/-- Pieces with the number of characters before the end of each. -/
def offsets (from_ : Nat) : List (List Char) → List (List Char × Nat)
  | [] => []
  | p :: ps => (p, from_ + p.length) :: offsets (from_ + p.length + 1) ps

def ofPiece (p : List Char × Nat) : Option (Component × Nat) :=
  if p.1 = [] ∨ p.1 = ['.'] then none
  else if p.1 = ['.', '.'] then some (.parent, p.2)
  else some (.name (String.ofList p.1), p.2)

/-- The components, each with the number of characters up to its end. -/
def marks (p : Path) : List (Component × Nat) :=
  let cs := p.text.toList
  let ps := Text.pieces '/' cs
  let first := if p.isAbsolute then [(.root, 1)]
    else if ps.head? = some ['.'] then [(.current, 1)] else []
  first ++ (offsets 0 ps).filterMap ofPiece

def components (p : Path) : List Component :=
  p.marks.map (·.1)

def same (p q : Path) : Bool :=
  p.components == q.components

/-- Whether `base` names an ancestor of `p`, or `p` itself. -/
def isUnder (p base : Path) : Bool :=
  base.components.isPrefixOf p.components

def upTo (p : Path) (n : Nat) : Path :=
  ⟨String.ofList (p.text.toList.take n)⟩

def parent? (p : Path) : Option Path :=
  match p.marks.reverse with
  | [] => none
  | [(.root, _)] => none
  | [_] => some ⟨""⟩
  | _ :: (_, n) :: _ => some (p.upTo n)

def join (p q : Path) : Path :=
  if q.isAbsolute then q
  else if p.text.isEmpty ∨ Text.endsWith "/" p.text then ⟨p.text ++ q.text⟩
  else ⟨p.text ++ "/" ++ q.text⟩

/-- The last component, if it is a name. -/
def name? (p : Path) : Option String :=
  match p.marks.getLast? with
  | some (.name s, _) => some s
  | _ => none

/-- A file name cut at its last dot. A dot in front does not count. -/
def cutName (name : String) : String × Option String :=
  match Text.cutChars '.' name.toList.reverse with
  | some (after, before) =>
    if before.isEmpty then (name, none)
    else (String.ofList before.reverse, some (String.ofList after.reverse))
  | none => (name, none)

def stem? (p : Path) : Option String :=
  p.name?.map fun n => (cutName n).1

def extension? (p : Path) : Option String :=
  p.name?.bind fun n => (cutName n).2

/-- The path with another extension, or with none if `ext` is empty. A path without a file name
stays as it is. An extension cannot hold a slash. -/
def withExtension? (p : Path) (ext : String) : Option Path :=
  if '/' ∈ ext.toList then none
  else match p.marks.getLast? with
    | some (.name s, n) =>
      let kept := (p.upTo (n - s.length + (cutName s).1.length)).text
      some ⟨if ext.isEmpty then kept else kept ++ "." ++ ext⟩
    | _ => some p

/-- The path with an extension that is known to hold no slash. -/
def withPlainExtension (p : Path) (ext : String) : Path :=
  (p.withExtension? ext).getD p

def Component.rank : Component → Nat
  | .root => 0
  | .current => 1
  | .parent => 2
  | .name _ => 3

def Component.le : Component → Component → Bool
  | .name a, .name b => a ≤ b
  | a, b => a.rank ≤ b.rank

/-- Component by component, a path before those that go on from it. -/
def leComponents : List Component → List Component → Bool
  | [], _ => true
  | _ :: _, [] => false
  | a :: as, b :: bs => if a = b then leComponents as bs else a.le b

def le (p q : Path) : Bool :=
  leComponents p.components q.components

end Path

end Templating
