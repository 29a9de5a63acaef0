import Templating.Diagnostic
import Templating.FileTree
import Templating.Include
import Templating.Scanner
import Templating.Segment

/-!
# Templates

A parsed template: its segments with every included text in the place of its `include` directive.
Helpers of included texts come last. A text that is being included is not included again, so
expansion ends, whatever includes what.
-/

namespace Templating

structure Template where
  root : Option String
  segments : List Segment := []
  /-- Helpers of included texts that wait for the end of the root text. -/
  helpers : List Segment := []
  errors : Diagnostics := []
deriving DecidableEq

namespace Template

def directives (t : Template) : List Directive :=
  t.segments.filterMap Segment.directive?

def texts (t : Template) : List TextSegment :=
  t.segments.filterMap Segment.text?

/-- A place without a file becomes the root as a whole. -/
def place (t : Template) (l : Location) : Location :=
  if l.file.isSome then l else .whole t.root

def logError (t : Template) (code message : String) (l : Location) : Template :=
  { t with errors := t.errors ++ [.error code message (t.place l)] }

def logWarning (t : Template) (code message : String) (l : Location) : Template :=
  { t with errors := t.errors ++ [.warning code message (t.place l)] }

def recordFault (t : Template) (f : SyntaxFault) : Template :=
  t.logError "TT1001" f.message f.location

def logNameless (t : Template) (l : Location) : Template :=
  t.logError "TT1002" "Directive value without name" l

/-- Adds a segment of the root text, or of an included one. -/
def add (t : Template) (included : Bool) (s : Segment) : Template :=
  if included ∧ s.isHelper then { t with helpers := t.helpers ++ [s] }
  else { t with segments := t.segments ++ [s] }

/-- Puts the waiting helpers at the end. -/
def placeHelpers (t : Template) : Template :=
  { t with segments := t.segments ++ t.helpers, helpers := [] }

/-- The request of a file's `include`: a file beside the including one goes before all others. -/
def request (files : FileTree) (including : Option String) (file : String) : String :=
  match including.bind fun f => (Path.mk f).parent? with
  | none => file
  | some dir =>
    if (Path.mk file).isAbsolute then file
    else
      let candidate := dir.join ⟨file⟩
      if files.isFile candidate then (files.canonicalOr candidate).text else file

inductive IncludeError
  | attributes
  | unresolved (file : String)
  | cycle (name : String)
deriving DecidableEq, Repr

def IncludeError.code : IncludeError → String
  | .attributes => "TT1003"
  | .unresolved _ => "TT1004"
  | .cycle _ => "TT1005"

def IncludeError.message : IncludeError → String
  | .attributes => "Unexpected attributes in include directive"
  | .unresolved file => "Could not resolve include file '" ++ file ++ "'."
  | .cycle name => "include cycle detected: '" ++ name ++ "'"

/-- The text an `include` directive stands for, while the texts named in `active` are being read. -/
def included (files : FileTree) (source : IncludeSource) (active : List String)
    (including : Option String) (d : Directive) :
    Except IncludeError { i : Include // i.name ∈ source.names ∧ i.name ∉ active } :=
  match d.attributes.length, d.attribute? "file" with
  | 1, some file =>
    match h : source.load (request files including file) with
    | none => .error (.unresolved file)
    | some i =>
      if ha : i.name ∈ active then .error (.cycle i.name)
      else .ok ⟨i, source.name_mem h, ha⟩
  | _, _ => .error .attributes

theorem length_filter_push {names active : List String} {n : String} (hn : n ∈ names)
    (ha : n ∉ active) :
    (names.filter (· ∉ n :: active)).length < (names.filter (· ∉ active)).length := by
  induction names with
  | nil => cases hn
  | cons x r ih =>
    have hle : (r.filter (· ∉ n :: active)).length ≤ (r.filter (· ∉ active)).length := by
      rw [← List.countP_eq_length_filter, ← List.countP_eq_length_filter]
      exact List.countP_mono_left fun y _ hy => by simp_all
    by_cases hx : x = n
    · subst hx
      simp only [List.filter_cons, List.mem_cons, true_or, not_true_eq_false, decide_false,
        Bool.false_eq_true, if_false, ha, not_false_eq_true, decide_true, if_true,
        List.length_cons] at hle ⊢
      omega
    · have hn' : n ∈ r := by
        rcases List.mem_cons.1 hn with h | h
        · exact absurd h.symm hx
        · exact h
      have := ih hn'
      by_cases hxa : x ∈ active <;> simp_all

/-- Adds the items of one text. `active` names the texts being read, the innermost first; the flag
tells whether the text is an included one. A fault in an included text ends the including one. -/
def expand (files : FileTree) (source : IncludeSource) (active : List String)
    (file : Option String) (inside : Bool) (ending : Option SyntaxFault) :
    Template → List Item → Template × Option SyntaxFault
  | t, [] => (t, ending)
  | t, .namelessValue l :: items =>
    expand files source active file inside ending (t.logNameless l) items
  | t, .segment (.text s) :: items =>
    expand files source active file inside ending (t.add inside (.text s)) items
  | t, .segment (.directive d) :: items =>
    if d.isNamed "include" then
      match included files source active file d with
      | .error e =>
        expand files source active file inside ending (t.logError e.code e.message d.start) items
      | .ok i =>
        let stream := (Scanner.ofText (some i.val.name) i.val.content).stream
        match expand files source (i.val.name :: active) (some i.val.name) true stream.fault? t
          (Item.ofTokens none stream.tokens) with
        | (t', some f) => (t', some f)
        | (t', none) => expand files source active file inside ending t' items
    else expand files source active file inside ending (t.add inside (.directive d)) items
termination_by _ items => ((source.names.filter (· ∉ active)).length, items.length)
decreasing_by
  all_goals first
    | (apply Prod.Lex.right; simp)
    | (apply Prod.Lex.left; exact length_filter_push i.property.1 i.property.2)

/-- Adds a text with its includes. A fault leaves what was read before it. -/
def parse (t : Template) (files : FileTree) (source : IncludeSource) (s : Scanner) :
    Template × Option SyntaxFault :=
  let stream := s.stream
  match expand files source t.root.toList s.location.file false stream.fault? t
    (Item.ofTokens none stream.tokens) with
  | (t', none) => (t'.placeHelpers, none)
  | (t', some f) => (t', some f)

/-- Adds an item of a text whose `include` directives are ordinary directives. -/
def addItem (t : Template) : Item → Template
  | .namelessValue l => t.logNameless l
  | .segment s => t.add false s

/-- Adds a text and keeps its `include` directives. -/
def parsePlain (t : Template) (s : Scanner) : Template × Option SyntaxFault :=
  let stream := s.stream
  let t' := (Item.ofTokens none stream.tokens).foldl addItem t
  match stream.fault? with
  | none => (t'.placeHelpers, none)
  | some f => (t', some f)

/-- The template of a text. A fault is among its errors. -/
def ofText (files : FileTree) (source : IncludeSource) (file : Option String) (text : String) :
    Template :=
  match parse { root := file } files source (.ofText file text) with
  | (t, none) => t
  | (t, some f) => t.recordFault f

end Template

end Templating
