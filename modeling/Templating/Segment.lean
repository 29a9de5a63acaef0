import Templating.Directive
import Templating.Token

/-!
# Segments

The tokens of a template grouped into stretches of text and whole directives. A directive without a
name leaves no segment; a value without a name leaves only its place.
-/

namespace Templating

inductive SegmentKind
  | block
  | expression
  | content
  | helper
deriving DecidableEq, Repr

structure TextSegment where
  kind : SegmentKind
  text : String
  start : Location
  tagStart : Location
  ending : Location
deriving DecidableEq, Repr

inductive Segment
  | text (s : TextSegment)
  | directive (d : Directive)
deriving DecidableEq, Repr

namespace Segment

def directive? : Segment → Option Directive
  | .directive d => some d
  | .text _ => none

def text? : Segment → Option TextSegment
  | .text s => some s
  | .directive _ => none

def isHelper : Segment → Bool
  | .text s => s.kind == .helper
  | .directive _ => false

end Segment

def TokenKind.segmentKind? : TokenKind → Option SegmentKind
  | .content => some .content
  | .block => some .block
  | .expression => some .expression
  | .helper => some .helper
  | _ => none

/-- What a reader of tokens comes upon. -/
inductive Item
  | segment (s : Segment)
  | namelessValue (l : Location)
deriving DecidableEq, Repr

namespace Item

/-- A directive being read: what is known of it, and an attribute name that waits for its value. -/
structure Opened where
  directive : Option Directive := none
  key : Option String := none

def Opened.name (o : Opened) (t : Token) : Opened :=
  let value := t.value.getD ""
  match o.directive with
  | none =>
    { o with directive := some ⟨value, [], t.location, t.tagStart, t.location⟩ }
  | some _ => { o with key := some value }

def Opened.value (o : Opened) (t : Token) : Opened × List Item :=
  match o.key, o.directive with
  | some key, some d =>
    ({ directive := some (d.setAttribute key (t.value.getD "")), key := none }, [])
  | _, _ => ({ o with key := none }, [.namelessValue t.location])

def Opened.between (o : Opened) (t : Token) : Opened :=
  { o with directive := o.directive.map fun d => { d with ending := t.tagEnd } }

def Opened.close (o : Opened) : List Item :=
  match o.directive with
  | some d => [.segment (.directive d)]
  | none => []

/-- A token of text. Empty text leaves nothing. -/
def ofText (kind : SegmentKind) (t : Token) : List Item :=
  let text := t.value.getD ""
  if text.isEmpty then [] else [.segment (.text ⟨kind, text, t.location, t.tagStart, t.tagEnd⟩)]

/-- A directive counts once the token after it is there. -/
def ofTokens : Option Opened → List Token → List Item
  | _, [] => []
  | none, t :: ts =>
    match t.kind.segmentKind? with
    | some kind => ofText kind t ++ ofTokens none ts
    | none => ofTokens (if t.kind = .directive then some {} else none) ts
  | some o, t :: ts =>
    match t.kind.segmentKind? with
    | some kind => o.close ++ ofText kind t ++ ofTokens none ts
    | none =>
      match t.kind with
      | .directiveName => ofTokens (some (o.name t)) ts
      | .directiveValue => (o.value t).2 ++ ofTokens (some (o.value t).1) ts
      | _ => ofTokens (some (o.between t)) ts

end Item

end Templating
