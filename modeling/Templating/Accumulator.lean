import Templating.Dictionary
import Templating.ParameterType
import Templating.Reply

/-!
# Text accumulators

What a running template writes to. Every line that a write begins starts with the current indent; a
line break at the end of a write leaves the indent to the next one. The indent is one text, and the
lengths of its parts, in bytes, say where the last one begins.
-/

namespace Templating

structure Accumulator where
  generated : String := ""
  endsWithLineBreak : Bool := false
  indent : String := ""
  /-- The last part first. -/
  indentSizes : List Nat := []
  messages : List Message := []
  session : Dictionary := {}
  templateFile : Option String := none

namespace Accumulator

def isLineBreak (c : Char) : Bool :=
  c = '\n' || c = '\r'

def endsInLineBreak (text : String) : Bool :=
  match text.toList.getLast? with
  | some c => isLineBreak c
  | none => false

/-- Where the line break at a place of a text ends, if one stands there. -/
def breakEnd? (text : Array Char) (index : Nat) : Option Nat :=
  match text[index]? with
  | some '\r' => some (if text[index + 1]? = some '\n' then index + 2 else index + 1)
  | some '\n' => some (index + 1)
  | _ => none

theorem lt_breakEnd {text : Array Char} {index lineEnd : Nat}
    (h : breakEnd? text index = some lineEnd) : index < lineEnd := by
  unfold breakEnd? at h
  split at h
  · have hend := Option.some.inj h
    split at hend <;> omega
  · have hend := Option.some.inj h
    omega
  · cases h

/-- The characters from one place of a text up to another. -/
def slice (text : Array Char) (start stop : Nat) : String :=
  String.ofList (text.extract start stop).toList

/-- Appends a text that was searched up to `index` and appended up to `lineStart`, with the indent
after each line break that does not end it. -/
def appendLines (indent : String) (text : Array Char) (out : String) (lineStart index : Nat) :
    String :=
  if index < text.size then
    match h : breakEnd? text index with
    | none => appendLines indent text out lineStart (index + 1)
    | some lineEnd =>
      have := lt_breakEnd h
      if lineEnd < text.size then
        appendLines indent text (out ++ slice text lineStart lineEnd ++ indent) lineEnd lineEnd
      else appendLines indent text out lineStart lineEnd
  else out ++ slice text lineStart text.size
termination_by text.size - index

/-- Whether a write begins a line. -/
def atLineStart (a : Accumulator) : Bool :=
  a.generated.isEmpty || a.endsWithLineBreak

/-- Without an indent a text is appended as it is. -/
def write (a : Accumulator) (text : String) : Accumulator :=
  if text.isEmpty then a
  else
    let out := if a.atLineStart && !a.indent.isEmpty then a.generated ++ a.indent else a.generated
    { a with
      generated :=
        if a.indent.isEmpty then out ++ text else appendLines a.indent text.toList.toArray out 0 0
      endsWithLineBreak := endsInLineBreak text }

/-- A write and a line feed that gets no indent. -/
def writeLine (a : Accumulator) (text : String) : Accumulator :=
  let a := a.write text
  { a with generated := a.generated ++ "\n", endsWithLineBreak := true }

def pushIndent (a : Accumulator) (indent : String) : Accumulator :=
  { a with indent := a.indent ++ indent, indentSizes := indent.utf8ByteSize :: a.indentSizes }

/-- The first `n` bytes and the rest, unless `n` falls inside a character or past the end. -/
def splitBytes : Nat → List Char → Option (List Char × List Char)
  | 0, cs => some ([], cs)
  | _ + 1, [] => none
  | n + 1, c :: r =>
    if c.utf8Size ≤ n + 1 then (splitBytes (n + 1 - c.utf8Size) r).map fun p => (c :: p.1, p.2)
    else none

/-- Takes back the last indent, or nothing if there is none; `none` if the sizes do not fit the
indent. -/
def popIndent? (a : Accumulator) : Option (String × Accumulator) :=
  match a.indentSizes with
  | [] => some ("", a)
  | n :: sizes =>
    if n ≤ a.indent.utf8ByteSize then
      (splitBytes (a.indent.utf8ByteSize - n) a.indent.toList).map fun p =>
        (String.ofList p.2, { a with indent := String.ofList p.1, indentSizes := sizes })
    else none

def clearIndent (a : Accumulator) : Accumulator :=
  { a with indent := "", indentSizes := [] }

def takeGenerated (a : Accumulator) : String × Accumulator :=
  (a.generated, { a with generated := "", endsWithLineBreak := false })

def error (a : Accumulator) (text : String) : Accumulator :=
  { a with messages := a.messages ++ [⟨false, text⟩] }

def warning (a : Accumulator) (text : String) : Accumulator :=
  { a with messages := a.messages ++ [⟨true, text⟩] }

def setSessionValue (a : Accumulator) (key value : String) : Accumulator :=
  { a with session := a.session.insert key value }

/-- A session value as a typed parameter. A missing one is the default, and so is one that cannot be
read, which is an error too. -/
def parameter (a : Accumulator) (type : ParameterType) (name : String) : String × Accumulator :=
  match a.session.get? name with
  | none => (type.default, a)
  | some raw =>
    match type.parse? raw with
    | some value => (value, a)
    | none => (type.default, a.error ("parameter '" ++ name ++ "' value '" ++ raw
        ++ "' is not a valid " ++ type.name))

end Accumulator

end Templating
