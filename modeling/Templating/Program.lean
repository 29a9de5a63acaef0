import Templating.Accumulator
import Templating.Session
import Templating.Text.Utf8

/-!
# Template programs

A compiled template as the operations it carries out on its accumulator, first those of its
initialization and then those of the transformation. An operation may crash; what was recorded before
stays, and the crash becomes a message.
-/

namespace Templating

inductive Operation
  | write (text : String)
  | writeLine (text : String)
  /-- A formatted write, piece by piece. -/
  | writePieces (pieces : List String)
  | pushIndent (indent : String)
  | popIndent
  | clearIndent
  | error (text : String)
  | warning (text : String)
  | take
  | session
  | setSession (values : Dictionary)
  | sessionValue (key : String)
  | setSessionValue (key value : String)
  | writeSession (key : String)
  | parameter (type : ParameterType) (name : String)
  | writeParameter (type : ParameterType) (name : String)
  | templateFile
  | setTemplateFile (file : String)
  /-- A crash, with a text or with something that is none. -/
  | crash (payload : Option String)

/-- What an operation gives back. -/
inductive Answer
  | nothing
  | text (s : String)
  | optional (s : Option String)
  | values (d : Dictionary)

structure Crash where
  payload : Option String

def Crash.message (c : Crash) : String :=
  c.payload.getD "unknown panic"

namespace Operation

def run (a : Accumulator) : Operation → Except Crash Answer × Accumulator
  | write text => (.ok .nothing, a.write text)
  | writeLine text => (.ok .nothing, a.writeLine text)
  | writePieces pieces => (.ok .nothing, pieces.foldl Accumulator.write a)
  | pushIndent indent => (.ok .nothing, a.pushIndent indent)
  | popIndent =>
    match a.popIndent? with
    | some (indent, a') => (.ok (.text indent), a')
    | none => (.error ⟨none⟩, a)
  | clearIndent => (.ok .nothing, a.clearIndent)
  | error text => (.ok .nothing, a.error text)
  | warning text => (.ok .nothing, a.warning text)
  | take => (.ok (.text a.takeGenerated.1), a.takeGenerated.2)
  | session => (.ok (.values a.session), a)
  | setSession values => (.ok .nothing, { a with session := values })
  | sessionValue key => (.ok (.optional (a.session.get? key)), a)
  | setSessionValue key value => (.ok .nothing, a.setSessionValue key value)
  | writeSession key => (.ok .nothing, a.write ((a.session.get? key).getD "?"))
  | parameter type name =>
    let r := a.parameter type name
    (.ok (.text r.1), r.2)
  | writeParameter type name =>
    let r := a.parameter type name
    (.ok .nothing, r.2.write r.1)
  | templateFile => (.ok (.optional a.templateFile), a)
  | setTemplateFile file => (.ok .nothing, { a with templateFile := some file })
  | crash payload => (.error ⟨payload⟩, a)

/-- Carries out operations up to the first crash. -/
def runAll (a : Accumulator) : List Operation → Option Crash × Accumulator
  | [] => (none, a)
  | op :: ops =>
    match op.run a with
    | (.ok _, a') => runAll a' ops
    | (.error c, a') => (some c, a')

end Operation

structure Program where
  setup : List Operation := []
  transform : List Operation := []

namespace Program

def failed (a : Accumulator) (entry : String) (c : Crash) : Accumulator :=
  a.error (entry ++ " failed: " ++ c.message)

/-- Runs both operations. There is output exactly if neither crashed. -/
def run (p : Program) (session : Dictionary) : Reply :=
  let (a, output) := match Operation.runAll { session } p.setup with
    | (some c, a) => (failed a Reply.initializeEntry c, none)
    | (none, a) =>
      match Operation.runAll a p.transform with
      | (some c, a) => (failed a Reply.transformEntry c, none)
      | (none, a) => (a.takeGenerated.2, some a.takeGenerated.1)
  { entries := [Reply.initializeEntry, Reply.transformEntry], messages := a.messages, output }

/-- The session on a process's standard input. Input that is no text is an empty session. -/
def readSession (input : ByteArray) : Dictionary :=
  match Text.decode? input with
  | some text => Session.parse text
  | none => {}

/-- What the program writes when it runs as a process of its own. -/
def replyText (p : Program) (input : ByteArray) : String :=
  (p.run (readSession input)).render

end Program

end Templating
