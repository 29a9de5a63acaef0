import Templating.LineMap
import Templating.RuntimeText
import Templating.TemplateSettings
import Templating.Text.Quoted

/-!
# Generated units

The program that a template becomes. A unit is first laid out as pieces, some of them tied to a place
in the template; writing the pieces gives the source and its line map. Only the writing depends on
line pragmas.
-/

namespace Templating

/-- An executable unit is run at once; a module is for others to build in. -/
inductive UnitKind
  | executable
  | preprocessed (className namespace_ : String)
deriving DecidableEq, Repr

/-- What directive processors contribute to a unit; `occurrences` is by segment index. -/
structure DirectiveCode where
  preInitialization : String := ""
  postInitialization : String := ""
  occurrences : List (Nat × String) := []
  imports : List String := []
  references : List String := []
deriving DecidableEq, Repr

structure UnitInput where
  template : Template
  settings : TemplateSettings
  code : DirectiveCode
  /-- Paths to bring into scope, before those of the processors. -/
  imports : List String
  templateFile : Option String

inductive UnitError
  | className (name : String)
  | namespaceSegment (part : String)
deriving DecidableEq, Repr

structure GeneratedUnit where
  source : String
  lineMap : LineMap
  className : String
deriving DecidableEq, Repr

namespace GeneratedUnit

/-- Text that stands on lines of its own. -/
inductive Piece
  | line (text : String)
  | mapped (text : String) (location : Location) (verbatim : Bool)
deriving DecidableEq, Repr

/-! ## Writing -/

structure Written where
  source : String := ""
  lines : Nat := 0
  lineMap : LineMap := []
deriving DecidableEq, Repr

def Written.line (w : Written) (text : String) : Written :=
  { w with source := w.source ++ text ++ "\n", lines := w.lines + Text.lineFeeds text + 1 }

/-- A text without its last line feed. -/
def withoutFinalLineFeed (text : String) : String :=
  match text.toList.reverse with
  | '\n' :: r => String.ofList r.reverse
  | _ => text

def pragma (l : Location) : String :=
  "// #line " ++ toString l.line ++ " " ++ Text.quote (l.file.getD "")

def Written.piece (pragmas : Bool) (w : Written) : Piece → Written
  | .line text => w.line text
  | .mapped text l verbatim =>
    let w := if pragmas ∧ 1 ≤ l.line then w.line (pragma l) else w
    let written := w.line (withoutFinalLineFeed text)
    { written with lineMap := written.lineMap ++ [⟨w.lines + 1, written.lines, l, verbatim⟩] }

def write (pragmas : Bool) (ps : List Piece) : Written :=
  ps.foldl (Written.piece pragmas) {}

/-! ## Names -/

def defaultClassName : String := "GeneratedTextTransformation"

def runtimeModule : String := "texttransform_runtime"

/-- Text divided at double colons. -/
def colonPieces : List Char → List (List Char)
  | [] => [[]]
  | ':' :: ':' :: r => [] :: colonPieces r
  | c :: r =>
    match colonPieces r with
    | [] => [[c]]
    | p :: ps => (c :: p) :: ps

/-- Nested modules, divided by dots or double colons. -/
def namespacePath (text : String) : Except UnitError (List String) :=
  let text := Text.trim text
  if text.isEmpty then .ok []
  else
    ((colonPieces text.toList).flatMap (Text.pieces '.')).mapM fun part =>
      let part := Text.trim (String.ofList part)
      if Identifier.isValid part then .ok part else .error (.namespaceSegment part)

/-! ## Pieces -/

/-- Each text once, at its first place. -/
def distinct (xs : List String) : List String :=
  xs.foldl (fun acc x => if acc.contains x then acc else acc ++ [x]) []

def withoutSemicolons (text : String) : String :=
  String.ofList (Text.dropEndWhile (· = ';') text.toList)

def useLine (path : String) : Piece :=
  .line ("use " ++ withoutSemicolons path ++ ";")

def isBlankText (text : String) : Bool :=
  text.toList.all Text.isBlank

def structPieces (className visibility : String) (input : UnitInput) : List Piece :=
  let base := runtimeModule ++ "::TextTransformation"
  let file := if input.settings.hostSpecific then
      input.templateFile.toList.map fun f =>
        .line ("        base.set_template_file(" ++ Text.quote f ++ ");")
    else []
  [.line (visibility ++ "struct " ++ className ++ " \x7b"),
    .line ("    base: " ++ base ++ ","),
    .line "\x7d",
    .line "",
    .line ("impl " ++ className ++ " \x7b"),
    .line "    pub fn new() -> Self \x7b",
    .line ("        let mut base = " ++ base ++ "::new();")] ++ file ++
  [.line "        Self \x7b base \x7d",
    .line "    \x7d",
    .line "\x7d",
    .line "",
    .line ("impl Default for " ++ className ++ " \x7b"),
    .line "    fn default() -> Self \x7b",
    .line "        Self::new()",
    .line "    \x7d",
    .line "\x7d",
    .line "",
    .line ("impl ::std::ops::Deref for " ++ className ++ " \x7b"),
    .line ("    type Target = " ++ base ++ ";"),
    .line "    fn deref(&self) -> &Self::Target \x7b",
    .line "        &self.base",
    .line "    \x7d",
    .line "\x7d",
    .line "",
    .line ("impl ::std::ops::DerefMut for " ++ className ++ " \x7b"),
    .line "    fn deref_mut(&mut self) -> &mut Self::Target \x7b",
    .line "        &mut self.base",
    .line "    \x7d",
    .line "\x7d",
    .line ""]

def chunkPieces (chunk : String) : List Piece :=
  if isBlankText chunk then [] else [.line (Text.trimEnd chunk)]

def parameterPiece (p : Parameter) : Piece :=
  .mapped ("let " ++ p.name ++ ": " ++ p.type ++ " = self.base.parameter_or_default::<" ++ p.type
    ++ ">(" ++ Text.quote p.name ++ ");") p.location false

def textPieces (s : TextSegment) : List Piece :=
  match s.kind with
  | .content => [.mapped ("self.base.write(" ++ Text.quote s.text ++ ");") s.start false]
  | .expression =>
    [.line "\x7b",
      .line "let texttransform_value = ::std::string::ToString::to_string(&(",
      .mapped s.text s.start true,
      .line "));",
      .line "self.base.write(&texttransform_value);",
      .line "\x7d"]
  | .block => [.mapped s.text s.start true]
  | .helper => []

def segmentPieces (code : DirectiveCode) (s : Segment × Nat) : List Piece :=
  match s.1 with
  | .text t => textPieces t
  | .directive d =>
    match code.occurrences.find? (·.1 == s.2) with
    | some (_, text) => if isBlankText text then [] else [.mapped text d.start false]
    | none => []

def transformPieces (className : String) (input : UnitInput) : List Piece :=
  [.line ("impl " ++ runtimeModule ++ "::TextTemplate for " ++ className ++ " \x7b"),
    .line ("    fn transformation(&mut self) -> &mut " ++ runtimeModule
      ++ "::TextTransformation \x7b"),
    .line "        &mut self.base",
    .line "    \x7d",
    .line "",
    .line "    fn initialize(&mut self) \x7b"] ++
  chunkPieces input.code.preInitialization ++ chunkPieces input.code.postInitialization ++
  [.line "    \x7d",
    .line "",
    .line "    fn transform_text(&mut self) -> String \x7b"] ++
  input.settings.parameters.map parameterPiece ++
  input.template.segments.zipIdx.flatMap (segmentPieces input.code) ++
  [.line "        self.base.take_generated_text()",
    .line "    \x7d",
    .line "\x7d",
    .line ""]

/-- Helpers stand together after all other code. -/
def helperPieces (className : String) (t : Template) : List Piece :=
  let helpers := t.texts.filter (·.kind == .helper)
  if helpers.isEmpty then []
  else
    .line ("impl " ++ className ++ " \x7b") ::
      helpers.map (fun h => .mapped h.text h.start true) ++ [.line "\x7d", .line ""]

def headPieces (kind : UnitKind) (visibility : String) (modules : List String)
    (input : UnitInput) : List Piece :=
  [.line ("// Generated by texttransform from " ++ input.templateFile.getD "<template>" ++ ".")] ++
  (if kind = .executable then
    [.line ("#![allow(dead_code, unused_imports, unused_mut, unused_variables, "
      ++ "non_snake_case)]")] else []) ++
  modules.map (fun m => .line (visibility ++ "mod " ++ m ++ " \x7b")) ++
  [.line "#[allow(dead_code)]",
    .line ("pub mod " ++ runtimeModule ++ " \x7b"),
    .line RuntimeText.text,
    .line "\x7d",
    .line ""] ++
  (distinct (input.imports ++ input.code.imports)).map useLine ++
  [.line ""]

def tailPieces (kind : UnitKind) (className : String) (modules : List String) : List Piece :=
  (if kind = .executable then
    [.line "fn main() \x7b",
      .line ("    " ++ runtimeModule ++ "::run_as_process(" ++ className ++ "::new())"),
      .line "\x7d"] else []) ++
  modules.map fun _ => .line "\x7d"

def visibility (kind : UnitKind) (settings : TemplateSettings) : String :=
  match kind with
  | .preprocessed .. => if settings.isInternal then "pub(crate) " else "pub "
  | .executable => "pub "

/-- The class name and the modules around it. -/
def names : UnitKind → Except UnitError (String × List String)
  | .executable => .ok (defaultClassName, [])
  | .preprocessed className namespace_ => (namespacePath namespace_).map fun ms => (className, ms)

def pieces (input : UnitInput) (kind : UnitKind) (className : String) (modules : List String) :
    List Piece :=
  let vis := visibility kind input.settings
  headPieces kind vis modules input ++ structPieces className vis input ++
    transformPieces className input ++ helperPieces className input.template ++
    tailPieces kind className modules

def generate (input : UnitInput) (kind : UnitKind) : Except UnitError GeneratedUnit :=
  match names kind with
  | .error e => .error e
  | .ok (className, modules) =>
    if Identifier.isValid className then
      let w := write input.settings.linePragmas (pieces input kind className modules)
      .ok ⟨w.source, w.lineMap, className⟩
    else .error (.className className)

end GeneratedUnit

end Templating
