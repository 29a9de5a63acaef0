import Templating.Text.Ascii
import Templating.Text.Blank

/-!
# Output encodings

How generated text becomes bytes.
-/

namespace Templating

inductive Encoding
  | utf8
  | utf8Bom
  | ascii
deriving DecidableEq, Repr, Inhabited

namespace Encoding

def name : Encoding → String
  | .utf8 => "utf-8"
  | .utf8Bom => "utf-8-bom"
  | .ascii => "ascii"

def ofName? (name : String) : Option Encoding :=
  match Text.lower (Text.trim name) with
  | "utf-8" | "utf8" => some .utf8
  | "utf-8-bom" | "utf8bom" | "utf-8bom" => some .utf8Bom
  | "ascii" | "us-ascii" => some .ascii
  | _ => none

def asciiByte (c : Char) : UInt8 :=
  if c.toNat < 128 then c.toNat.toUInt8 else '?'.toNat.toUInt8

/-- Under ASCII every other character becomes a question mark. -/
def encode (e : Encoding) (text : String) : ByteArray :=
  match e with
  | .utf8 => text.toUTF8
  | .utf8Bom => ⟨#[0xEF, 0xBB, 0xBF]⟩ ++ text.toUTF8
  | .ascii => ⟨(text.toList.map asciiByte).toArray⟩

end Encoding

end Templating
