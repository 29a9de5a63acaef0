/-!
# Text from bytes

Bytes read as UTF-8. `decode?` refuses anything malformed; `decodeLossy` puts one replacement
character for each longest run of bytes that began a character and could not end it.
-/

namespace Templating.Text

def decode? (bytes : ByteArray) : Option String :=
  String.fromUTF8? bytes

/-- A character under way: bytes still missing, the bits read, the range of the next byte. -/
structure Partial where
  missing : Nat
  bits : Nat
  low : Nat
  high : Nat

inductive Lead
  | complete (c : Char)
  | opens (p : Partial)
  | malformed

/-- What a first byte announces. The tight second ranges keep out long forms and surrogates. -/
def lead (b : Nat) : Lead :=
  if b < 0x80 then .complete (Char.ofNat b)
  else if 0xC2 ≤ b ∧ b ≤ 0xDF then .opens ⟨1, b - 0xC0, 0x80, 0xBF⟩
  else if b = 0xE0 then .opens ⟨2, 0, 0xA0, 0xBF⟩
  else if b = 0xED then .opens ⟨2, 0xD, 0x80, 0x9F⟩
  else if 0xE1 ≤ b ∧ b ≤ 0xEF then .opens ⟨2, b - 0xE0, 0x80, 0xBF⟩
  else if b = 0xF0 then .opens ⟨3, 0, 0x90, 0xBF⟩
  else if b = 0xF4 then .opens ⟨3, 4, 0x80, 0x8F⟩
  else if 0xF1 ≤ b ∧ b ≤ 0xF3 then .opens ⟨3, b - 0xF0, 0x80, 0xBF⟩
  else .malformed

def replacement : Char := '\ufffd'

def lossy : Option Partial → List UInt8 → List Char
  | none, [] => []
  | some _, [] => [replacement]
  | none, b :: r =>
    match lead b.toNat with
    | .complete c => c :: lossy none r
    | .opens p => lossy (some p) r
    | .malformed => replacement :: lossy none r
  | some p, b :: r =>
    let n := b.toNat
    if p.low ≤ n ∧ n ≤ p.high then
      let bits := p.bits * 64 + n % 64
      if p.missing ≤ 1 then Char.ofNat bits :: lossy none r
      else lossy (some ⟨p.missing - 1, bits, 0x80, 0xBF⟩) r
    else
      replacement ::
        match lead n with
        | .complete c => c :: lossy none r
        | .opens q => lossy (some q) r
        | .malformed => replacement :: lossy none r

def decodeLossy (bytes : ByteArray) : String :=
  String.ofList (lossy none bytes.toList)

end Templating.Text
