import Mathlib
import Templating.Proofs.Replies
import Templating.Text.Utf8

/-!
# Bytes read with replacement characters

Reading bytes with replacement characters gives a text back from its bytes (`decodeLossy_of_decode`),
and goes line by line: what stands before a line feed has no part in what is read behind it
(`decodeLossy_append`). The first is by induction over the characters, each of one to four bytes, the
second over the bytes, where a character under way never takes a line feed for its next byte.
-/

namespace Templating.Text

/-! ## Bytes as a list -/

theorem toList_loop (bytes : ByteArray) (i : Nat) (r : List UInt8) :
    ByteArray.toList.loop bytes i r = r.reverse ++ bytes.data.toList.drop i := by
  fun_induction ByteArray.toList.loop bytes i r with
  | case1 i r h ih =>
    have hi : i < bytes.data.toList.length := by simpa using h
    rw [ih, List.drop_eq_getElem_cons hi]
    simp [ByteArray.get!, h]
  | case2 i r h =>
    rw [List.drop_eq_nil_of_le (by simpa using Nat.le_of_not_lt h)]
    simp

theorem toList_eq_data (bytes : ByteArray) : bytes.toList = bytes.data.toList := by
  rw [ByteArray.toList, toList_loop]
  simp

theorem toList_append (a b : ByteArray) : (a ++ b).toList = a.toList ++ b.toList := by
  simp only [toList_eq_data, ByteArray.data_append, Array.toList_append]

theorem toList_toUTF8 (s : String) : s.toUTF8.toList = s.toList.flatMap String.utf8EncodeChar := by
  rw [String.toUTF8_eq_toByteArray, ← String.utf8Encode_toList, List.utf8Encode, toList_eq_data,
    List.toList_data_toByteArray]

/-! ## One character -/

section Steps

variable {b : UInt8} {n bits low high : Nat} {r : List UInt8}

theorem lossy_opens {p : Partial} (hn : b.toNat = n) (h : lead n = .opens p) :
    lossy none (b :: r) = lossy (some p) r := by
  simp [lossy, hn, h]

theorem lossy_next {missing : Nat} (hn : b.toNat = n) (hlow : low ≤ n) (hhigh : n ≤ high) :
    lossy (some ⟨missing + 2, bits, low, high⟩) (b :: r) =
      lossy (some ⟨missing + 1, bits * 64 + n % 64, 0x80, 0xBF⟩) r := by
  simp [lossy, hn, hlow, hhigh]

theorem lossy_last (hn : b.toNat = n) (hlow : low ≤ n) (hhigh : n ≤ high) :
    lossy (some ⟨1, bits, low, high⟩) (b :: r) = Char.ofNat (bits * 64 + n % 64) :: lossy none r := by
  simp [lossy, hn, hlow, hhigh]

theorem lead_two (h : 0xC2 ≤ n) (h' : n ≤ 0xDF) : lead n = .opens ⟨1, n - 0xC0, 0x80, 0xBF⟩ := by
  grind [lead]

theorem lead_three (h : 0xE0 ≤ n) (h' : n ≤ 0xEF) : lead n = .opens
    ⟨2, n - 0xE0, if n = 0xE0 then 0xA0 else 0x80, if n = 0xED then 0x9F else 0xBF⟩ := by
  grind [lead]

theorem lead_four (h : 0xF0 ≤ n) (h' : n ≤ 0xF4) : lead n = .opens
    ⟨3, n - 0xF0, if n = 0xF0 then 0x90 else 0x80, if n = 0xF4 then 0x8F else 0xBF⟩ := by
  grind [lead]

end Steps

/-- The bytes of a character are read as the character. -/
theorem lossy_utf8EncodeChar (c : Char) (r : List UInt8) :
    lossy none (String.utf8EncodeChar c ++ r) = c :: lossy none r := by
  obtain ⟨v, hv⟩ : ∃ v, v = c.val.toNat := ⟨_, rfl⟩
  have hc : Char.ofNat v = c := by
    rw [hv]
    exact Char.ofNat_toNat c
  have hvalid : v < 0xD800 ∨ 0xDFFF < v ∧ v < 0x110000 := by
    rw [hv]
    exact c.valid
  have hbyte : ∀ n < 256, (UInt8.ofNat n).toNat = n := fun n hn => UInt8.toNat_ofNat_of_lt' hn
  simp only [String.utf8EncodeChar, ← hv]
  split_ifs with h₁ h₂ h₃
  · have hlead : lead v = .complete c := by rw [lead, if_pos (by omega), hc]
    simp [lossy, hbyte v (by omega), hlead]
  · have hbits : (v / 64 % 32 + 192 - 0xC0) * 64 + (v % 64 + 128) % 64 = v := by omega
    rw [List.cons_append, lossy_opens (hbyte _ (by omega)) (lead_two (by omega) (by omega)),
      List.cons_append, lossy_last (hbyte _ (by omega)) (by omega) (by omega), hbits, hc,
      List.nil_append]
  · have hbits : ((v / 4096 % 16 + 224 - 0xE0) * 64 + (v / 64 % 64 + 128) % 64) * 64 +
        (v % 64 + 128) % 64 = v := by omega
    rw [List.cons_append, lossy_opens (hbyte _ (by omega)) (lead_three (by omega) (by omega)),
      List.cons_append, lossy_next (hbyte _ (by omega)) (by split <;> omega) (by split <;> omega),
      List.cons_append, lossy_last (hbyte _ (by omega)) (by omega) (by omega), hbits, hc,
      List.nil_append]
  · have hbits : (((v / 262144 % 8 + 240 - 0xF0) * 64 + (v / 4096 % 64 + 128) % 64) * 64 +
        (v / 64 % 64 + 128) % 64) * 64 + (v % 64 + 128) % 64 = v := by omega
    rw [List.cons_append, lossy_opens (hbyte _ (by omega)) (lead_four (by omega) (by omega)),
      List.cons_append, lossy_next (hbyte _ (by omega)) (by split <;> omega) (by split <;> omega),
      List.cons_append, lossy_next (hbyte _ (by omega)) (by omega) (by omega),
      List.cons_append, lossy_last (hbyte _ (by omega)) (by omega) (by omega), hbits, hc,
      List.nil_append]

theorem lossy_toUTF8 (cs : List Char) : lossy none (cs.flatMap String.utf8EncodeChar) = cs := by
  induction cs with
  | nil => rfl
  | cons c cs ih => rw [List.flatMap_cons, lossy_utf8EncodeChar, ih]

/-- What is text is read as it is. -/
theorem decodeLossy_of_decode {bytes : ByteArray} {s : String} (h : decode? bytes = some s) :
    decodeLossy bytes = s := by
  rw [decodeLossy, ← toUTF8_of_decode h, toList_toUTF8, lossy_toUTF8, String.ofList_toList]

/-! ## Line by line -/

/-- A character under way that takes no byte of ASCII. -/
def Partial.Beyond (p : Partial) : Prop :=
  0x80 ≤ p.low

theorem beyond_of_lead {n : Nat} {p : Partial} (h : lead n = .opens p) : p.Beyond := by
  unfold lead at h
  grind [Partial.Beyond]

/-- A byte that a character under way cannot take is read as if nothing stood before it. -/
theorem lossy_break {p : Partial} {b : UInt8} {r : List UInt8}
    (h : ¬ (p.low ≤ b.toNat ∧ b.toNat ≤ p.high)) :
    lossy (some p) (b :: r) = replacement :: lossy none (b :: r) := by
  simp only [lossy, if_neg h]

theorem lossy_append (r a : List UInt8) : ∀ p : Option Partial, (∀ q ∈ p, q.Beyond) →
    lossy p (a ++ 10 :: r) = lossy p a ++ '\n' :: lossy none r := by
  induction a with
  | nil =>
    have hfeed : lossy none (10 :: r) = '\n' :: lossy none r := rfl
    intro p hp
    cases p with
    | none => simpa [lossy] using hfeed
    | some q =>
      have hbeyond : 0x80 ≤ q.low := hp q rfl
      have hbreak : ¬ (q.low ≤ (10 : UInt8).toNat ∧ (10 : UInt8).toNat ≤ q.high) := by
        have hten : (10 : UInt8).toNat = 10 := rfl
        omega
      rw [List.nil_append, lossy_break hbreak, hfeed]
      rfl
  | cons b a ih =>
    have hnone : lossy none (b :: (a ++ 10 :: r)) = lossy none (b :: a) ++ '\n' :: lossy none r := by
      cases hlead : lead b.toNat with
      | complete c => simp [lossy, hlead, ih none]
      | opens q => simp [lossy, hlead, ih (some q), beyond_of_lead hlead]
      | malformed => simp [lossy, hlead, ih none]
    intro p hp
    cases p with
    | none => exact hnone
    | some q =>
      by_cases htaken : q.low ≤ b.toNat ∧ b.toNat ≤ q.high
      · by_cases hlast : q.missing ≤ 1
        · simp [lossy, htaken, hlast, ih none]
        · have hbeyond : ∀ q' ∈ some (Partial.mk (q.missing - 1) (q.bits * 64 + b.toNat % 64) 0x80 0xBF),
              q'.Beyond := by simp [Partial.Beyond]
          simp [lossy, htaken, hlast, ih _ hbeyond]
      · rw [List.cons_append, lossy_break htaken, lossy_break htaken, hnone, List.cons_append]

theorem decodeLossy_append (a b : ByteArray) :
    decodeLossy (a ++ "\n".toUTF8 ++ b) = decodeLossy a ++ "\n" ++ decodeLossy b := by
  have hfeed : "\n".toUTF8.toList = [10] := by
    rw [toList_toUTF8]
    rfl
  have h := lossy_append b.toList a.toList none (by simp)
  rw [decodeLossy, toList_append, toList_append, hfeed, List.append_assoc, List.singleton_append, h,
    decodeLossy, decodeLossy]
  simp [← String.toList_inj]

end Templating.Text
