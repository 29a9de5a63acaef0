import Mathlib.Data.List.Basic
import Templating.Proofs.Lines
import Templating.Text.Escaped

/-!
# Escaped text

An escaped text is one line and reads back as the text (`unescapeChars_escapeChars`).
-/

namespace Templating.Text

theorem escapeChar_cases (c : Char) : (c = '\\' ∧ escapeChar c = ['\\', '\\']) ∨
    (c = '\n' ∧ escapeChar c = ['\\', 'n']) ∨ (c = '\r' ∧ escapeChar c = ['\\', 'r']) ∨
    (c ≠ '\\' ∧ c ≠ '\n' ∧ c ≠ '\r') ∧ escapeChar c = [c] := by
  unfold escapeChar
  split_ifs with h₁ h₂ h₃
  · exact .inl ⟨h₁, rfl⟩
  · exact .inr (.inl ⟨h₂, rfl⟩)
  · exact .inr (.inr (.inl ⟨h₃, rfl⟩))
  · exact .inr (.inr (.inr ⟨⟨h₁, h₂, h₃⟩, rfl⟩))

theorem escapeChars_plain (cs : List Char) : '\n' ∉ escapeChars cs ∧ '\r' ∉ escapeChars cs := by
  have hchar : ∀ c, '\n' ∉ escapeChar c ∧ '\r' ∉ escapeChar c := by
    intro c
    rcases escapeChar_cases c with ⟨-, e⟩ | ⟨-, e⟩ | ⟨-, e⟩ | ⟨⟨-, hn, hr⟩, e⟩ <;> rw [e]
    · decide
    · decide
    · decide
    · exact ⟨by simpa using hn.symm, by simpa using hr.symm⟩
  constructor <;> intro h <;> obtain ⟨c, -, hc⟩ := List.mem_flatMap.1 h
  · exact (hchar c).1 hc
  · exact (hchar c).2 hc

theorem unescapeChars_cons {c : Char} (h : c ≠ '\\') (r : List Char) :
    unescapeChars (c :: r) = c :: unescapeChars r := by
  rw [unescapeChars]
  · rintro rfl
    exact absurd rfl h
  · rintro _ _ rfl
    exact absurd rfl h

theorem unescapeChars_escaped (d : Char) (r : List Char) : unescapeChars ('\\' :: d :: r) =
    (if d = 'n' then '\n' else if d = 'r' then '\r' else d) :: unescapeChars r := by
  rw [unescapeChars]

theorem unescapeChars_escapeChars : ∀ cs : List Char, unescapeChars (escapeChars cs) = cs
  | [] => rfl
  | c :: cs => by
    have ih := unescapeChars_escapeChars cs
    show unescapeChars (escapeChar c ++ escapeChars cs) = _
    rcases escapeChar_cases c with ⟨rfl, e⟩ | ⟨rfl, e⟩ | ⟨rfl, e⟩ | ⟨⟨h, -⟩, e⟩ <;> rw [e]
    · exact (unescapeChars_escaped '\\' _).trans (congrArg _ ih)
    · exact (unescapeChars_escaped 'n' _).trans (congrArg _ ih)
    · exact (unescapeChars_escaped 'r' _).trans (congrArg _ ih)
    · rw [List.singleton_append, unescapeChars_cons h, ih]

theorem isLine_escapeChars (cs : List Char) : IsLine (escapeChars cs) := by
  obtain ⟨hn, hr⟩ := escapeChars_plain cs
  exact ⟨hn, fun h => hr (List.mem_of_getLast? h)⟩

end Templating.Text
