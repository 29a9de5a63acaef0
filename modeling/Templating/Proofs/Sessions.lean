import Mathlib.Data.List.Basic
import Templating.Proofs.Escaping
import Templating.Session

/-!
# Sessions read back

A character of a key is written as itself or with a backslash before it, so the first equals sign that
no backslash protects ends the key (`cutLine_key`). A session is read back entry by entry, and the
entries in key order are the dictionary again (`parse_inverts_render`).
-/

namespace Templating

/-! ## Dictionaries from their entries -/

namespace Dictionary

theorem insertInto_last {k : String} (v : String) : ∀ {l : List (String × String)},
    (∀ e ∈ l, e.1 < k) → insertInto k v l = l ++ [(k, v)]
  | [], _ => rfl
  | e :: l, h => by
    obtain ⟨he, hl⟩ := List.forall_mem_cons.1 h
    rw [insertInto, if_neg (String.lt_asymm he), if_pos he, insertInto_last v hl, List.cons_append]

theorem entries_foldl_insert (l : List (String × String)) : ∀ d : Dictionary,
    (d.entries ++ l).Pairwise (·.1 < ·.1) →
      (l.foldl (fun d e => d.insert e.1 e.2) d).entries = d.entries ++ l := by
  induction l with
  | nil => intro d _; simp
  | cons e l ih =>
    intro d h
    have hlast : ∀ x ∈ d.entries, x.1 < e.1 := fun x hx =>
      (List.pairwise_append.1 h).2.2 x hx e List.mem_cons_self
    have hentries : (d.insert e.1 e.2).entries = d.entries ++ [e] := insertInto_last e.2 hlast
    rw [List.foldl_cons, ih _ (by rw [hentries]; simpa using h), hentries]
    simp

theorem ofList_entries (d : Dictionary) : ofList d.entries = d :=
  ext_entries (entries_foldl_insert d.entries {} d.sorted)

end Dictionary

namespace Session

/-! ## Keys -/

/-- How a character of a key is written. -/
def keyChar (c : Char) : List Char :=
  protectEquals (Text.escapeChar c)

theorem protectEquals_escapeChars (key : List Char) :
    protectEquals (Text.escapeChars key) = key.flatMap keyChar :=
  List.flatMap_assoc

/-- After a backslash stands a character that reads back as the one of the key. -/
theorem keyChar_cases (c : Char) :
    (∃ d, keyChar c = ['\\', d] ∧ ∀ r, Text.unescapeChars ('\\' :: d :: r) = c :: Text.unescapeChars r) ∨
      (c ≠ '\\' ∧ c ≠ '=') ∧ keyChar c = [c] := by
  unfold keyChar
  rcases Text.escapeChar_cases c with ⟨rfl, e⟩ | ⟨rfl, e⟩ | ⟨rfl, e⟩ | ⟨⟨h, -⟩, e⟩ <;> rw [e]
  · exact .inl ⟨'\\', rfl, Text.unescapeChars_escaped '\\'⟩
  · exact .inl ⟨'n', rfl, Text.unescapeChars_escaped 'n'⟩
  · exact .inl ⟨'r', rfl, Text.unescapeChars_escaped 'r'⟩
  · by_cases heq : c = '='
    · obtain rfl := heq
      exact .inl ⟨'=', rfl, Text.unescapeChars_escaped '='⟩
    · exact .inr ⟨⟨h, heq⟩, by simp [protectEquals, heq]⟩

theorem cutLine_escaped (d : Char) (r : List Char) :
    cutLine ('\\' :: d :: r) = (cutLine r).map fun p => ('\\' :: d :: p.1, p.2) := by
  rw [cutLine]

theorem cutLine_plain {c : Char} (h : c ≠ '\\' ∧ c ≠ '=') (r : List Char) :
    cutLine (c :: r) = (cutLine r).map fun p => (c :: p.1, p.2) := by
  rw [cutLine, if_neg h.2]
  · rintro rfl
    exact absurd rfl h.1
  · rintro _ _ rfl
    exact absurd rfl h.1

theorem cutLine_key (value : List Char) : ∀ key : List Char,
    cutLine (key.flatMap keyChar ++ '=' :: value) = some (key.flatMap keyChar, value)
  | [] => by simp [cutLine]
  | c :: key => by
    have ih := cutLine_key value key
    rw [List.flatMap_cons]
    rcases keyChar_cases c with ⟨d, e, -⟩ | ⟨h, e⟩ <;> rw [e]
    · simp only [List.cons_append, List.nil_append, cutLine_escaped, ih, Option.map_some]
    · simp only [List.cons_append, List.nil_append, cutLine_plain h, ih, Option.map_some]

theorem unescapeChars_key : ∀ key : List Char, Text.unescapeChars (key.flatMap keyChar) = key
  | [] => rfl
  | c :: key => by
    have ih := unescapeChars_key key
    rw [List.flatMap_cons]
    rcases keyChar_cases c with ⟨d, e, hd⟩ | ⟨h, e⟩ <;> rw [e]
    · exact (hd _).trans (congrArg (c :: ·) ih)
    · rw [List.singleton_append, Text.unescapeChars_cons h.1, ih]

theorem newline_not_mem_key (key : List Char) : '\n' ∉ key.flatMap keyChar := by
  rw [← protectEquals_escapeChars, protectEquals, List.mem_flatMap]
  rintro ⟨c, hc, hn⟩
  split at hn
  · simp at hn
  · obtain rfl := List.mem_singleton.1 hn
    exact (Text.escapeChars_plain key).1 hc

/-! ## Lines of entries -/

def entryLine (e : String × String) : List Char :=
  e.1.toList.flatMap keyChar ++ '=' :: Text.escapeChars e.2.toList

theorem isLine_entryLine (e : String × String) : Text.IsLine (entryLine e) := by
  obtain ⟨hn, hr⟩ := Text.escapeChars_plain e.2.toList
  constructor
  · rw [entryLine, List.mem_append, List.mem_cons]
    rintro (hkey | heq | hvalue)
    · exact newline_not_mem_key _ hkey
    · exact absurd heq (by decide)
    · exact hn hvalue
  · intro h
    rw [entryLine, List.getLast?_append_of_ne_nil _ (List.cons_ne_nil _ _)] at h
    rcases List.mem_cons.1 (List.mem_of_getLast? h) with e | hm
    · exact absurd e (by decide)
    · exact hr hm

theorem parseLine_entryLine (e : String × String) : parseLine (String.ofList (entryLine e)) = some e := by
  simp only [parseLine, String.toList_ofList, entryLine, cutLine_key, Option.map_some, unescapeChars_key,
    Text.unescapeChars_escapeChars, String.ofList_toList]

theorem render_toList (d : Dictionary) : (render d).toList = Text.unlines (d.entries.map entryLine) := by
  rw [render, String.toList_ofList, Text.unlines, List.flatMap_map]
  congr 1
  funext e
  rw [renderEntry, protectEquals_escapeChars]
  rfl

theorem filterMap_lines_render (d : Dictionary) : (Text.lines (render d)).filterMap parseLine = d.entries := by
  have hlines : ∀ l ∈ d.entries.map entryLine, Text.IsLine l := by
    intro l hl
    obtain ⟨e, -, rfl⟩ := List.mem_map.1 hl
    exact isLine_entryLine e
  have htext : render d = String.ofList (Text.unlines (d.entries.map entryLine) ++ []) := by
    rw [List.append_nil, ← render_toList, String.ofList_toList]
  rw [htext, Text.lines_unlines_append (fun l h => (hlines l h).oneLine) List.not_mem_nil, if_pos rfl,
    List.append_nil, Text.map_chomp hlines, List.map_map, List.filterMap_map]
  have hread : parseLine ∘ String.ofList ∘ entryLine = some := by
    funext e
    rw [Function.comp_apply, Function.comp_apply, parseLine_entryLine]
  rw [hread, List.filterMap_some]

/-- **Sessions read back.** Whatever keys and values a dictionary holds, it is what its session is read
as. -/
theorem parse_inverts_render (d : Dictionary) : parse (render d) = d := by
  rw [parse, filterMap_lines_render, Dictionary.ofList_entries]

example : parse "a\\=b\\\\=x=y\\n\n" = .ofList [("a=b\\", "x=y\n")] := by decide +kernel

end Session

end Templating
