import Templating.Text.Split

/-!
# Lines

A text divides at its line feeds and nowhere else. A text of lines that hold no line feed is read as
these lines, each without a carriage return at its end (`lines_unlines_append`), and so is a text cut
short, with its last line cut as well (`prefix_unlines`).
-/

namespace Templating

namespace Text

/-! ## Pieces between separators -/

theorem pieces_ne_nil (sep : Char) (cs : List Char) : pieces sep cs ≠ [] := by
  fun_induction pieces sep cs <;> simp_all

theorem length_pieces (sep : Char) (cs : List Char) :
    (pieces sep cs).length = cs.count sep + 1 := by
  fun_induction pieces sep cs with
  | case1 => rfl
  | case2 r ih => simp [ih]
  | case3 c r hc h ih => exact absurd h (pieces_ne_nil sep r)
  | case4 c r hc p ps h ih =>
    rw [h] at ih
    simpa [List.count_cons, hc] using ih

theorem intercalate_pieces (sep : Char) (cs : List Char) : [sep].intercalate (pieces sep cs) = cs := by
  fun_induction pieces sep cs with
  | case1 => rfl
  | case2 r ih =>
    rw [List.intercalate_cons_of_ne_nil (pieces_ne_nil sep r), ih]
    rfl
  | case3 c r hc h ih => exact absurd h (pieces_ne_nil sep r)
  | case4 c r hc p ps h ih =>
    rw [h] at ih
    cases ps with
    | nil => simpa using ih
    | cons q ps =>
      rw [List.intercalate_cons_cons] at ih ⊢
      rw [List.cons_append, List.cons_append, ← ih]

theorem pieces_append (sep : Char) (a b : List Char) :
    pieces sep (a ++ sep :: b) = pieces sep a ++ pieces sep b := by
  induction a with
  | nil => simp [pieces]
  | cons c a ih =>
    rw [List.cons_append, pieces, pieces, ih]
    split
    · rfl
    · cases h : pieces sep a with
      | nil => exact absurd h (pieces_ne_nil sep a)
      | cons p ps => rfl

theorem not_mem_of_mem_pieces {sep : Char} {cs p : List Char} (h : p ∈ pieces sep cs) : sep ∉ p := by
  fun_induction pieces sep cs generalizing p with
  | case1 =>
    rw [List.mem_singleton.1 h]
    exact List.not_mem_nil
  | case2 r ih =>
    rcases List.mem_cons.1 h with rfl | h
    · exact List.not_mem_nil
    · exact ih h
  | case3 c r hc hr ih => exact absurd hr (pieces_ne_nil sep r)
  | case4 c r hc q qs hr ih =>
    rw [hr] at ih
    rcases List.mem_cons.1 h with rfl | h
    · intro hm
      rcases List.mem_cons.1 hm with e | hm
      · exact hc e.symm
      · exact ih List.mem_cons_self hm
    · exact ih (List.mem_cons_of_mem _ h)

/-! ## Lines put together -/

def unlines (ls : List (List Char)) : List Char :=
  ls.flatMap (· ++ ['\n'])

theorem unlines_cons (l : List Char) (ls : List (List Char)) :
    unlines (l :: ls) = l ++ '\n' :: unlines ls := by
  simp [unlines]

theorem unlines_eq_intercalate : ∀ {ls : List (List Char)}, ls ≠ [] →
    unlines ls = ['\n'].intercalate ls ++ ['\n']
  | [l], _ => by simp [unlines]
  | l :: l' :: ls, _ => by
    rw [unlines_cons, unlines_eq_intercalate (List.cons_ne_nil l' ls), List.intercalate_cons_cons]
    simp

theorem intercalate_append : ∀ (ls : List (List Char)) {ls' : List (List Char)}, ls' ≠ [] →
    ['\n'].intercalate (ls ++ ls') = unlines ls ++ ['\n'].intercalate ls'
  | [], ls', _ => rfl
  | l :: ls, ls', h => by
    rw [List.cons_append, List.intercalate_cons_of_ne_nil (by simp [h]), intercalate_append ls h,
      unlines_cons]
    simp

theorem count_unlines : ∀ {ls : List (List Char)}, (∀ l ∈ ls, '\n' ∉ l) →
    (unlines ls).count '\n' = ls.length
  | [], _ => rfl
  | l :: ls, h => by
    have ih := count_unlines fun l' hl' => h l' (List.mem_cons_of_mem _ hl')
    rw [unlines_cons, List.count_append, List.count_cons_self, ih,
      List.count_eq_zero_of_not_mem (h l List.mem_cons_self), List.length_cons, Nat.zero_add]

/-! ## Lines read back -/

/-- A line as a reader takes it: no line feed in it and no carriage return at its end. -/
structure IsLine (l : List Char) : Prop where
  oneLine : '\n' ∉ l
  plainEnd : l.getLast? ≠ some '\r'

theorem pieces_of_not_mem {sep : Char} : ∀ {l : List Char}, sep ∉ l → pieces sep l = [l]
  | [], _ => rfl
  | c :: l, h => by
    rw [List.mem_cons, not_or] at h
    rw [pieces, if_neg (Ne.symm h.1), pieces_of_not_mem h.2]

theorem chomp_of_plainEnd {l : List Char} (h : l.getLast? ≠ some '\r') : chomp l = l := by
  unfold chomp
  split
  · rename_i r hr
    exact absurd (by simp [List.getLast?_eq_head?_reverse, hr]) h
  · rfl

theorem map_chomp : ∀ {ls : List (List Char)}, (∀ l ∈ ls, IsLine l) → ls.map chomp = ls
  | [], _ => rfl
  | l :: ls, h => by
    obtain ⟨hl, hls⟩ := List.forall_mem_cons.1 h
    rw [List.map_cons, chomp_of_plainEnd hl.plainEnd, map_chomp hls]

theorem chomp_prefix (l : List Char) : chomp l <+: l := by
  unfold chomp
  split
  · rename_i r hr
    exact ⟨['\r'], by rw [← List.reverse_reverse l, hr, List.reverse_cons]⟩
  · exact List.prefix_rfl

theorem chomped_concat (q : List Char) : ∀ ls : List (List Char),
    chomped (ls ++ [q]) = ls.map chomp ++ if q = [] then [] else [q]
  | [] => by simp [chomped]
  | l :: ls => by
    have hcons : chomped (l :: (ls ++ [q])) = chomp l :: chomped (ls ++ [q]) := by
      cases ls <;> rfl
    rw [List.cons_append, hcons, chomped_concat q ls, List.map_cons, List.cons_append]

theorem pieces_unlines_append {q : List Char} (hq : '\n' ∉ q) : ∀ {ls : List (List Char)},
    (∀ l ∈ ls, '\n' ∉ l) → pieces '\n' (unlines ls ++ q) = ls ++ [q]
  | [], _ => pieces_of_not_mem hq
  | l :: ls, h => by
    obtain ⟨hl, hls⟩ := List.forall_mem_cons.1 h
    rw [unlines_cons, List.append_assoc, List.cons_append, pieces_append, pieces_of_not_mem hl,
      pieces_unlines_append hq hls, List.singleton_append, List.cons_append]

theorem pieces_intercalate {sep : Char} : ∀ {ls : List (List Char)}, ls ≠ [] → (∀ l ∈ ls, sep ∉ l) →
    pieces sep ([sep].intercalate ls) = ls
  | [l], _, h => by
    rw [List.intercalate_singleton, pieces_of_not_mem (h l List.mem_cons_self)]
  | l :: l' :: ls, _, h => by
    obtain ⟨hl, hls⟩ := List.forall_mem_cons.1 h
    rw [List.intercalate_cons_cons, List.append_assoc, List.singleton_append, pieces_append,
      pieces_of_not_mem hl, pieces_intercalate (List.cons_ne_nil l' ls) hls, List.singleton_append]

theorem unlines_inj {ls ls' : List (List Char)} (h : ∀ l ∈ ls, '\n' ∉ l) (h' : ∀ l ∈ ls', '\n' ∉ l)
    (he : unlines ls = unlines ls') : ls = ls' := by
  have hpieces := congrArg (fun cs => pieces '\n' (cs ++ [])) he
  rw [pieces_unlines_append List.not_mem_nil h, pieces_unlines_append List.not_mem_nil h'] at hpieces
  exact List.append_cancel_right hpieces

/-- The lines of a text whose last line has no line feed. -/
theorem lines_unlines_append {ls : List (List Char)} (h : ∀ l ∈ ls, '\n' ∉ l) {q : List Char}
    (hq : '\n' ∉ q) : lines (String.ofList (unlines ls ++ q)) =
      (ls.map chomp ++ if q = [] then [] else [q]).map String.ofList := by
  rw [lines, String.toList_ofList, pieces_unlines_append hq h, chomped_concat]

/-- A text of lines that is cut short ends inside one of its lines. -/
theorem prefix_unlines : ∀ {ls : List (List Char)} {cs : List Char}, cs <+: unlines ls →
    ∃ done q rest, ls = done ++ rest ∧ cs = unlines done ++ q ∧ q <+: rest.head?.getD []
  | [], cs, h => ⟨[], cs, [], rfl, rfl, h⟩
  | l :: ls, cs, h => by
    have hunlines : unlines (l :: ls) = (l ++ ['\n']) ++ unlines ls := by simp [unlines]
    rw [hunlines] at h
    rcases List.prefix_or_prefix_of_prefix h (List.prefix_append _ _) with hp | ⟨cs', rfl⟩
    · rcases List.prefix_concat_iff.1 hp with rfl | hp
      · exact ⟨[l], [], ls, rfl, by simp [unlines], List.nil_prefix⟩
      · exact ⟨[], cs, l :: ls, rfl, rfl, hp⟩
    · obtain ⟨done, q, rest, rfl, rfl, hq⟩ := prefix_unlines ((List.prefix_append_right_inj _).1 h)
      exact ⟨l :: done, q, rest, rfl, by simp [unlines], hq⟩

end Text

end Templating
