import Mathlib
import Templating.Proofs.Ways

/-!
# Directories of files

A path to a file ends in the file's name, and what stands before it leads to the file's directory: its
parent leads there too, if it is not empty (`resolve_parent`). An entry below directories that are all there
is found again under its canonical name (`resolve_pathOf`).
-/

namespace Templating

theorem Text.mem_of_mem_pieces {sep c : Char} {cs p : List Char} (hp : p ∈ pieces sep cs) (hc : c ∈ p) :
    c ∈ cs := by
  fun_induction pieces sep cs generalizing p with
  | case1 =>
    obtain rfl := List.mem_singleton.1 hp
    exact hc
  | case2 r ih =>
    rcases List.mem_cons.1 hp with rfl | hp
    · cases hc
    · exact List.mem_cons_of_mem _ (ih hp hc)
  | case3 c' r hc' h => exact absurd h (pieces_ne_nil sep r)
  | case4 c' r hc' q qs h ih =>
    rw [h] at ih
    rcases List.mem_cons.1 hp with rfl | hp
    · rcases List.mem_cons.1 hc with rfl | hc
      · exact List.mem_cons_self
      · exact List.mem_cons_of_mem _ (ih List.mem_cons_self hc)
    · exact List.mem_cons_of_mem _ (ih (List.mem_cons_of_mem _ hp) hc)

namespace Path

/-! ## Parents -/

def IsSkip (x : List Char) : Prop :=
  x = [] ∨ x = ['.']

theorem ofPiece_of_isSkip {x : List Char} (h : IsSkip x) (n : Nat) : ofPiece (x, n) = none :=
  if_pos h

theorem exists_ofPiece {x : List Char} (h : ¬ IsSkip x) (n : Nat) : ∃ c, ofPiece (x, n) = some (c, n) := by
  have hplain : ¬ (x = [] ∨ x = ['.']) := h
  simp only [ofPiece, if_neg hplain]
  split
  · exact ⟨_, rfl⟩
  · exact ⟨_, rfl⟩

theorem length_intercalate_concat (ps : List (List Char)) (x : List Char) :
    (['/'].intercalate (ps ++ [x])).length = (ps.map (·.length + 1)).sum + x.length := by
  induction ps with
  | nil => simp
  | cons p ps ih =>
    rw [List.cons_append, List.intercalate_cons_of_ne_nil (by simp), List.map_cons, List.sum_cons,
      List.length_append, List.length_append, ih, List.length_singleton]
    omega

theorem intercalate_start (ps qs : List (List Char)) :
    ['/'].intercalate ps <+: ['/'].intercalate (ps ++ qs) := by
  induction ps with
  | nil => exact List.nil_prefix
  | cons p ps ih =>
    by_cases hps : ps = []
    · subst hps
      rw [List.intercalate_singleton, List.singleton_append]
      cases qs with
      | nil => simp
      | cons q qs =>
        rw [List.intercalate_cons_cons, List.append_assoc]
        exact List.prefix_append _ _
    · rw [List.cons_append, List.intercalate_cons_of_ne_nil hps, List.intercalate_cons_of_ne_nil (by simp [hps])]
      exact (List.prefix_append_right_inj _).2 ih

/-- The last mark stands where the last piece ends that counts. -/
theorem exists_kept_of_mark {c : Component} {n : Nat} {ps : List (List Char)}
    (h : ((offsets 0 ps).filterMap ofPiece).getLast? = some (c, n)) :
    ∃ kept skips, ps = kept ++ skips ∧ kept ≠ [] ∧ (∀ x ∈ skips, IsSkip x) ∧
      n = (['/'].intercalate kept).length ∧ n ≠ 0 := by
  induction ps using List.reverseRecOn with
  | nil => cases h
  | append_singleton ps x ih =>
    rw [offsets_append, List.filterMap_append] at h
    by_cases hskip : IsSkip x
    · simp only [offsets, List.filterMap_cons, ofPiece_of_isSkip hskip, List.filterMap_nil,
        List.append_nil] at h
      obtain ⟨kept, skips, rfl, hkept, hskips, hn⟩ := ih h
      refine ⟨kept, skips ++ [x], by simp, hkept, ?_, hn⟩
      intro y hy
      rcases List.mem_append.1 hy with hy | hy
      · exact hskips y hy
      · exact List.mem_singleton.1 hy ▸ hskip
    · obtain ⟨c', hc⟩ := exists_ofPiece hskip (0 + (ps.map (·.length + 1)).sum + x.length)
      simp only [offsets, List.filterMap_cons, hc, List.filterMap_nil, List.getLast?_concat,
        Option.some.injEq, Prod.mk.injEq] at h
      have hlength := length_intercalate_concat ps x
      have hx : x.length ≠ 0 := fun e => hskip (.inl (List.length_eq_zero_iff.1 e))
      exact ⟨ps ++ [x], [], by simp, by simp, fun y hy => absurd hy List.not_mem_nil, by omega, by omega⟩

theorem isSkip_of_no_mark {ps : List (List Char)} (h : (offsets 0 ps).filterMap ofPiece = []) :
    ∀ x ∈ ps, IsSkip x := by
  induction ps using List.reverseRecOn with
  | nil => exact nofun
  | append_singleton ps x ih =>
    rw [offsets_append, List.filterMap_append, List.append_eq_nil_iff] at h
    intro y hy
    rcases List.mem_append.1 hy with hy | hy
    · exact ih h.1 y hy
    · obtain rfl := List.mem_singleton.1 hy
      by_contra hskip
      obtain ⟨c, hc⟩ := exists_ofPiece hskip (0 + (ps.map (·.length + 1)).sum + y.length)
      have hnil := h.2
      simp only [offsets, List.filterMap_cons, hc] at hnil
      cases hnil

theorem parent?_of_marks {p : Path} {before : List (Component × Nat)} {last : Component × Nat} {c : Component}
    {n : Nat} (h : p.marks = before ++ [last]) (hbefore : before.getLast? = some (c, n)) :
    p.parent? = some (p.upTo n) := by
  obtain ⟨front, rfl⟩ := List.getLast?_eq_some_iff.1 hbefore
  unfold parent?
  rw [h]
  simp

/-- What is kept of a text in front of a name: as much as leads as far as all of it. -/
structure Kept (a kept : List Char) : Prop where
  ne_nil : kept ≠ []
  start : kept <+: a ++ ['/']
  leads : (∃ skips, Text.pieces '/' a = Text.pieces '/' kept ++ skips ∧ ∀ x ∈ skips, IsSkip x) ∨
    (∀ x ∈ Text.pieces '/' a, IsSkip x) ∧ (kept = ['/'] ∨ kept = ['.'])

theorem marks_eq (p : Path) : p.marks = (leading p.text.toList).map (·, 1) ++
    (offsets 0 (Text.pieces '/' p.text.toList)).filterMap ofPiece := by
  rw [leading, apply_ite (List.map _), apply_ite (List.map _)]
  rfl

/-- The names that stand in a path, each with its place. -/
def pieceMarks (cs : List Char) : List (Component × Nat) :=
  (offsets 0 (Text.pieces '/' cs)).filterMap ofPiece

theorem name?_eq_some_iff {p : Path} {name : String} :
    p.name? = some name ↔ ∃ n, (pieceMarks p.text.toList).getLast? = some (.name name, n) := by
  have hleading : ∀ n, (.name name, n) ∉ (leading p.text.toList).map (·, 1) := by
    intro n hmem
    obtain ⟨c, hc, he⟩ := List.mem_map.1 hmem
    unfold leading at hc
    split at hc
    · simp [List.mem_singleton.1 hc] at he
    · split at hc
      · simp [List.mem_singleton.1 hc] at he
      · cases hc
  have hlast : p.name? = some name ↔ ∃ n, p.marks.getLast? = some (.name name, n) := by
    unfold name?
    constructor
    · intro h
      split at h
      · rename_i n hn
        exact ⟨n, Option.some.inj h ▸ hn⟩
      · cases h
    · rintro ⟨n, hn⟩
      rw [hn]
  rw [hlast, marks_eq]
  refine exists_congr fun n => ?_
  show (_ ++ pieceMarks p.text.toList).getLast? = _ ↔ _
  rw [List.getLast?_append]
  cases hpieces : (pieceMarks p.text.toList).getLast? with
  | none =>
    simp only [Option.none_or, reduceCtorEq, iff_false]
    exact fun h => hleading n (List.mem_of_getLast? h)
  | some m => simp

theorem pieceMarks_of_isSkip {x : List Char} (hx : IsSkip x) (a : List Char) :
    pieceMarks (a ++ '/' :: x) = pieceMarks a := by
  have hslash : '/' ∉ x := by rcases hx with rfl | rfl <;> simp
  unfold pieceMarks
  rw [offsets_pieces_append a x hslash, List.filterMap_append]
  simp [ofPiece_of_isSkip hx]

theorem name?_join_dot {p : Path} {name : String} : (p.join ⟨"."⟩).name? = some name → p.name? = some name := by
  obtain ⟨front, hf, htext, hjoin⟩ := p.exists_front
  rw [hjoin "." (by decide), name?_eq_some_iff, name?_eq_some_iff, String.toList_append, String.toList_ofList]
  rcases hf with rfl | ⟨a, rfl⟩
  · rintro ⟨n, hn⟩
    simp [pieceMarks, Text.pieces, offsets, ofPiece] at hn
  · have hdot : a ++ ['/'] ++ ".".toList = a ++ '/' :: ['.'] := by simp
    rw [hdot, pieceMarks_of_isSkip (.inr rfl)]
    rcases htext with htext | ⟨htext, -⟩
    · rw [← htext, pieceMarks_of_isSkip (.inl rfl)]
      exact id
    · rw [List.append_left_inj] at htext
      rw [htext]
      exact id

theorem exists_leading {a : List Char} (h : ∀ x ∈ Text.pieces '/' a, IsSkip x) (y : List Char) :
    ∃ c, leading (a ++ '/' :: y) = [c] ∧ ∃ x, (x = '/' ∨ x = '.') ∧ [x] <+: a ++ ['/'] := by
  cases a with
  | nil => exact ⟨.root, rfl, '/', .inl rfl, List.prefix_refl _⟩
  | cons x a =>
    rw [leading_append (List.cons_ne_nil x a)]
    by_cases hx : x = '/'
    · subst hx
      exact ⟨.root, rfl, '/', .inl rfl, by simp⟩
    · obtain ⟨p, ps, hp⟩ := List.exists_cons_of_ne_nil (Text.pieces_ne_nil '/' a)
      have hpieces : Text.pieces '/' (x :: a) = (x :: p) :: ps := by
        rw [Text.pieces, if_neg hx, hp]
      rw [hpieces] at h
      have hdot : x :: p = ['.'] := (h _ List.mem_cons_self).resolve_left (List.cons_ne_nil x p)
      obtain ⟨rfl, rfl⟩ := List.cons.inj hdot
      refine ⟨.current, ?_, '.', .inr rfl, by simp⟩
      rw [leading, hpieces]
      rfl

theorem exists_parent {a : List Char} {name : String} (hn : IsName name.toList) :
    ∃ kept, Kept a kept ∧ (Path.mk (String.ofList (a ++ ['/']) ++ name)).parent? = some ⟨String.ofList kept⟩ := by
  have hmarks : (Path.mk (String.ofList (a ++ ['/']) ++ name)).marks =
      (leading (a ++ '/' :: name.toList)).map (·, 1) ++ (offsets 0 (Text.pieces '/' a)).filterMap ofPiece ++
        [(.name name, a.length + 1 + name.length)] := by
    rw [marks_eq, String.toList_append, String.toList_ofList, List.append_assoc, List.singleton_append,
      offsets_pieces_append a _ hn.noSlash, List.filterMap_append, ← List.append_assoc]
    simp [ofPiece_of_isName hn, String.length_toList]
  have hupTo {kept : List Char} (hkept : kept <+: a ++ ['/']) :
      (Path.mk (String.ofList (a ++ ['/']) ++ name)).upTo kept.length = ⟨String.ofList kept⟩ := by
    obtain ⟨rest, hrest⟩ := hkept
    rw [upTo, String.toList_append, String.toList_ofList, ← hrest, List.append_assoc, List.take_left]
  cases hlast : ((offsets 0 (Text.pieces '/' a)).filterMap ofPiece).getLast? with
  | some mark =>
    obtain ⟨c, n⟩ := mark
    obtain ⟨kept, skips, hpieces, hne, hskips, hlength, hpos⟩ := exists_kept_of_mark hlast
    have hkept : Text.pieces '/' (['/'].intercalate kept) = kept :=
      Text.pieces_intercalate hne fun x hx => Text.not_mem_of_mem_pieces (hpieces ▸ List.mem_append_left _ hx)
    have hstart : ['/'].intercalate kept <+: a ++ ['/'] := by
      rw [← Text.intercalate_pieces '/' a, hpieces]
      exact (intercalate_start kept skips).trans (List.prefix_append _ _)
    refine ⟨['/'].intercalate kept, ⟨?_, hstart, .inl ⟨skips, by rw [hkept, hpieces], hskips⟩⟩, ?_⟩
    · exact fun e => hpos (by rw [hlength, e, List.length_nil])
    · rw [← hupTo hstart, ← hlength]
      exact parent?_of_marks hmarks (by rw [List.getLast?_append, hlast]; rfl)
  | none =>
    have hnil := List.getLast?_eq_none_iff.1 hlast
    have hskips := isSkip_of_no_mark hnil
    obtain ⟨c, hleading, x, hx, hstart⟩ := exists_leading hskips name.toList
    refine ⟨[x], ⟨List.cons_ne_nil x [], hstart, .inr ⟨hskips, ?_⟩⟩, ?_⟩
    · rcases hx with rfl | rfl
      · exact .inl rfl
      · exact .inr rfl
    · rw [← hupTo hstart]
      exact parent?_of_marks hmarks (by rw [hnil, hleading]; rfl)

theorem one_lt_components {p dir : Path} (h : p.parent? = some dir) (hne : dir.text ≠ "") :
    1 < p.components.length := by
  rw [components, List.length_map, ← List.length_reverse]
  unfold parent? at h
  split at h
  · cases h
  · cases h
  · obtain rfl := Option.some.inj h
    exact absurd rfl hne
  · rename_i hmarks
    rw [hmarks]
    simp

end Path

namespace FileTree

variable {t : FileTree} {p : Path} {names ps n d : List String} {e : Entry} {bytes : ByteArray} {stamp : Nat}

/-! ## The directory of a file -/

/-- What can be the name of an entry. -/
structure EntryName (s : String) : Prop where
  isName : Path.IsName s.toList
  noZero : '\x00' ∉ s.toList
  short : s.utf8ByteSize ≤ 255

namespace EntryName

variable {s : String} (h : EntryName s)
include h

theorem not_skip : ¬ (s = "" ∨ s = ".") := by
  rintro (rfl | rfl)
  · exact h.isName.ne_nil rfl
  · exact h.isName.ne_dot rfl

theorem ne_dots : s ≠ ".." := by
  rintro rfl
  exact h.isName.ne_dots rfl

theorem walk (he : t.lookup (names ++ [s]) = some e) (ps : List String) :
    t.walk names .directory (s :: ps) = t.walk (names ++ [s]) e ps := by
  rw [FileTree.walk, if_neg h.not_skip, if_neg h.ne_dots, if_neg (Nat.not_lt.2 h.short), he]

end EntryName

theorem entryName {s : String} (hslash : '/' ∉ s.toList) (hzero : '\x00' ∉ s.toList)
    (hskip : ¬ (s = "" ∨ s = ".")) (hup : s ≠ "..") (hshort : ¬ 255 < s.utf8ByteSize) : EntryName s := by
  refine ⟨⟨fun e => hskip (.inl ?_), fun e => hskip (.inr ?_), fun e => hup ?_, hslash⟩, hzero,
    Nat.not_lt.1 hshort⟩
  · rwa [← String.toList_inj]
  · rwa [← String.toList_inj]
  · rwa [← String.toList_inj]

/-- The way to a file leads to its directory, and then to its name there. -/
theorem walk_concat_file {s : String} (hslash : '/' ∉ s.toList) (hzero : '\x00' ∉ s.toList)
    (h : t.walk names e (ps ++ [s]) = .ok (.entry n (.file bytes stamp))) :
    EntryName s ∧ ∃ d, t.walk names e ps = .ok (.entry d .directory) ∧ n = d ++ [s] := by
  fun_induction FileTree.walk t names e ps with
  | case1 names e =>
    cases e with
    | file => cases h
    | directory =>
      rw [List.nil_append, walk] at h
      split at h
      · cases h
      · rename_i hskip
        split at h
        · cases h
        · rename_i hup
          split at h
          · cases h
          · rename_i hshort
            split at h
            · exact ⟨entryName hslash hzero hskip hup hshort, names, rfl,
                (Place.entry.inj (Except.ok.inj h)).1.symm⟩
            · cases h
  | case2 => cases h
  | case3 names p ps hskip ih =>
    rw [List.cons_append, walk, if_pos hskip] at h
    exact ih h
  | case4 names ps hskip ih =>
    rw [List.cons_append, walk, if_neg hskip, if_pos rfl] at h
    exact ih h
  | case5 names p ps hskip hup hlong =>
    rw [List.cons_append, walk, if_neg hskip, if_neg hup, if_pos hlong] at h
    cases h
  | case6 names p ps hskip hup hlong child hchild ih =>
    rw [List.cons_append, walk, if_neg hskip, if_neg hup, if_neg hlong, hchild] at h
    exact ih h
  | case7 names p ps hskip hup hlong hnone | case8 names p ps hskip hup hlong hnone =>
    rw [List.cons_append, walk, if_neg hskip, if_neg hup, if_neg hlong, hnone] at h
    dsimp only at h
    split at h <;> cases h

theorem walk_of_append_skips {skips : List String} (hskips : ∀ s ∈ skips, s = "" ∨ s = ".") :
    ∀ {ps : List String}, t.walk names e (ps ++ skips) = .ok (.entry d .directory) →
      t.walk names e ps = .ok (.entry d .directory) := by
  induction skips with
  | nil =>
    intro ps h
    rwa [List.append_nil] at h
  | cons s skips ih =>
    intro ps h
    obtain ⟨hs, hskips⟩ := List.forall_mem_cons.1 hskips
    rw [← List.singleton_append, ← List.append_assoc] at h
    exact walk_of_append_skip hs (ih hskips h)

theorem skips_ofList {xs : List (List Char)} (h : ∀ x ∈ xs, Path.IsSkip x) :
    ∀ s ∈ xs.map String.ofList, s = "" ∨ s = "." := by
  intro s hs
  obtain ⟨x, hx, rfl⟩ := List.mem_map.1 hs
  rcases h x hx with rfl | rfl
  · exact .inl rfl
  · exact .inr rfl

theorem walk_kept {a kept : List Char} (hkept : Path.Kept a kept)
    (h : t.walk names .directory ((Text.pieces '/' a).map String.ofList) = .ok (.entry d .directory)) :
    t.walk names .directory ((Text.pieces '/' kept).map String.ofList) = .ok (.entry d .directory) := by
  rcases hkept.leads with ⟨skips, hpieces, hskips⟩ | ⟨hskips, hone⟩
  · rw [hpieces, List.map_append] at h
    exact walk_of_append_skips (skips_ofList hskips) h
  · have hnames : t.walk names .directory [] = .ok (.entry d .directory) :=
      walk_of_append_skips (skips_ofList hskips) h
    rw [← hnames]
    rcases hone with rfl | rfl
    · rfl
    · rfl

theorem exists_last_slash {cs : List Char} (h : '/' ∈ cs) : ∃ a s, cs = a ++ ['/'] ++ s ∧ '/' ∉ s := by
  obtain ⟨s, a, hcs, hs⟩ := List.eq_append_cons_of_mem (List.mem_reverse.2 h)
  refine ⟨a.reverse, s.reverse, ?_, fun hmem => hs (List.mem_reverse.1 hmem)⟩
  rw [← List.reverse_reverse cs, hcs]
  simp

theorem utf8ByteSize_le_of_prefix {a b : List Char} (h : a <+: b) :
    (String.ofList a).utf8ByteSize ≤ (String.ofList b).utf8ByteSize := by
  obtain ⟨rest, rfl⟩ := h
  rw [String.ofList_append, String.utf8ByteSize_append]
  exact Nat.le_add_right _ _

/-- The parent of a path to a file leads to the file's directory, where the path has a slash. -/
theorem resolve_parent (h : t.resolve p = .ok (.entry n (.file bytes stamp))) (hslash : '/' ∈ p.text.toList) :
    ∃ dir, p.parent? = some dir ∧ dir.text ≠ "" ∧ t.resolve dir = .ok (.entry n.dropLast .directory) := by
  obtain ⟨hne, hzero, hlong, hwalk⟩ := resolve_eq_ok_iff.1 h
  obtain ⟨a, s, htext, hs⟩ := exists_last_slash hslash
  have hp : p = ⟨String.ofList (a ++ ['/']) ++ String.ofList s⟩ := by
    rw [← String.ofList_append, ← htext, String.ofList_toList]
  have hsplit : Text.split p.text '/' = (Text.pieces '/' a).map String.ofList ++ [String.ofList s] := by
    rw [Text.split, htext, List.append_assoc, List.singleton_append, Text.pieces_append,
      Text.pieces_of_not_mem hs, List.map_append, List.map_singleton]
  rw [hsplit] at hwalk
  obtain ⟨hname, d, hd, rfl⟩ := walk_concat_file (by rwa [String.toList_ofList])
    (by rw [String.toList_ofList]; exact fun hmem => hzero (htext ▸ List.mem_append_right _ hmem)) hwalk
  obtain ⟨kept, hkept, hparent⟩ := Path.exists_parent (a := a) hname.isName
  have hstart : kept <+: p.text.toList := htext ▸ hkept.start.trans (List.prefix_append _ _)
  have horigin : t.origin ⟨String.ofList kept⟩ = t.origin p := by
    obtain ⟨c, kept, rfl⟩ := List.exists_cons_of_ne_nil hkept.ne_nil
    obtain ⟨rest, hrest⟩ := hstart
    simp only [origin, Path.isAbsolute, Text.startsWith, String.toList_ofList, ← hrest]
    rfl
  rw [← hp] at hparent
  refine ⟨_, hparent, by simpa using hkept.ne_nil, resolve_eq_ok_iff.2 ⟨by simpa using hkept.ne_nil, ?_, ?_, ?_⟩⟩
  · rw [String.toList_ofList]
    exact fun hmem => hzero (hstart.mem hmem)
  · have hle := utf8ByteSize_le_of_prefix hstart
    rw [String.ofList_toList] at hle
    exact hle.trans hlong
  · rw [horigin, List.dropLast_concat, Text.split, String.toList_ofList]
    exact walk_kept hkept hd

/-! ## Canonical names -/

/-- An entry below directories that are all there. -/
inductive Standing (t : FileTree) : List String → Entry → Prop
  | root : Standing t [] .directory
  | entry {d : List String} {name : String} {e : Entry} : Standing t d .directory → EntryName name →
      t.lookup (d ++ [name]) = some e → Standing t (d ++ [name]) e

theorem Standing.dropLast (h : Standing t names e) : Standing t names.dropLast .directory := by
  cases h with
  | root => exact .root
  | entry hd =>
    rw [List.dropLast_concat]
    exact hd

theorem Standing.of_walk (h : Standing t names e) (hps : ∀ s ∈ ps, '/' ∉ s.toList ∧ '\x00' ∉ s.toList)
    {e' : Entry} (hwalk : t.walk names e ps = .ok (.entry n e')) : Standing t n e' := by
  fun_induction FileTree.walk t names e ps with
  | case1 names e =>
    obtain ⟨rfl, rfl⟩ := Place.entry.inj (Except.ok.inj hwalk)
    exact h
  | case2 | case5 | case7 | case8 => cases hwalk
  | case3 names p ps hskip ih => exact ih h (List.forall_mem_cons.1 hps).2 hwalk
  | case4 names ps hskip ih => exact ih h.dropLast (List.forall_mem_cons.1 hps).2 hwalk
  | case6 names p ps hskip hup hlong child hchild ih =>
    obtain ⟨⟨hslash, hzero⟩, hps⟩ := List.forall_mem_cons.1 hps
    exact ih (.entry h (entryName hslash hzero hskip hup hlong) hchild) hps hwalk

theorem Standing.of_resolve (hcwd : Standing t t.workingDirectory .directory)
    (h : t.resolve p = .ok (.entry n e)) : Standing t n e := by
  obtain ⟨-, hzero, -, hwalk⟩ := resolve_eq_ok_iff.1 h
  have horigin : Standing t (t.origin p) .directory := by
    unfold origin
    split
    · exact .root
    · exact hcwd
  refine horigin.of_walk ?_ hwalk
  intro s hs
  obtain ⟨x, hx, rfl⟩ := List.mem_map.1 hs
  rw [String.toList_ofList]
  exact ⟨Text.not_mem_of_mem_pieces hx, fun hmem => hzero (Text.mem_of_mem_pieces hx hmem)⟩

theorem Standing.walk (h : Standing t n e) : t.walk [] .directory n = .ok (.entry n e) := by
  induction h with
  | root => rfl
  | entry hd hname he ih =>
    rw [walk_append ih, hname.walk he]
    rfl

theorem Standing.entryNames (h : Standing t n e) : ∀ s ∈ n, EntryName s := by
  induction h with
  | root => exact nofun
  | entry hd hname he ih =>
    intro s hs
    rcases List.mem_append.1 hs with hs | hs
    · exact ih s hs
    · exact List.mem_singleton.1 hs ▸ hname

theorem toList_pathOf (hne : n ≠ []) : (pathOf n).text.toList = n.flatMap fun s => '/' :: s.toList := by
  have hjoin : ∀ l : List String,
      (String.join (l.map ("/" ++ ·))).toList = l.flatMap fun s => '/' :: s.toList := by
    intro l
    induction l with
    | nil => rfl
    | cons s l ih => simp [String.join_cons, ih]
  have hempty : n.isEmpty = false := by simpa using hne
  rw [pathOf, hempty, ← hjoin]
  rfl

theorem pieces_flatMap {x : List Char} (hx : '/' ∉ x) : ∀ {l : List String}, (∀ s ∈ l, '/' ∉ s.toList) →
    Text.pieces '/' (x ++ l.flatMap fun s => '/' :: s.toList) = x :: l.map String.toList
  | [], _ => by
    rw [List.flatMap_nil, List.append_nil, Text.pieces_of_not_mem hx]
    rfl
  | s :: l, h => by
    obtain ⟨hs, hl⟩ := List.forall_mem_cons.1 h
    rw [List.flatMap_cons, List.cons_append, Text.pieces_append, Text.pieces_of_not_mem hx, pieces_flatMap hs hl]
    rfl

/-- The canonical name of an entry leads to it from everywhere, if it is not too long. -/
theorem Standing.resolve_pathOf (h : Standing t n e) (hne : n ≠ [])
    (hlong : (pathOf n).text.utf8ByteSize ≤ 4095) :
    (pathOf n).isAbsolute ∧ t.resolve (pathOf n) = .ok (.entry n e) := by
  have htext := toList_pathOf hne
  obtain ⟨s, l, hn⟩ := List.exists_cons_of_ne_nil hne
  have habsolute : (pathOf n).isAbsolute := by
    rw [hn] at htext
    simp [Path.isAbsolute, Text.startsWith, hn, htext]
  refine ⟨habsolute, resolve_eq_ok_iff.2 ⟨?_, ?_, hlong, ?_⟩⟩
  · intro he
    rw [he, hn] at htext
    cases htext
  · rw [htext]
    intro hmem
    obtain ⟨s, hs, hmem⟩ := List.mem_flatMap.1 hmem
    rcases List.mem_cons.1 hmem with hmem | hmem
    · cases hmem
    · exact (h.entryNames s hs).noZero hmem
  · have hpieces := pieces_flatMap List.not_mem_nil fun s hs => (h.entryNames s hs).isName.noSlash
    rw [List.nil_append, ← htext] at hpieces
    rw [origin, if_pos habsolute, Text.split, hpieces]
    simpa [FileTree.walk, Function.comp_def] using h.walk

end FileTree

end Templating
