import Mathlib
import Templating.Proofs.Directories

/-!
# Canonical paths

Joined and shortened, an absolute path stays absolute. The canonical name of what is found at one is no longer
than the path itself, so it can be opened and leads to the same file (`resolve_canonical`).
-/

namespace Templating

/-! ## Absolute paths -/

namespace Path

variable {p q dir : Path}

theorem isAbsolute_iff : p.isAbsolute ↔ ∃ r, p.text.toList = '/' :: r := by
  constructor
  · intro h
    obtain ⟨rest, hrest⟩ := List.isPrefixOf_iff_prefix.1 h
    exact ⟨rest, hrest.symm⟩
  · rintro ⟨r, hr⟩
    exact List.isPrefixOf_iff_prefix.2 ⟨r, hr.symm⟩

theorem isAbsolute_of_prefix (h : p.isAbsolute) (hpq : p.text.toList <+: q.text.toList) : q.isAbsolute := by
  obtain ⟨r, hr⟩ := isAbsolute_iff.1 h
  obtain ⟨rest, hrest⟩ := hpq
  exact isAbsolute_iff.2 ⟨r ++ rest, by rw [← hrest, hr, List.cons_append]⟩

theorem isAbsolute_join (h : dir.isAbsolute) : (dir.join q).isAbsolute := by
  unfold join
  split
  · assumption
  · split
    · exact isAbsolute_of_prefix h (by simp)
    · exact isAbsolute_of_prefix h (by simp [String.append_assoc])

theorem isAbsolute_upTo (h : p.isAbsolute) {n : Nat} (hn : 0 < n) : (p.upTo n).isAbsolute := by
  obtain ⟨r, hr⟩ := isAbsolute_iff.1 h
  obtain ⟨n, rfl⟩ := Nat.exists_eq_succ_of_ne_zero hn.ne'
  refine isAbsolute_iff.2 ⟨r.take n, ?_⟩
  rw [upTo, String.toList_ofList, hr, List.take_succ_cons]

theorem marks_positive (h : p.isAbsolute) : ∀ m ∈ p.marks, 0 < m.2 := by
  have hmarks : p.marks = (.root, 1) :: (offsets 0 (Text.pieces '/' p.text.toList)).filterMap ofPiece := by
    simp [marks, h]
  intro m hm
  rw [hmarks, List.mem_cons] at hm
  rcases hm with rfl | hm
  · exact Nat.one_pos
  · obtain ⟨⟨y, n⟩, hmem, hpiece⟩ := List.mem_filterMap.1 hm
    obtain ⟨front, -, -, hn⟩ := exists_front_of_mem_offsets _ hmem
    have hplain : ¬ IsSkip y := by
      intro hskip
      rw [ofPiece_of_isSkip hskip] at hpiece
      cases hpiece
    obtain ⟨c, hc⟩ := exists_ofPiece hplain n
    have hy : 0 < y.length := List.length_pos_of_ne_nil fun he => hplain (.inl he)
    obtain rfl := Option.some.inj (hc.symm.trans hpiece)
    show 0 < n
    omega

theorem isAbsolute_parent (h : p.isAbsolute) (hdir : p.parent? = some dir) : dir.isAbsolute := by
  have hroot : (.root, 1) ∈ p.marks := by simp [marks, h]
  obtain ⟨before, last, hmarks⟩ := List.eq_nil_or_concat p.marks |>.resolve_left (List.ne_nil_of_mem hroot)
  rw [List.concat_eq_append] at hmarks
  cases hbefore : before.getLast? with
  | none =>
    rw [List.getLast?_eq_none_iff.1 hbefore, List.nil_append] at hmarks
    rw [hmarks, List.mem_singleton] at hroot
    simp [parent?, hmarks, ← hroot] at hdir
  | some m =>
    have hm : m ∈ p.marks := by
      rw [hmarks]
      exact List.mem_append_left _ (List.mem_of_getLast? hbefore)
    obtain rfl := Option.some.inj ((parent?_of_marks hmarks hbefore).symm.trans hdir)
    exact isAbsolute_upTo h (marks_positive h m hm)

end Path

/-! ## Canonical paths are short -/

namespace FileTree

variable {t : FileTree} {p : Path} {names ps n : List String} {e e' : Entry} {bytes : ByteArray} {stamp : Nat}

/-- The bytes of names, with a slash for each. -/
def nameSize (names : List String) : Nat :=
  (names.map (·.utf8ByteSize + 1)).sum

theorem nameSize_append (a b : List String) : nameSize (a ++ b) = nameSize a + nameSize b := by
  simp [nameSize]

theorem nameSize_dropLast_le (a : List String) : nameSize a.dropLast ≤ nameSize a := by
  rcases List.eq_nil_or_concat a with rfl | ⟨b, s, rfl⟩
  · rfl
  · rw [List.concat_eq_append, List.dropLast_concat, nameSize_append]
    exact Nat.le_add_right _ _

theorem nameSize_of_walk (h : t.walk names e ps = .ok (.entry n e')) : nameSize n ≤ nameSize names + nameSize ps := by
  have hcons : ∀ (s : String) (ps : List String), nameSize (s :: ps) = s.utf8ByteSize + 1 + nameSize ps := by
    simp [nameSize]
  fun_induction walk t names e ps with
  | case1 names e =>
    obtain ⟨rfl, rfl⟩ := Place.entry.inj (Except.ok.inj h)
    exact Nat.le_add_right _ _
  | case2 | case5 | case7 | case8 => cases h
  | case3 names p ps hskip ih =>
    have hle := ih h
    rw [hcons]
    omega
  | case4 names ps hskip ih =>
    have hle := ih h
    have hdrop := nameSize_dropLast_le names
    rw [hcons]
    omega
  | case6 names p ps hskip hup hlong child hchild ih =>
    -- The only step that adds a name, and the way has that name.
    have hle := ih h
    rw [nameSize_append, hcons p []] at hle
    rw [hcons]
    simp only [nameSize, List.map_nil, List.sum_nil] at hle ⊢
    omega

theorem nameSize_split (s : String) : nameSize (Text.split s '/') = s.utf8ByteSize + 1 := by
  have hpieces : ∀ ls : List (List Char), ls ≠ [] →
      nameSize (ls.map String.ofList) = (String.ofList (['/'].intercalate ls)).utf8ByteSize + 1 := by
    intro ls hls
    induction ls with
    | nil => exact absurd rfl hls
    | cons x ls ih =>
      cases ls with
      | nil => simp [nameSize]
      | cons y ls =>
        have hslash : (String.ofList ['/']).utf8ByteSize = 1 := by decide
        have hrest := ih (by simp)
        rw [List.intercalate_cons_cons, String.ofList_append, String.ofList_append, String.utf8ByteSize_append,
          String.utf8ByteSize_append, hslash]
        rw [List.map_cons, nameSize, List.map_cons, List.sum_cons, ← nameSize, hrest]
        omega
  have h := hpieces (Text.pieces '/' s.toList) (Text.pieces_ne_nil _ _)
  rwa [Text.intercalate_pieces, String.ofList_toList] at h

theorem isAbsolute_pathOf (n : List String) : (pathOf n).isAbsolute := by
  cases n with
  | nil => exact Path.isAbsolute_iff.2 ⟨[], rfl⟩
  | cons s n =>
    refine Path.isAbsolute_iff.2 ⟨s.toList ++ n.flatMap fun s => '/' :: s.toList, ?_⟩
    rw [toList_pathOf (by simp), List.flatMap_cons, List.cons_append]

theorem utf8ByteSize_pathOf (hne : n ≠ []) : (pathOf n).text.utf8ByteSize = nameSize n := by
  have hjoin : ∀ l : List String, (String.join (l.map ("/" ++ ·))).utf8ByteSize = nameSize l := by
    intro l
    induction l with
    | nil => rfl
    | cons s l ih =>
      have hslash : "/".utf8ByteSize = 1 := by decide
      rw [List.map_cons, String.join_cons, String.utf8ByteSize_append, String.utf8ByteSize_append, ih, hslash]
      simp [nameSize, Nat.add_comm]
  have hempty : n.isEmpty = false := by simpa using hne
  rw [pathOf, hempty]
  exact hjoin n

/-- The canonical name of what is at an absolute path leads to it. -/
theorem resolve_canonical (habs : p.isAbsolute) (hne : n ≠ []) (h : t.resolve p = .ok (.entry n e)) :
    t.resolve (pathOf n) = .ok (.entry n e) := by
  obtain ⟨hempty, hzero, hlong, hwalk⟩ := resolve_eq_ok_iff.1 h
  rw [origin, if_pos habs] at hwalk
  have hstanding : Standing t n e := by
    refine Standing.root.of_walk ?_ hwalk
    intro s hs
    obtain ⟨x, hx, rfl⟩ := List.mem_map.1 hs
    rw [String.toList_ofList]
    exact ⟨Text.not_mem_of_mem_pieces hx, fun hmem => hzero (Text.mem_of_mem_pieces hx hmem)⟩
  obtain ⟨r, hr⟩ := Path.isAbsolute_iff.1 habs
  have hsplit : Text.split p.text '/' = "" :: (Text.pieces '/' r).map String.ofList := by
    rw [Text.split, hr]
    simp [Text.pieces]
  have hsize := nameSize_split p.text
  rw [hsplit] at hwalk hsize
  rw [walk, if_pos (.inl rfl)] at hwalk
  have hle := nameSize_of_walk hwalk
  refine (hstanding.resolve_pathOf hne ?_).2
  -- The slash in front of the path makes up for the one in front of the canonical name.
  rw [utf8ByteSize_pathOf hne]
  simp only [nameSize, List.map_cons, List.sum_cons, List.map_nil, List.sum_nil,
    String.utf8ByteSize_empty] at hsize hle ⊢
  omega

theorem ne_nil_of_file (h : t.resolve p = .ok (.entry n (.file bytes stamp))) : n ≠ [] := by
  rintro rfl
  cases lookup_of_resolve h

end FileTree

/-! ## Files at canonical paths -/

namespace FileTree

variable {t : FileTree} {p : Path}

theorem exists_of_isFile (h : t.isFile p) : ∃ n bytes stamp, t.resolve p = .ok (.entry n (.file bytes stamp)) := by
  unfold isFile entry? at h
  split at h
  · rename_i bytes stamp he
    split at he
    · rename_i n e hn
      obtain rfl := Option.some.inj he
      exact ⟨n, bytes, stamp, hn⟩
    · cases he
  · cases h

theorem exists_of_readTemplate {text : String} (h : t.readTemplate p = .ok text) :
    ∃ n bytes stamp, t.resolve p = .ok (.entry n (.file bytes stamp)) := by
  cases hread : t.read p with
  | ok bytes =>
    obtain ⟨n, stamp, hresolve⟩ := exists_of_read hread
    exact ⟨n, bytes, stamp, hresolve⟩
  | error e =>
    rw [readTemplate, readText, hread] at h
    cases h

theorem canonicalOr_of_resolve {n : List String} {e : Entry} (h : t.resolve p = .ok (.entry n e)) :
    t.canonicalOr p = pathOf n := by
  rw [canonicalOr, canonical?_of_resolve h, Option.getD_some]

theorem isAbsolute_canonicalOr (h : t.isFile p) : (t.canonicalOr p).isAbsolute := by
  obtain ⟨n, bytes, stamp, hresolve⟩ := exists_of_isFile h
  rw [canonicalOr_of_resolve hresolve]
  exact isAbsolute_pathOf n

theorem size_of_isFile (h : t.isFile p) : p.text.utf8ByteSize ≤ 4095 := by
  obtain ⟨n, bytes, stamp, hresolve⟩ := exists_of_isFile h
  exact (resolve_eq_ok_iff.1 hresolve).2.2.1

/-- A path that is not too long is that of a file just if its canonical path is. -/
theorem isFile_canonicalOr (habs : p.isAbsolute) (hshort : p.text.utf8ByteSize ≤ 4095) :
    t.isFile (t.canonicalOr p) = t.isFile p := by
  unfold canonicalOr canonical?
  cases hnames : FileTree.names p with
  | error e => rfl
  | ok ns =>
    dsimp only
    have hresolve : t.resolve p = t.walk (t.origin p) .directory ns := by
      rw [resolve, steps, hnames]
      dsimp only
      rw [if_neg (Nat.not_lt.2 hshort)]
    split
    · rename_i n e hn
      rw [Option.getD_some]
      have hp : t.resolve p = .ok (.entry n e) := hresolve.trans hn
      by_cases hne : n = []
      · subst hne
        have hroot : t.isFile (pathOf []) = false := rfl
        rw [hroot]
        cases hfile : t.isFile p with
        | false => rfl
        | true =>
          obtain ⟨m, bytes, stamp, hm⟩ := exists_of_isFile hfile
          obtain ⟨rfl, -⟩ := Place.entry.inj (Except.ok.inj (hm.symm.trans hp))
          exact absurd rfl (ne_nil_of_file hm)
      · simp only [isFile, entry?, hp, resolve_canonical habs hne hp]
    · rfl

theorem readTemplate_canonicalOr (habs : p.isAbsolute) (h : t.isFile p) :
    t.readTemplate (t.canonicalOr p) = t.readTemplate p := by
  obtain ⟨n, bytes, stamp, hresolve⟩ := exists_of_isFile h
  unfold readTemplate readText read
  rw [canonicalOr_of_resolve hresolve, resolve_canonical habs (ne_nil_of_file hresolve) hresolve, hresolve]

theorem canonicalOr_canonicalOr (habs : p.isAbsolute) (h : t.isFile p) :
    t.canonicalOr (t.canonicalOr p) = t.canonicalOr p := by
  obtain ⟨n, bytes, stamp, hresolve⟩ := exists_of_isFile h
  have hcanonical := resolve_canonical habs (ne_nil_of_file hresolve) hresolve
  rw [canonicalOr_of_resolve hresolve, canonicalOr_of_resolve hcanonical]

end FileTree

end Templating
