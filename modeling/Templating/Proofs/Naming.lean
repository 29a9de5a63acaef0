import Mathlib
import Templating.FileTree
import Templating.Proofs.Lines
import Templating.Proofs.Replies

/-!
# Names at the end of paths

A text that ends in a plain name after its last slash is a path to that name, so joining a name adds one
component (`components_join`), and another extension changes nothing before the end of the name's stem
(`EndsIn.withExtension?`). Nothing can be written where a path ends in dots (`write_dots`).
-/

namespace Templating

theorem Text.not_mem_of_cutChars {sep : Char} {cs a b : List Char} (h : cutChars sep cs = some (a, b)) :
    sep ∉ a := by
  intro hmem
  have hall := List.all_takeWhile (p := (· ≠ sep)) (l := cs ++ [])
  rw [takeWhile_of_cutChars [] h] at hall
  simpa using List.all_eq_true.1 hall sep hmem

namespace Path

/-! ## Pieces and where they end -/

/-- A piece that names something. -/
structure IsName (x : List Char) : Prop where
  ne_nil : x ≠ []
  ne_dot : x ≠ ['.']
  ne_dots : x ≠ ['.', '.']
  noSlash : '/' ∉ x

/-- What may stand before a piece: nothing, or a text up to a slash. -/
def IsFront (front : List Char) : Prop :=
  front = [] ∨ ∃ a, front = a ++ ['/']

theorem IsFront.append {front : List Char} (h : IsFront front) (p : List Char) :
    IsFront (p ++ '/' :: front) := by
  rcases h with rfl | ⟨a, rfl⟩
  · exact .inr ⟨p, rfl⟩
  · exact .inr ⟨p ++ '/' :: a, by simp⟩

theorem offsets_append (ps qs : List (List Char)) : ∀ k,
    offsets k (ps ++ qs) = offsets k ps ++ offsets (k + (ps.map (·.length + 1)).sum) qs := by
  induction ps with
  | nil => intro k; rfl
  | cons p ps ih =>
    intro k
    simp only [List.cons_append, offsets, ih, List.map_cons, List.sum_cons, Nat.add_assoc]

theorem sum_pieces (sep : Char) (cs : List Char) :
    ((Text.pieces sep cs).map (·.length + 1)).sum = cs.length + 1 := by
  fun_induction Text.pieces sep cs with
  | case1 => rfl
  | case2 r ih => simp [ih, Nat.add_comm]
  | case3 c r hc h ih => exact absurd h (Text.pieces_ne_nil sep r)
  | case4 c r hc p ps h ih =>
    rw [h] at ih
    simp only [List.map_cons, List.sum_cons, List.length_cons] at ih ⊢
    omega

theorem offsets_pieces_append (a x : List Char) (h : '/' ∉ x) :
    offsets 0 (Text.pieces '/' (a ++ '/' :: x)) =
      offsets 0 (Text.pieces '/' a) ++ [(x, a.length + 1 + x.length)] := by
  rw [Text.pieces_append, Text.pieces_of_not_mem h, offsets_append, sum_pieces, Nat.zero_add]
  rfl

/-- A piece stands in the text after a front, up to the place that is noted with it. -/
theorem exists_front_of_mem_offsets {y : List Char} {n : Nat} (ps : List (List Char)) : ∀ {k : Nat},
    (y, n) ∈ offsets k ps → ∃ front, IsFront front ∧ front ++ y <+: ['/'].intercalate ps ∧
      n = k + front.length + y.length := by
  induction ps with
  | nil => exact fun h => absurd h List.not_mem_nil
  | cons p ps ih =>
    intro k h
    rw [offsets, List.mem_cons] at h
    rcases h with h | h
    · obtain ⟨rfl, rfl⟩ := Prod.mk.inj h
      refine ⟨[], .inl rfl, ?_, rfl⟩
      cases ps with
      | nil => simp
      | cons q ps =>
        rw [List.intercalate_cons_cons, List.append_assoc]
        exact List.prefix_append _ _
    · obtain ⟨front, hfront, hprefix, rfl⟩ := ih h
      have hps : ps ≠ [] := by
        rintro rfl
        exact List.not_mem_nil h
      refine ⟨p ++ '/' :: front, hfront.append p, ?_, by simp; omega⟩
      rw [List.intercalate_cons_of_ne_nil hps, List.append_assoc, List.append_assoc]
      exact (List.prefix_append_right_inj p).2 ((List.prefix_append_right_inj ['/']).2 hprefix)

/-! ## The last component -/

/-- The path ends in a name, which stands in its text after this front. -/
structure EndsIn (p : Path) (front : List Char) (name : String) : Prop where
  isFront : IsFront front
  isName : IsName name.toList
  text : front ++ name.toList <+: p.text.toList
  mark : p.marks.getLast? = some (.name name, front.length + name.length)

theorem ofPiece_of_isName {x : List Char} (h : IsName x) (n : Nat) :
    ofPiece (x, n) = some (.name (String.ofList x), n) := by
  simp [ofPiece, h.ne_nil, h.ne_dot, h.ne_dots]

theorem isName_of_ofPiece {x : List Char} {n m : Nat} {s : String} (hx : '/' ∉ x)
    (h : ofPiece (x, n) = some (.name s, m)) : IsName x ∧ s = String.ofList x ∧ m = n := by
  unfold ofPiece at h
  split at h
  · cases h
  · rename_i hplain
    split at h
    · cases (Prod.mk.inj (Option.some.inj h)).1
    · rename_i hdots
      obtain ⟨hs, rfl⟩ := Prod.mk.inj (Option.some.inj h)
      exact ⟨⟨fun e => hplain (.inl e), fun e => hplain (.inr e), hdots, hx⟩,
        (Component.name.inj hs).symm, rfl⟩

theorem mem_of_mem_offsets {y : List Char} {n : Nat} {ps : List (List Char)} : ∀ {k : Nat},
    (y, n) ∈ offsets k ps → y ∈ ps := by
  induction ps with
  | nil => exact fun h => absurd h List.not_mem_nil
  | cons p ps ih =>
    intro k h
    rcases List.mem_cons.1 h with h | h
    · exact (Prod.mk.inj h).1 ▸ List.mem_cons_self
    · exact List.mem_cons_of_mem _ (ih h)

theorem endsIn_append {front : List Char} {name : String} (hf : IsFront front)
    (hn : IsName name.toList) : EndsIn ⟨String.ofList front ++ name⟩ front name := by
  refine ⟨hf, hn, by simp, ?_⟩
  have hlast : ∃ init, (offsets 0 (Text.pieces '/' (front ++ name.toList))).filterMap ofPiece =
      init ++ [(.name name, front.length + name.length)] := by
    rcases hf with rfl | ⟨a, rfl⟩
    · refine ⟨[], ?_⟩
      rw [List.nil_append, Text.pieces_of_not_mem hn.noSlash]
      simp [offsets, ofPiece_of_isName hn, String.length_toList]
    · refine ⟨(offsets 0 (Text.pieces '/' a)).filterMap ofPiece, ?_⟩
      rw [List.append_assoc, List.singleton_append, offsets_pieces_append a _ hn.noSlash,
        List.filterMap_append]
      simp [ofPiece_of_isName hn, String.length_toList]
  obtain ⟨init, hinit⟩ := hlast
  simp only [marks, String.toList_append, String.toList_ofList, hinit, ← List.append_assoc,
    List.getLast?_concat]

theorem endsIn_of_name {p : Path} {s : String} (h : p.name? = some s) : ∃ front, EndsIn p front s := by
  obtain ⟨n, hmark⟩ : ∃ n, p.marks.getLast? = some (.name s, n) := by
    unfold name? at h
    generalize p.marks.getLast? = last at h
    split at h
    · exact ⟨_, by rw [Option.some.inj h]⟩
    · cases h
  have hmem := List.mem_of_getLast? hmark
  simp only [marks, List.mem_append, List.mem_filterMap] at hmem
  rcases hmem with hmem | ⟨⟨y, m⟩, hmem, hpiece⟩
  · split at hmem
    · simp at hmem
    · split at hmem <;> simp at hmem
  · have hslash := Text.not_mem_of_mem_pieces (mem_of_mem_offsets hmem)
    obtain ⟨hname, rfl, rfl⟩ := isName_of_ofPiece hslash hpiece
    obtain ⟨front, hfront, hprefix, hn⟩ := exists_front_of_mem_offsets _ hmem
    rw [Text.intercalate_pieces] at hprefix
    rw [hn, Nat.zero_add] at hmark
    refine ⟨front, hfront, ?_, ?_, ?_⟩
    · rwa [String.toList_ofList]
    · rwa [String.toList_ofList]
    · rw [hmark, String.length_ofList]

theorem EndsIn.name? {p : Path} {front : List Char} {name : String} (h : EndsIn p front name) :
    p.name? = some name := by
  simp only [Path.name?, h.mark]

/-! ## Stems and extensions -/

theorem cutName_append {stem ext : String} (hs : stem ≠ "") (he : '.' ∉ ext.toList) :
    cutName (stem ++ "." ++ ext) = (stem, some ext) := by
  have hreverse : (stem ++ "." ++ ext).toList.reverse =
      ext.toList.reverse ++ '.' :: stem.toList.reverse := by simp
  have hcut := Text.cutChars_append (mt List.mem_reverse.1 he) stem.toList.reverse
  rw [← hreverse] at hcut
  have hstem : ¬ stem.toList.reverse.isEmpty := by simpa using hs
  simp only [cutName, hcut, if_neg hstem, List.reverse_reverse, String.ofList_toList]

/-- A name is its stem, or its stem, a dot and its extension. -/
theorem cutName_cases (name : String) :
    cutName name = (name, none) ∨ ∃ stem ext, stem ≠ "" ∧ '.' ∉ ext.toList ∧ name = stem ++ "." ++ ext ∧
      cutName name = (stem, some ext) := by
  unfold cutName
  split
  · rename_i after before hcut
    split
    · exact .inl rfl
    · rename_i hne
      have hname : name.toList = before.reverse ++ '.' :: after.reverse := by
        rw [← List.reverse_reverse name.toList, Text.eq_of_cutChars hcut]
        simp
      refine .inr ⟨String.ofList before.reverse, String.ofList after.reverse, ?_, ?_, ?_, rfl⟩
      · simpa using hne
      · simpa using Text.not_mem_of_cutChars hcut
      · rw [← String.toList_inj]
        simp [hname]
  · exact .inl rfl

theorem cutName_of_noDot {name : String} (h : '.' ∉ name.toList) : cutName name = (name, none) := by
  rcases cutName_cases name with he | ⟨stem, ext, -, -, rfl, -⟩
  · exact he
  · simp at h

theorem stem_ne_empty {name : String} (h : name ≠ "") : (cutName name).1 ≠ "" := by
  rcases cutName_cases name with e | ⟨stem, ext, hs, -, -, e⟩ <;> rw [e]
  · exact h
  · exact hs

theorem stem_start (name : String) : (cutName name).1.toList <+: name.toList := by
  rcases cutName_cases name with e | ⟨stem, ext, -, -, hname, e⟩
  · simp [e]
  · rw [e, hname, String.toList_append, String.toList_append, List.append_assoc]
    exact List.prefix_append _ _

/-- Only what comes after the last dot of a text that is appended to a stem is an extension. -/
theorem extension_append (ext : String) :
    ∃ last, (∀ stem, stem ≠ "" → (cutName (stem ++ "." ++ ext)).2 = some last) ∧
      (last = ext ↔ '.' ∉ ext.toList) := by
  by_cases he : '.' ∈ ext.toList
  · obtain ⟨after, before, hsplit, hdot⟩ := List.eq_append_cons_of_mem (List.mem_reverse.2 he)
    have hext : ext = String.ofList before.reverse ++ "." ++ String.ofList after.reverse := by
      rw [← String.toList_inj, ← List.reverse_reverse ext.toList, hsplit]
      simp
    refine ⟨String.ofList after.reverse, fun stem hs => ?_, iff_of_false (fun e => hdot ?_) (not_not_intro he)⟩
    · have hlonger : stem ++ "." ++ ext =
          stem ++ "." ++ String.ofList before.reverse ++ "." ++ String.ofList after.reverse := by
        rw [hext]
        simp only [String.append_assoc]
      rw [hlonger, cutName_append (by simp) (by simpa using hdot)]
    · rw [← e] at he
      simpa using he
  · exact ⟨ext, fun stem hs => by rw [cutName_append hs he], iff_of_true rfl he⟩

theorem withExtension?_plain (p : Path) {ext : String} (h : '/' ∉ ext.toList) :
    p.withExtension? ext = some (p.withPlainExtension ext) := by
  unfold withPlainExtension withExtension?
  rw [if_neg h]
  split <;> rfl

theorem EndsIn.upTo {p : Path} {front kept : List Char} {name : String} (h : EndsIn p front name)
    (hk : kept <+: name.toList) : p.upTo (front.length + kept.length) = ⟨String.ofList (front ++ kept)⟩ := by
  obtain ⟨rest, hrest⟩ := ((List.prefix_append_right_inj front).2 hk).trans h.text
  rw [Path.upTo, ← hrest, ← List.length_append, List.take_left]

/-- Another extension takes the place of what comes after the name's stem. -/
theorem EndsIn.withExtension? {p : Path} {front : List Char} {name ext : String} (h : EndsIn p front name)
    (he : '/' ∉ ext.toList) : p.withExtension? ext =
      some ⟨String.ofList front ++ (cutName name).1 ++ if ext = "" then "" else "." ++ ext⟩ := by
  have hkept : front.length + name.length - name.length + (cutName name).1.length =
      front.length + (cutName name).1.toList.length := by
    rw [Nat.add_sub_cancel, String.length_toList]
  unfold Path.withExtension?
  rw [if_neg he, h.mark]
  simp only [hkept, h.upTo (stem_start name)]
  by_cases hempty : ext = ""
  · simp [hempty]
  · simp [hempty, String.append_assoc]

/-! ## Joining -/

/-- What a name is put after when it is joined to a path: the path, or the path and a slash. -/
theorem exists_front (p : Path) : ∃ front, IsFront front ∧
    (front = p.text.toList ∨ front = p.text.toList ++ ['/'] ∧ p.text ≠ "") ∧
    ∀ x : String, '/' ∉ x.toList → p.join ⟨x⟩ = ⟨String.ofList front ++ x⟩ := by
  have hrelative : ∀ x : String, '/' ∉ x.toList → isAbsolute ⟨x⟩ = false := by
    intro x hx
    rw [Bool.eq_false_iff]
    intro habs
    exact hx ((List.isPrefixOf_iff_prefix.1 habs).mem (List.mem_singleton_self '/'))
  by_cases hopen : p.text.isEmpty ∨ Text.endsWith "/" p.text
  · refine ⟨p.text.toList, ?_, .inl rfl, fun x hx => ?_⟩
    · rcases hopen with hempty | hslash
      · exact .inl (by simpa using hempty)
      · obtain ⟨a, ha⟩ := List.isSuffixOf_iff_suffix.1 hslash
        exact .inr ⟨a, ha.symm⟩
    · unfold join
      rw [hrelative x hx, if_neg Bool.false_ne_true, if_pos hopen, String.ofList_toList]
  · refine ⟨p.text.toList ++ ['/'], .inr ⟨_, rfl⟩, .inr ⟨rfl, fun e => hopen (.inl (by simp [e]))⟩,
      fun x hx => ?_⟩
    unfold join
    rw [hrelative x hx, if_neg Bool.false_ne_true, if_neg hopen]
    simp

theorem join_of_relative {p q : Path} (h : '/' ∉ q.text.toList) :
    ∃ front, IsFront front ∧ p.join q = ⟨String.ofList front ++ q.text⟩ ∧
      (front = p.text.toList ∨ front = p.text.toList ++ ['/'] ∧ p.text ≠ "") := by
  obtain ⟨front, hfront, htext, hjoin⟩ := p.exists_front
  exact ⟨front, hfront, hjoin q.text h, htext⟩

def componentOf (piece : List Char) : Option Component :=
  (ofPiece (piece, 0)).map (·.1)

/-- What stands before the components of the pieces. -/
def leading (cs : List Char) : List Component :=
  if "/".toList.isPrefixOf cs then [.root]
  else if (Text.pieces '/' cs).head? = some ['.'] then [.current] else []

theorem components_eq (p : Path) :
    p.components = leading p.text.toList ++ (Text.pieces '/' p.text.toList).filterMap componentOf := by
  have hoffsets : ∀ (ps : List (List Char)) k,
      ((offsets k ps).filterMap ofPiece).map (·.1) = ps.filterMap componentOf := by
    intro ps
    induction ps with
    | nil => exact fun k => rfl
    | cons x ps ih =>
      intro k
      rw [offsets, List.filterMap_cons, List.filterMap_cons, ← ih (k + x.length + 1)]
      have hpiece : componentOf x = (ofPiece (x, k + x.length)).map (·.1) := by
        simp only [componentOf, ofPiece]
        split
        · rfl
        · split <;> rfl
      rw [hpiece]
      cases ofPiece (x, k + x.length) <;> rfl
  rw [components, marks, List.map_append, hoffsets, apply_ite (List.map _), apply_ite (List.map _)]
  rfl

theorem leading_append {a : List Char} (ha : a ≠ []) (x : List Char) :
    leading (a ++ '/' :: x) = leading a := by
  obtain ⟨c, a, rfl⟩ := List.exists_cons_of_ne_nil ha
  have hpieces := Text.pieces_ne_nil '/' (c :: a)
  rw [leading, leading, Text.pieces_append, List.head?_append_of_ne_nil _ hpieces]
  rfl

/-- Joining a name to a path adds one component. -/
theorem components_join {p : Path} {name : String} (hn : IsName name.toList) :
    (p.join ⟨name⟩).components = p.components ++ [.name name] := by
  have hlast : (Text.pieces '/' name.toList).filterMap componentOf = [.name name] := by
    rw [Text.pieces_of_not_mem hn.noSlash]
    simp [componentOf, ofPiece_of_isName hn]
  obtain ⟨front, hfront, hjoin, htext⟩ := join_of_relative (p := p) (q := ⟨name⟩) hn.noSlash
  rw [hjoin, components_eq, components_eq, String.toList_append, String.toList_ofList]
  -- The name follows an empty path, one that ends in a slash, or a slash that is put between.
  rcases htext with rfl | ⟨rfl, hne⟩
  · rcases hfront with hempty | ⟨a, ha⟩
    · have hleading : leading name.toList = [] := by
        obtain ⟨c, cs, hcs⟩ := List.exists_cons_of_ne_nil hn.ne_nil
        have hc : c ≠ '/' := fun e => hn.noSlash (by simp [hcs, e])
        rw [leading, if_neg, Text.pieces_of_not_mem hn.noSlash, if_neg]
        · simpa using hn.ne_dot
        · simpa [hcs] using hc.symm
      rw [hempty, List.nil_append, hlast, hleading]
      rfl
    · have hp := Text.pieces_append '/' a []
      rw [ha, List.append_assoc, List.singleton_append, Text.pieces_append, hp]
      by_cases hne : a = []
      · rw [hne]
        simp [hlast, leading, Text.pieces, componentOf, ofPiece]
      · rw [leading_append hne, leading_append hne, List.filterMap_append, List.filterMap_append, hlast]
        simp [Text.pieces, componentOf, ofPiece]
  · rw [List.append_assoc, List.singleton_append, leading_append (by simpa using hne),
      Text.pieces_append, List.filterMap_append, hlast, List.append_assoc]

end Path

/-! ## Writing where a path ends in dots -/

namespace FileTree

/-- Dots lead to directories only. -/
theorem walk_dots {t : FileTree} {last : String} (hlast : last = "." ∨ last = "..") {place : Place} :
    ∀ {ps names : List String} {e : Entry}, t.walk names e (ps ++ [last]) = .ok place →
      ∃ found, place = .entry found .directory
  | [], names, .file .., h => by cases h
  | [], names, .directory, h => by
    rcases hlast with rfl | rfl
    · exact ⟨names, (Except.ok.inj h).symm⟩
    · exact ⟨names.dropLast, (Except.ok.inj h).symm⟩
  | p :: ps, names, .file .., h => by cases h
  | p :: ps, names, .directory, h => by
    rw [List.cons_append, walk] at h
    split at h
    · exact walk_dots hlast h
    · split at h
      · exact walk_dots hlast h
      · split at h
        · cases h
        · split at h
          · exact walk_dots hlast h
          · rw [List.all_append] at h
            rcases hlast with rfl | rfl <;> simp at h

/-- The pieces of a path that ends in a piece: what is before it does not depend on that piece. -/
theorem split_of_front {front : List Char} (hf : Path.IsFront front) : ∃ ps, ∀ last : String,
    '/' ∉ last.toList → Text.split (String.ofList front ++ last) '/' = ps ++ [last] := by
  rcases hf with rfl | ⟨a, rfl⟩
  · refine ⟨[], fun last hlast => ?_⟩
    simp [Text.split, Text.pieces_of_not_mem hlast]
  · refine ⟨(Text.pieces '/' a).map String.ofList, fun last hlast => ?_⟩
    rw [Text.split, String.toList_append, String.toList_ofList, List.append_assoc, List.singleton_append,
      Text.pieces_append, Text.pieces_of_not_mem hlast]
    simp

theorem resolve_dots {t : FileTree} {front : List Char} (hf : Path.IsFront front) {last : String}
    (hlast : last = "." ∨ last = "..") {place : Place}
    (h : t.resolve ⟨String.ofList front ++ last⟩ = .ok place) : ∃ found, place = .entry found .directory := by
  have hslash : '/' ∉ last.toList := by rcases hlast with rfl | rfl <;> decide
  obtain ⟨ps, hsplit⟩ := split_of_front hf
  unfold resolve steps names at h
  split at h
  · rename_i steps hsteps
    split at hsteps
    · rename_i names hnames
      split at hnames
      · cases hnames
      · split at hnames
        · cases hnames
        · split at hsteps
          · cases hsteps
          · rw [← Except.ok.inj hsteps, ← Except.ok.inj hnames, hsplit last hslash] at h
            exact walk_dots hlast h
    · cases hsteps
  · cases h

theorem write_dots (t : FileTree) {front : List Char} (hf : Path.IsFront front) {last : String}
    (hlast : last = "." ∨ last = "..") (bytes : ByteArray) :
    ∃ e, t.write ⟨String.ofList front ++ last⟩ bytes = .error e := by
  unfold write
  cases hopens : t.opens ⟨String.ofList front ++ last⟩ with
  | error e => exact ⟨_, rfl⟩
  | ok m =>
    unfold opens at hopens
    split at hopens
    · cases hopens
    · split at hopens
      · rename_i hresolve
        obtain ⟨found, hfound⟩ := resolve_dots hf hlast hresolve
        cases hfound
      · cases hopens
      · rename_i hresolve
        obtain ⟨found, hfound⟩ := resolve_dots hf hlast hresolve
        cases hfound
      · cases hopens

/-- What is written in full is written without a fault. -/
theorem fault_of_write {t t' : FileTree} {p : Path} {bytes : ByteArray} {fault : Option WriteFault}
    (h : t.write p bytes fault = .ok t') : fault = none := by
  unfold write at h
  split at h
  · cases h
  · cases fault with
    | none => rfl
    | some f => cases h

end FileTree

end Templating
