import Mathlib
import Templating.Proofs.Naming

/-!
# Ways through a file tree

The way of a path is the names that are looked up on it. Where the path leads depends on nothing but what
is at these names (`walk_congr`), so a change elsewhere leaves alone all that is read through the path.
Here is what each change of a tree does to the entries at all names.
-/

namespace Templating

namespace FileTree

variable {t t' t'' : FileTree} {p : Path} {n m names : List String} {e : Entry} {ps : List String}
  {bytes : ByteArray} {stamp : Nat}

/-! ## The way of a path -/

/-- The names that are looked up when a path is followed from an entry. -/
def visits (t : FileTree) (names : List String) (e : Entry) : List String → List (List String)
  | [] => []
  | p :: ps =>
    match e with
    | .file .. => []
    | .directory =>
      if p = "" ∨ p = "." then visits t names e ps
      else if p = ".." then visits t names.dropLast .directory ps
      else if 255 < p.utf8ByteSize then []
      else match t.lookup (names ++ [p]) with
        | some child => (names ++ [p]) :: visits t (names ++ [p]) child ps
        | none => [names ++ [p]]

def way (t : FileTree) (p : Path) : List (List String) :=
  match FileTree.names p with
  | .ok ns => t.visits (t.origin p) .directory ns
  | .error _ => []

theorem walk_congr (h : ∀ n ∈ t.visits names e ps, t'.lookup n = t.lookup n) :
    t'.walk names e ps = t.walk names e ps := by
  fun_induction visits t names e ps with
  | case1 names e => rfl
  | case2 names p ps bytes stamp => rfl
  | case3 names p ps hskip ih =>
    rw [walk, walk, if_pos hskip, if_pos hskip]
    exact ih h
  | case4 names ps hskip ih =>
    rw [walk, walk, if_neg hskip, if_neg hskip, if_pos rfl, if_pos rfl]
    exact ih h
  | case5 names p ps hskip hup hlong =>
    rw [walk, walk, if_neg hskip, if_neg hskip, if_neg hup, if_neg hup, if_pos hlong, if_pos hlong]
  | case6 names p ps hskip hup hlong child hchild ih =>
    rw [walk, walk, if_neg hskip, if_neg hskip, if_neg hup, if_neg hup, if_neg hlong, if_neg hlong,
      h _ List.mem_cons_self, hchild]
    exact ih fun n hn => h n (List.mem_cons_of_mem _ hn)
  | case7 names p ps hskip hup hlong hnone =>
    rw [walk, walk, if_neg hskip, if_neg hskip, if_neg hup, if_neg hup, if_neg hlong, if_neg hlong,
      h _ List.mem_cons_self, hnone]

/-- One tree is like another on the way of a path. -/
structure SameWay (t t' : FileTree) (p : Path) : Prop where
  workingDirectory : t'.workingDirectory = t.workingDirectory
  lookup : ∀ n ∈ t.way p, t'.lookup n = t.lookup n

namespace SameWay

theorem walk (h : SameWay t t' p) {ns : List String} (hns : FileTree.names p = .ok ns) :
    t'.walk (t'.origin p) .directory ns = t.walk (t.origin p) .directory ns := by
  have horigin : t'.origin p = t.origin p := by
    unfold origin
    rw [h.workingDirectory]
  rw [horigin]
  apply walk_congr
  have hlookup := h.lookup
  simp only [way, hns] at hlookup
  exact hlookup

theorem resolve (h : SameWay t t' p) : t'.resolve p = t.resolve p := by
  unfold FileTree.resolve
  cases hsteps : steps p with
  | error e => rfl
  | ok ns =>
    apply h.walk
    unfold steps at hsteps
    split at hsteps
    · rename_i hnames
      split at hsteps
      · cases hsteps
      · rw [hnames, Except.ok.inj hsteps]
    · cases hsteps

theorem canonicalOr (h : SameWay t t' p) : t'.canonicalOr p = t.canonicalOr p := by
  unfold FileTree.canonicalOr canonical?
  cases hnames : FileTree.names p with
  | error e => rfl
  | ok ns =>
    dsimp only
    rw [h.walk hnames]

theorem entry? (h : SameWay t t' p) : t'.entry? p = t.entry? p := by
  unfold FileTree.entry?
  rw [h.resolve]

theorem isFile (h : SameWay t t' p) : t'.isFile p = t.isFile p := by
  unfold FileTree.isFile
  rw [h.entry?]

theorem isDirectory (h : SameWay t t' p) : t'.isDirectory p = t.isDirectory p := by
  unfold FileTree.isDirectory
  rw [h.entry?]

theorem enterError? (h : SameWay t t' p) : t'.enterError? p = t.enterError? p := by
  unfold FileTree.enterError?
  rw [h.resolve]

theorem read (h : SameWay t t' p) : t'.read p = t.read p := by
  unfold FileTree.read
  rw [h.resolve]

theorem readText (h : SameWay t t' p) : t'.readText p = t.readText p := by
  unfold FileTree.readText
  rw [h.read]

theorem readTemplate (h : SameWay t t' p) : t'.readTemplate p = t.readTemplate p := by
  unfold FileTree.readTemplate
  rw [h.readText]

end SameWay

/-! ## Where a path leads -/

theorem lookup_of_walk (h : t.walk names e ps = .ok (.entry m (.file bytes stamp)))
    (he : e = .directory ∨ t.lookup names = some e) : t.lookup m = some (.file bytes stamp) := by
  fun_induction walk t names e ps with
  | case1 names e =>
    obtain ⟨rfl, rfl⟩ := Place.entry.inj (Except.ok.inj h)
    exact he.resolve_left nofun
  | case2 | case5 | case7 | case8 => cases h
  | case3 names p ps hskip ih => exact ih h (.inl rfl)
  | case4 names ps hskip ih => exact ih h (.inl rfl)
  | case6 names p ps hskip hup hlong child hchild ih => exact ih h (.inr hchild)

theorem lookup_of_resolve (h : t.resolve p = .ok (.entry m (.file bytes stamp))) :
    t.lookup m = some (.file bytes stamp) := by
  unfold resolve at h
  split at h
  · exact lookup_of_walk h (.inl rfl)
  · cases h

theorem lookup_of_walk_vacant (h : t.walk names e ps = .ok (.vacant m)) : t.lookup m = none := by
  fun_induction walk t names e ps with
  | case1 | case2 | case5 | case8 => cases h
  | case3 names p ps hskip ih => exact ih h
  | case4 names ps hskip ih => exact ih h
  | case6 names p ps hskip hup hlong child hchild ih => exact ih h
  | case7 names p ps hskip hup hlong hnone hall =>
    rw [← Place.vacant.inj (Except.ok.inj h)]
    exact hnone

theorem lookup_of_resolve_vacant (h : t.resolve p = .ok (.vacant m)) : t.lookup m = none := by
  unfold resolve at h
  split at h
  · exact lookup_of_walk_vacant h
  · cases h

theorem ne_nil_of_vacant (h : t.lookup m = none) : m ≠ [] := by
  rintro rfl
  cases h

/-! ## What changes do to entries -/

theorem find?_putEntry (m : List String) (e : Entry) (xs : List (List String × Entry)) (n : List String) :
    ((putEntry m e xs).find? (·.1 == n)).map (·.2) =
      if n = m then some e else (xs.find? (·.1 == n)).map (·.2) := by
  induction xs with
  | nil =>
    by_cases hn : n = m
    · simp [putEntry, hn]
    · simp [putEntry, hn, Ne.symm hn]
  | cons x xs ih =>
    unfold putEntry
    by_cases hx : x.1 = m
    · rw [if_pos hx]
      by_cases hn : n = m
      · simp [hn]
      · have hxn : x.1 ≠ n := by
          rintro rfl
          exact hn hx
        simp [hn, Ne.symm hn, hxn]
    · rw [if_neg hx]
      by_cases hxn : x.1 = n
      · have hn : n ≠ m := by
          rintro rfl
          exact hx hxn
        simp [hxn, hn]
      · simp only [List.find?_cons, beq_eq_false_iff_ne.2 hxn, ih]

theorem lookup_put (t : FileTree) (hm : m ≠ []) (e : Entry) (n : List String) :
    (t.put m e).lookup n = if n = m then some e else t.lookup n := by
  unfold lookup put
  by_cases hn : n = []
  · subst hn
    rw [if_neg (Ne.symm hm)]
    rfl
  · have hn' : ¬ n.isEmpty := by simpa using hn
    rw [if_neg hn', if_neg hn']
    exact find?_putEntry m e t.entries n

theorem lookup_putFile (t : FileTree) (hm : m ≠ []) (bytes : ByteArray) (n : List String) :
    (t.putFile m bytes).lookup n = if n = m then some (.file bytes t.clock) else t.lookup n :=
  t.lookup_put hm _ n

theorem find?_filter_isPrefixOf (s : List String) (xs : List (List String × Entry)) (n : List String) :
    ((xs.filter fun x => !s.isPrefixOf x.1).find? (·.1 == n)).map (·.2) =
      if s.isPrefixOf n then none else (xs.find? (·.1 == n)).map (·.2) := by
  induction xs with
  | nil => simp
  | cons x xs ih =>
    rw [List.filter_cons]
    by_cases hx : x.1 = n
    · subst hx
      by_cases hbelow : s.isPrefixOf x.1
      · simpa [hbelow] using ih
      · simp [hbelow]
    · by_cases hbelow : s.isPrefixOf x.1
      · simpa [hbelow, hx] using ih
      · simpa [hbelow, hx] using ih

/-- Removing an entry removes all below it, and nothing else. -/
theorem remove_of_resolve {s : List String} (hs : t.resolve p = .ok (.entry s e)) (hne : s ≠ []) :
    ∃ files, t.remove p = .ok files ∧ files.workingDirectory = t.workingDirectory ∧
      ∀ n, files.lookup n = if s.isPrefixOf n then none else t.lookup n := by
  unfold remove
  rw [hs]
  refine ⟨_, rfl, rfl, fun n => ?_⟩
  unfold lookup
  by_cases hn : n = []
  · subst hn
    obtain ⟨x, s, rfl⟩ := List.exists_cons_of_ne_nil hne
    rfl
  · have hn' : ¬ n.isEmpty := by simpa using hn
    rw [if_neg hn', if_neg hn']
    exact find?_filter_isPrefixOf s t.entries n

/-! ## Made directories -/

/-- At a name all is as before, but that a directory may have been made there. -/
def Keeps (t t' : FileTree) (n : List String) : Prop :=
  t'.lookup n = t.lookup n ∨ t.lookup n = none ∧ t'.lookup n = some .directory

theorem Keeps.trans (h : Keeps t t' n) (h' : Keeps t' t'' n) : Keeps t t'' n := by
  rcases h' with h' | ⟨hnone, h'⟩
  · rcases h with h | ⟨hn, h⟩
    · exact .inl (h'.trans h)
    · exact .inr ⟨hn, h'.trans h⟩
  · rcases h with h | ⟨hn, h⟩
    · exact .inr ⟨h.symm.trans hnone, h'⟩
    · cases h.symm.trans hnone

/-- Some directories are made, and nothing else happens. -/
structure Makes (t t' : FileTree) : Prop where
  workingDirectory : t'.workingDirectory = t.workingDirectory
  keeps : ∀ n, Keeps t t' n

theorem Makes.refl (t : FileTree) : Makes t t :=
  ⟨rfl, fun _ => .inl rfl⟩

theorem Makes.trans (h : Makes t t') (h' : Makes t' t'') : Makes t t'' :=
  ⟨h'.workingDirectory.trans h.workingDirectory, fun n => (h.keeps n).trans (h'.keeps n)⟩

theorem Makes.file (h : Makes t t') (hn : t.lookup n = some (.file bytes stamp)) :
    t'.lookup n = some (.file bytes stamp) := by
  rcases h.keeps n with he | ⟨hnone, -⟩
  · exact he.trans hn
  · cases hnone.symm.trans hn

theorem makes_put (h : t.lookup m = none) : Makes t (t.put m .directory) := by
  refine ⟨rfl, fun n => ?_⟩
  unfold Keeps
  rw [t.lookup_put (ne_nil_of_vacant h)]
  by_cases hn : n = m
  · subst hn
    exact .inr ⟨h, if_pos rfl⟩
  · exact .inl (if_neg hn)

theorem makeDirectory_eq_ok (h : t.makeDirectory p = .ok t') :
    ∃ m, t.resolve p = .ok (.vacant m) ∧ t' = t.put m .directory := by
  unfold makeDirectory at h
  split at h
  · cases h
  · rename_i m hm
    exact ⟨m, hm, (Except.ok.inj h).symm⟩
  · cases h

theorem makeDirectory_of_vacant (h : t.resolve p = .ok (.vacant m)) :
    t.makeDirectory p = .ok (t.put m .directory) := by
  unfold makeDirectory
  rw [h]

theorem makes_makeDirectory (h : t.makeDirectory p = .ok t') : Makes t t' := by
  obtain ⟨m, hm, rfl⟩ := makeDirectory_eq_ok h
  exact makes_put (lookup_of_resolve_vacant hm)

theorem makes_ensureDirectory (h : t.ensureDirectory p = .ok t') : Makes t t' := by
  unfold ensureDirectory at h
  split at h
  · rename_i made hmade
    rw [← Except.ok.inj h]
    exact makes_makeDirectory hmade
  · split at h
    · rw [← Except.ok.inj h]
      exact .refl t
    · cases h

theorem makes_makeDirectories (t : FileTree) (p : Path) : Makes t (t.makeDirectories p).1 := by
  unfold makeDirectories
  split
  · rename_i made hmade
    exact makes_makeDirectory hmade
  · split
    · exact .refl t
    · split
      · -- What was made up to a failure stays.
        refine List.foldlRecOn (motive := fun acc : FileTree × Option FileError => Makes t acc.1) _ _ ?_ ?_
        · exact .refl t
        · intro acc h q _
          split
          · exact h
          · split
            · rename_i made hmade
              exact h.trans (makes_ensureDirectory hmade)
            · exact h
      · exact .refl t

/-- No directory is gone. -/
def KeepsDirectories (t t' : FileTree) : Prop :=
  ∀ n, t.lookup n = some .directory → t'.lookup n = some .directory

theorem Makes.keepsDirectories (h : Makes t t') : KeepsDirectories t t' := by
  intro n hn
  rcases h.keeps n with he | ⟨hnone, -⟩
  · exact he.trans hn
  · cases hn.symm.trans hnone

/-! ## Where paths lead after a change -/

theorem walk_blank (t : FileTree) (names : List String) {ps : List String} (h : ps.all (· = "")) :
    t.walk names .directory ps = .ok (.entry names .directory) := by
  induction ps with
  | nil => rfl
  | cons p ps ih =>
    rw [List.all_cons, Bool.and_eq_true] at h
    have hp : p = "" := by simpa using h.1
    rw [walk, if_pos (.inl hp)]
    exact ih h.2

/-- A way to a directory, or to where one has been made, leads there. -/
theorem walk_directory (hdirs : KeepsDirectories t t') (hm : t'.lookup m = some .directory)
    (h : t.walk names e ps = .ok (.vacant m) ∨ t.walk names e ps = .ok (.entry m .directory)) :
    t'.walk names e ps = .ok (.entry m .directory) := by
  fun_induction walk t names e ps with
  | case1 names e => simpa [walk] using h
  | case2 names p ps bytes stamp => rcases h with h | h <;> cases h
  | case3 names p ps hskip ih =>
    rw [walk, if_pos hskip]
    exact ih h
  | case4 names ps hskip ih =>
    rw [walk, if_neg hskip, if_pos rfl]
    exact ih h
  | case5 names p ps hskip hup hlong => rcases h with h | h <;> cases h
  | case6 names p ps hskip hup hlong child hchild ih =>
    rw [walk, if_neg hskip, if_neg hup, if_neg hlong]
    cases child with
    | directory =>
      rw [hdirs _ hchild]
      exact ih h
    | file bytes stamp =>
      -- Nothing comes after a file, so the way does not end at a directory.
      cases ps with
      | nil => rcases h with h | h <;> cases h
      | cons q qs => rcases h with h | h <;> cases h
  | case7 names p ps hskip hup hlong hnone hall =>
    rcases h with h | h
    · rw [walk, if_neg hskip, if_neg hup, if_neg hlong, Place.vacant.inj (Except.ok.inj h), hm]
      exact walk_blank t' m hall
    · cases h
  | case8 => rcases h with h | h <;> cases h

theorem getLast?_ne_of_cons {q x : String} (h : (q :: ps).getLast? ≠ some x) : ps.getLast? ≠ some x := by
  intro he
  apply h
  rw [List.getLast?_cons, he]
  rfl

/-- A way to a file, or to where one has been written, leads there. -/
theorem walk_file (hdirs : KeepsDirectories t t') (hm : t'.lookup m = some (.file bytes stamp))
    (hlast : ps.getLast? ≠ some "") {b : ByteArray} {n : Nat} (he : e = .directory)
    (h : t.walk names e ps = .ok (.vacant m) ∨ t.walk names e ps = .ok (.entry m (.file b n))) :
    t'.walk names e ps = .ok (.entry m (.file bytes stamp)) := by
  fun_induction walk t names e ps with
  | case1 names e =>
    subst he
    rcases h with h | h <;> cases h
  | case2 => cases he
  | case3 names p ps hskip ih =>
    rw [walk, if_pos hskip]
    exact ih (getLast?_ne_of_cons hlast) rfl h
  | case4 names ps hskip ih =>
    rw [walk, if_neg hskip, if_pos rfl]
    exact ih (getLast?_ne_of_cons hlast) rfl h
  | case5 => rcases h with h | h <;> cases h
  | case6 names p ps hskip hup hlong child hchild ih =>
    rw [walk, if_neg hskip, if_neg hup, if_neg hlong]
    cases child with
    | directory =>
      rw [hdirs _ hchild]
      exact ih (getLast?_ne_of_cons hlast) rfl h
    | file b' n' =>
      -- Nothing comes after a file, so it is the one that the way leads to.
      cases ps with
      | nil =>
        rcases h with h | h
        · cases h
        · rw [(Place.entry.inj (Except.ok.inj h)).1, hm]
          rfl
      | cons q qs => rcases h with h | h <;> cases h
  | case7 names p ps hskip hup hlong hnone hall =>
    -- Only blank steps could follow, and the last step is not blank.
    have hps : ps = [] := by
      by_contra hne
      apply getLast?_ne_of_cons hlast
      rw [List.getLast?_eq_some_getLast hne]
      simpa using List.all_eq_true.1 hall _ (List.getLast_mem hne)
    rcases h with h | h
    · rw [walk, if_neg hskip, if_neg hup, if_neg hlong, Place.vacant.inj (Except.ok.inj h), hm, hps]
      rfl
    · cases h
  | case8 => rcases h with h | h <;> cases h

theorem resolve_directory (hdirs : KeepsDirectories t t')
    (hcwd : t'.workingDirectory = t.workingDirectory) (hm : t'.lookup m = some .directory)
    (h : t.resolve p = .ok (.vacant m) ∨ t.resolve p = .ok (.entry m .directory)) :
    t'.resolve p = .ok (.entry m .directory) := by
  unfold resolve at h ⊢
  cases hsteps : steps p with
  | error e =>
    rw [hsteps] at h
    rcases h with h | h <;> cases h
  | ok ns =>
    rw [hsteps] at h
    dsimp only at h ⊢
    have horigin : t'.origin p = t.origin p := by
      unfold origin
      rw [hcwd]
    rw [horigin]
    exact walk_directory hdirs hm h

/-- What a path opens is a file that is there, or a name that is free. -/
theorem opens_eq_ok (h : t.opens p = .ok m) :
    (t.resolve p = .ok (.vacant m) ∨ ∃ b n, t.resolve p = .ok (.entry m (.file b n))) ∧
      ∀ ns, steps p = .ok ns → ns.getLast? ≠ some "" := by
  unfold opens at h
  split at h
  · cases h
  · rename_i hslash
    have hnotSlash : ∀ ns, steps p = .ok ns → ns.getLast? ≠ some "" := by
      intro ns hns he
      unfold slashError? at hslash
      rw [hns] at hslash
      dsimp only at hslash
      rw [if_pos he] at hslash
      split at hslash <;> cases hslash
    split at h
    · rename_i m b n hm
      obtain rfl := Except.ok.inj h
      exact ⟨.inr ⟨b, n, hm⟩, hnotSlash⟩
    · cases h
    · rename_i m hm
      obtain rfl := Except.ok.inj h
      exact ⟨.inl hm, hnotSlash⟩
    · cases h

/-- The file at a path is written under these names. -/
structure Writes (t : FileTree) (p : Path) (bytes : ByteArray) (m : List String) (t' : FileTree) : Prop where
  eq : t' = t.putFile m bytes
  opens : t.opens p = .ok m

theorem write_of_opens (h : t.opens p = .ok m) (bytes : ByteArray) : t.write p bytes = .ok (t.putFile m bytes) := by
  unfold write
  rw [h]

theorem writes_of_write (h : t.write p bytes = .ok t') : ∃ m, Writes t p bytes m t' := by
  unfold write at h
  split at h
  · cases h
  · rename_i m hm
    exact ⟨m, (Except.ok.inj h).symm, hm⟩

/-- The writing of a file is broken off, with a part of it down. -/
def BreaksOff (t : FileTree) (p : Path) (bytes : ByteArray) (fault : Option WriteFault) (m : List String)
    (t' : FileTree) : Prop :=
  ∃ f ∈ fault, ∃ n, f.written = some n ∧ Writes t p (bytes.extract 0 n) m t'

theorem not_breaksOff : ¬ BreaksOff t p bytes none m t' := by
  rintro ⟨f, hf, -⟩
  cases hf

/-- A write that fails has changed nothing, or was broken off. -/
theorem breaksOff_of_write {fault : Option WriteFault} {e : FailedWrite} (h : t.write p bytes fault = .error e) :
    e.files = t ∨ ∃ m, BreaksOff t p bytes fault m e.files := by
  unfold write at h
  split at h
  · exact .inl (congrArg FailedWrite.files (Except.error.inj h)).symm
  · rename_i m hm
    cases fault with
    | none => cases h
    | some f =>
      have hfiles : t.broken m bytes f = e.files := congrArg FailedWrite.files (Except.error.inj h)
      unfold broken at hfiles
      cases hwritten : f.written with
      | none =>
        rw [hwritten] at hfiles
        exact .inl hfiles.symm
      | some n =>
        rw [hwritten] at hfiles
        exact .inr ⟨m, f, rfl, n, hwritten, hfiles.symm, hm⟩

namespace Writes

theorem place (h : Writes t p bytes m t') :
    t.resolve p = .ok (.vacant m) ∨ ∃ b n, t.resolve p = .ok (.entry m (.file b n)) :=
  (opens_eq_ok h.opens).1

theorem notSlash (h : Writes t p bytes m t') : ∀ ns, steps p = .ok ns → ns.getLast? ≠ some "" :=
  (opens_eq_ok h.opens).2

theorem ne_nil (h : Writes t p bytes m t') : m ≠ [] := by
  rcases h.place with hm | ⟨b, n, hm⟩
  · exact ne_nil_of_vacant (lookup_of_resolve_vacant hm)
  · rintro rfl
    cases lookup_of_resolve hm

theorem lookup (h : Writes t p bytes m t') (n : List String) :
    t'.lookup n = if n = m then some (.file bytes t.clock) else t.lookup n := by
  rw [h.eq]
  exact t.lookup_putFile h.ne_nil bytes n

theorem workingDirectory (h : Writes t p bytes m t') : t'.workingDirectory = t.workingDirectory := by
  rw [h.eq]
  rfl

theorem keepsDirectories (h : Writes t p bytes m t') : KeepsDirectories t t' := by
  intro n hn
  rw [h.lookup, if_neg]
  · exact hn
  · rintro rfl
    rcases h.place with hm | ⟨b, s, hm⟩
    · cases hn.symm.trans (lookup_of_resolve_vacant hm)
    · cases hn.symm.trans (lookup_of_resolve hm)

/-- Where the file was written it is found, also in a tree that has changed elsewhere. -/
theorem resolve_of_keeps (h : Writes t p bytes m t') (hdirs : KeepsDirectories t t'')
    (hcwd : t''.workingDirectory = t.workingDirectory) (hm : t''.lookup m = some (.file bytes stamp)) :
    t''.resolve p = .ok (.entry m (.file bytes stamp)) := by
  have hplace := h.place
  have hnotSlash := h.notSlash
  unfold FileTree.resolve at hplace ⊢
  cases hsteps : steps p with
  | error e =>
    rw [hsteps] at hplace
    rcases hplace with hm | ⟨b, s, hm⟩ <;> cases hm
  | ok ns =>
    rw [hsteps] at hplace
    dsimp only at hplace ⊢
    have horigin : t''.origin p = t.origin p := by
      unfold origin
      rw [hcwd]
    rw [horigin]
    rcases hplace with hplace | ⟨b, s, hplace⟩
    · exact walk_file hdirs hm (hnotSlash ns hsteps) (b := .empty) (n := 0) rfl (.inl hplace)
    · exact walk_file hdirs hm (hnotSlash ns hsteps) rfl (.inr hplace)

theorem resolve (h : Writes t p bytes m t') : t'.resolve p = .ok (.entry m (.file bytes t.clock)) := by
  apply h.resolve_of_keeps h.keepsDirectories h.workingDirectory
  rw [h.lookup, if_pos rfl]

end Writes

theorem read_of_resolve (h : t.resolve p = .ok (.entry m (.file bytes stamp))) : t.read p = .ok bytes := by
  unfold read
  rw [h]

theorem exists_of_read (h : t.read p = .ok bytes) : ∃ n stamp, t.resolve p = .ok (.entry n (.file bytes stamp)) := by
  unfold read at h
  split at h
  · rename_i n bytes' stamp hn
    exact ⟨n, stamp, Except.ok.inj h ▸ hn⟩
  · cases h
  · cases h
  · cases h

theorem readTemplate_of_read {text : String} (hread : t.read p = .ok text.toUTF8)
    (hmark : Text.dropPrefix? "\ufeff" text = none) : t.readTemplate p = .ok text := by
  unfold readTemplate readText
  rw [hread]
  dsimp only
  rw [Text.decode_toUTF8]
  simp [Except.map, hmark]

/-! ## Below a directory -/

theorem walk_append {d : List String} (h : t.walk names e ps = .ok (.entry d .directory)) (qs : List String) :
    t.walk names e (ps ++ qs) = t.walk d .directory qs := by
  fun_induction walk t names e ps with
  | case1 names e =>
    obtain ⟨rfl, rfl⟩ := Place.entry.inj (Except.ok.inj h)
    rfl
  | case2 | case5 | case7 | case8 => cases h
  | case3 names p ps hskip ih =>
    rw [List.cons_append, walk, if_pos hskip]
    exact ih h
  | case4 names ps hskip ih =>
    rw [List.cons_append, walk, if_neg hskip, if_pos rfl]
    exact ih h
  | case6 names p ps hskip hup hlong child hchild ih =>
    rw [List.cons_append, walk, if_neg hskip, if_neg hup, if_neg hlong, hchild]
    exact ih h

/-- A slash or a dot at the end of a directory's path may be left out. -/
theorem walk_of_append_skip {d : List String} {s : String} (hs : s = "" ∨ s = ".")
    (h : t.walk names e (ps ++ [s]) = .ok (.entry d .directory)) :
    t.walk names e ps = .ok (.entry d .directory) := by
  fun_induction walk t names e ps with
  | case1 names e =>
    cases e with
    | file => cases h
    | directory =>
      rw [List.nil_append, walk, if_pos hs] at h
      exact h
  | case2 => cases h
  | case3 names p ps hskip ih =>
    rw [List.cons_append, walk, if_pos hskip] at h
    exact ih h
  | case4 names ps hskip ih =>
    rw [List.cons_append, walk, if_neg hskip, if_pos rfl] at h
    exact ih h
  | case5 names p ps hskip hup hlong =>
    rw [List.cons_append, walk, if_neg hskip, if_neg hup, if_pos hlong] at h
    cases h
  | case6 names p ps hskip hup hlong child hchild ih =>
    rw [List.cons_append, walk, if_neg hskip, if_neg hup, if_neg hlong, hchild] at h
    exact ih h
  | case7 names p ps hskip hup hlong hnone | case8 names p ps hskip hup hlong hnone =>
    rw [List.cons_append, walk, if_neg hskip, if_neg hup, if_neg hlong, hnone] at h
    dsimp only at h
    split at h <;> cases h

theorem split_join {p : Path} (hp : p.text ≠ "") {name : String} (hslash : '/' ∉ name.toList) :
    ∃ ps, Text.split (p.join ⟨name⟩).text '/' = ps ++ [name] ∧
      (Text.split p.text '/' = ps ∨ Text.split p.text '/' = ps ++ [""]) := by
  obtain ⟨front, hfront, hjoin, htext⟩ := Path.join_of_relative (p := p) (q := ⟨name⟩) hslash
  rw [hjoin]
  rcases htext with rfl | ⟨rfl, -⟩
  · rcases hfront with hempty | ⟨a, ha⟩
    · exact absurd (by simpa using hempty) hp
    · refine ⟨(Text.pieces '/' a).map String.ofList, ?_, .inr ?_⟩
      · rw [Text.split, String.toList_append, String.toList_ofList, ha, List.append_assoc,
          List.singleton_append, Text.pieces_append, Text.pieces_of_not_mem hslash]
        simp
      · rw [Text.split, ha, Text.pieces_append]
        simp [Text.pieces]
  · refine ⟨Text.split p.text '/', ?_, .inl rfl⟩
    rw [Text.split, String.toList_append, String.toList_ofList, List.append_assoc,
      List.singleton_append, Text.pieces_append, Text.pieces_of_not_mem hslash]
    simp [Text.split]

theorem isAbsolute_join {p : Path} (hp : p.text ≠ "") {name : String} (hslash : '/' ∉ name.toList) :
    (p.join ⟨name⟩).isAbsolute = p.isAbsolute := by
  obtain ⟨front, -, hjoin, htext⟩ := Path.join_of_relative (p := p) (q := ⟨name⟩) hslash
  have hp' : p.text.toList ≠ [] := by simpa using hp
  obtain ⟨c, cs, hcs⟩ := List.exists_cons_of_ne_nil hp'
  rw [hjoin]
  unfold Path.isAbsolute Text.startsWith
  rw [String.toList_append, String.toList_ofList, hcs]
  rcases htext with rfl | ⟨rfl, -⟩
  · rw [hcs]
    simp [List.isPrefixOf]
  · rw [hcs]
    simp [List.isPrefixOf]

theorem resolve_eq_ok_iff {place : Place} : t.resolve p = .ok place ↔ p.text ≠ "" ∧ '\x00' ∉ p.text.toList ∧
    p.text.utf8ByteSize ≤ 4095 ∧ t.walk (t.origin p) .directory (Text.split p.text '/') = .ok place := by
  unfold resolve steps FileTree.names
  by_cases hempty : p.text = ""
  · simp [hempty]
  · by_cases hzero : '\x00' ∈ p.text.toList
    · simp [hempty, hzero]
    · by_cases hlong : 4095 < p.text.utf8ByteSize
      · simp [hempty, hzero, hlong, Nat.not_le.2 hlong]
      · simp [hempty, hzero, hlong, Nat.not_lt.1 hlong]

/-- The way to a name below a directory leads to the directory first. -/
theorem split_below {d : List String} {dir : Path} {name : String} (hdir : t.resolve dir = .ok (.entry d .directory))
    (hslash : '/' ∉ name.toList) : ∃ ps, Text.split (dir.join ⟨name⟩).text '/' = ps ++ [name] ∧
      t.walk (t.origin (dir.join ⟨name⟩)) .directory ps = .ok (.entry d .directory) := by
  obtain ⟨hne, -, -, hwalk⟩ := resolve_eq_ok_iff.1 hdir
  obtain ⟨ps, hjoined, hsplit⟩ := split_join hne hslash
  have horigin : t.origin (dir.join ⟨name⟩) = t.origin dir := by
    unfold origin
    rw [isAbsolute_join hne hslash]
  refine ⟨ps, hjoined, ?_⟩
  rw [horigin]
  rcases hsplit with hsplit | hsplit
  · rwa [hsplit] at hwalk
  · rw [hsplit] at hwalk
    exact walk_of_append_skip (.inl rfl) hwalk

/-- Where one name leads from a directory, if not to a directory, is the entry of that name. -/
theorem walk_name {d : List String} {name : String} (h : t.walk d .directory [name] = .ok (.vacant m) ∨
    ∃ b n, t.walk d .directory [name] = .ok (.entry m (.file b n))) : m = d ++ [name] := by
  rw [walk] at h
  split at h
  · rcases h with h | ⟨b, n, h⟩ <;> cases h
  · split at h
    · rcases h with h | ⟨b, n, h⟩ <;> cases h
    · split at h
      · rcases h with h | ⟨b, n, h⟩ <;> cases h
      · split at h
        · rcases h with h | ⟨b, n, h⟩
          · cases h
          · exact (Place.entry.inj (Except.ok.inj h)).1.symm
        · rcases h with h | ⟨b, n, h⟩
          · exact (Place.vacant.inj (Except.ok.inj h)).symm
          · cases h

/-- What is written to a name below a directory is an entry of that directory. -/
theorem Writes.of_split {d ps : List String} {name : String} (hsplit : Text.split p.text '/' = ps ++ [name])
    (hdir : t.walk (t.origin p) .directory ps = .ok (.entry d .directory)) (h : Writes t p bytes m t') :
    m = d ++ [name] := by
  apply walk_name (t := t)
  rw [← walk_append hdir, ← hsplit]
  rcases h.place with hplace | ⟨b, n, hplace⟩
  · exact .inl (resolve_eq_ok_iff.1 hplace).2.2.2
  · exact .inr ⟨b, n, (resolve_eq_ok_iff.1 hplace).2.2.2⟩

theorem Writes.below {d : List String} {dir : Path} {name : String} (hdir : t.resolve dir = .ok (.entry d .directory))
    (hslash : '/' ∉ name.toList) (h : Writes t (dir.join ⟨name⟩) bytes m t') :
    m = d ++ [name] := by
  obtain ⟨ps, hjoined, hps⟩ := split_below hdir hslash
  exact h.of_split hjoined hps

end FileTree

end Templating
