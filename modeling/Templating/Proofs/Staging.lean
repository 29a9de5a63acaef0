import Templating.Proofs.Directories
import Templating.Proofs.Targets

/-!
# Where a run stages

What a run stages is a name in its directory, and its extension is that of the name (`stagedPath_inside`).
Under a stem that is a dot, a text is staged beside the directory, under the directory's name. The extension
read back is the same there, if that name has no dot (`extension?_stagedText`).
-/

namespace Templating

namespace Path

theorem name?_dots {front : List Char} (hf : IsFront front) : name? ⟨String.ofList front ++ ".."⟩ = none := by
  have hlast : ∃ init n, (offsets 0 (Text.pieces '/' (front ++ ['.', '.']))).filterMap ofPiece =
      init ++ [(.parent, n)] := by
    rcases hf with rfl | ⟨a, rfl⟩
    · exact ⟨[], 2, rfl⟩
    · refine ⟨(offsets 0 (Text.pieces '/' a)).filterMap ofPiece, a.length + 1 + 2, ?_⟩
      rw [List.append_assoc, List.singleton_append, offsets_pieces_append a _ (by decide),
        List.filterMap_append]
      rfl
  obtain ⟨init, n, hinit⟩ := hlast
  have hdots : "..".toList = ['.', '.'] := rfl
  simp only [name?, marks, String.toList_append, String.toList_ofList, hdots, hinit, ← List.append_assoc,
    List.getLast?_concat]

end Path

namespace Generation

variable {input staging staged template : Path} {o : TemplateOptions} {stem : String} {asked : Option String}
  {files files' : FileTree} {bytes : ByteArray}

/-! ## Staged texts -/

/-- The name of a staged text, whose template asked for this extension. -/
def stagedName (stem : String) : Option String → String
  | none => stem
  | some ext =>
    if stem = ".." then stem
    else (Path.cutName stem).1 ++ if ext = "" then "" else "." ++ ext

theorem noSlash_stagedName (hslash : '/' ∉ stem.toList) (hasked : ∀ ext ∈ asked, '/' ∉ ext.toList) :
    '/' ∉ (stagedName stem asked).toList := by
  unfold stagedName
  split
  · exact hslash
  · rename_i ext
    split
    · exact hslash
    · have hstem := Path.noSlash_stem hslash
      have hext := hasked ext rfl
      by_cases hempty : ext = ""
      · simpa [hempty] using hstem
      · simpa [hempty, hext] using hstem

theorem stagedName_ne_empty (hne : stem ≠ "") (asked : Option String) : stagedName stem asked ≠ "" := by
  unfold stagedName
  split
  · exact hne
  · split
    · exact hne
    · have hstem := Path.stem_ne_empty hne
      simp [hstem]

theorem stagedStem_plain (template : Path) :
    stagedStem template ≠ "" ∧ '/' ∉ (stagedStem template).toList := by
  unfold stagedStem Path.stem?
  cases hname : template.name? with
  | none => exact ⟨by decide, by decide⟩
  | some name =>
    obtain ⟨front, h⟩ := Path.endsIn_of_name hname
    exact ⟨Path.stem_ne_empty (by simpa using h.isName.ne_nil), Path.noSlash_stem h.isName.noSlash⟩

/-- The path that a text is staged at, whose template asked for this extension. -/
def stagedText (staging template : Path) : Option String → Path
  | none => staging.join ⟨stagedStem template⟩
  | some ext => (staging.join ⟨stagedStem template⟩).withPlainExtension ext

theorem outputPath?_congr {g g' : Generator} (h : g'.extension = g.extension) (input : Path) (output : Option Path) :
    outputPath? g' input output = outputPath? g input output := by
  unfold outputPath?
  rw [h]

theorem outputPath?_staging_iff {g : Generator} :
    outputPath? g input (some (staging.join ⟨stagedStem template⟩)) = some staged ↔
      (∀ ext ∈ g.extension, '/' ∉ ext.toList) ∧ stagedText staging template g.extension = staged := by
  unfold outputPath? stagedText
  cases g.extension with
  | none => simp
  | some ext =>
    dsimp only
    by_cases hslash : '/' ∈ ext.toList
    · have hnone : (staging.join ⟨stagedStem template⟩).withExtension? ext = none := if_pos hslash
      simp [hnone, hslash]
    · rw [Path.withExtension?_plain _ hslash]
      simp [hslash]

/-- A text is staged under its name in the staging directory, unless the stem is a dot. -/
theorem stagedText_plain (hdot : stagedStem template ≠ ".") (hasked : ∀ ext ∈ asked, '/' ∉ ext.toList)
    (staging : Path) : stagedText staging template asked = staging.join ⟨stagedName (stagedStem template) asked⟩ := by
  obtain ⟨hne, hslash⟩ := stagedStem_plain template
  obtain ⟨front, hf, -, hjoin⟩ := staging.exists_front
  have hname := noSlash_stagedName hslash hasked
  unfold stagedText
  cases asked with
  | none => rfl
  | some ext =>
    have hext := hasked ext rfl
    dsimp only
    unfold Path.withPlainExtension
    rw [hjoin _ hname, hjoin _ hslash]
    unfold stagedName
    by_cases hdots : stagedStem template = ".."
    · rw [hdots]
      dsimp only
      rw [if_pos rfl, Path.withExtension?_of_nameless (Path.name?_dots hf) hext]
      rfl
    · have hplain : Path.IsName (stagedStem template).toList := by
        rcases Path.isName_or_dots hne hslash with hplain | h | h
        · exact hplain
        · exact absurd h hdot
        · exact absurd h hdots
      dsimp only
      rw [if_neg hdots, (Path.endsIn_append hf hplain).withExtension? hext, String.append_assoc]
      rfl

/-- Nothing can be written to a staged text that is named by a dot alone. -/
theorem not_opens_dot (files : FileTree) (staging : Path) (m : List String) :
    files.opens (staging.join ⟨"."⟩) ≠ .ok m := by
  intro h
  obtain ⟨front, hf, -, hjoin⟩ := staging.exists_front
  rw [hjoin "." (by decide)] at h
  obtain ⟨e, he⟩ := files.write_dots hf (.inl rfl) .empty
  cases (FileTree.write_of_opens h .empty).symm.trans he

/-- A plain name with an extension has the extension that is read back from a dot with it. -/
theorem extension_beside {name : String} (hne : name ≠ "") (hnoDot : '.' ∉ name.toList) (ext : String) :
    (Path.cutName (name ++ if ext = "" then "" else "." ++ ext)).2 =
      (Path.cutName (stagedName "." (some ext))).2 := by
  have hbare : Path.cutName "." = (".", none) := by cbv
  have hstaged : stagedName "." (some ext) = "." ++ if ext = "" then "" else "." ++ ext := by
    have hdots : "." ≠ ".." := by decide
    simp only [stagedName, if_neg hdots, hbare]
  rw [hstaged]
  by_cases hext : ext = ""
  · rw [if_pos hext, String.append_empty, String.append_empty, hbare, Path.cutName_of_noDot hnoDot]
  · obtain ⟨last, hlast, -⟩ := Path.extension_append ext
    rw [if_neg hext, ← String.append_assoc, ← String.append_assoc, hlast name hne, hlast "." (by decide)]

/-- Under a stem that is a dot, the staging directory's own name gets the extension. -/
theorem exists_name_of_dot (hdot : stagedStem template = ".") (hasked : ∀ ext ∈ asked, '/' ∉ ext.toList)
    (hplain : ∀ name ∈ staging.name?, '.' ∉ name.toList)
    (h : files.write (stagedText staging template asked) bytes = .ok files') :
    ∃ front name ext, asked = some ext ∧ Path.IsFront front ∧ Path.IsName name.toList ∧ '.' ∉ name.toList ∧
      '/' ∉ (name ++ if ext = "" then "" else "." ++ ext).toList ∧
      stagedText staging template asked = ⟨String.ofList front ++ (name ++ if ext = "" then "" else "." ++ ext)⟩ := by
  obtain ⟨m, hm⟩ := FileTree.writes_of_write h
  unfold stagedText at hm ⊢
  rw [hdot] at hm ⊢
  cases asked with
  | none => exact absurd hm.opens (not_opens_dot _ _ _)
  | some ext =>
    have hslash := hasked ext rfl
    dsimp only at hm ⊢
    unfold Path.withPlainExtension at hm ⊢
    cases hname : (staging.join ⟨"."⟩).name? with
    | none =>
      rw [Path.withExtension?_of_nameless hname hslash] at hm
      exact absurd hm.opens (not_opens_dot _ _ _)
    | some name =>
      have hnoDot := hplain name (Path.name?_join_dot hname)
      obtain ⟨front, hends⟩ := Path.endsIn_of_name hname
      refine ⟨front, name, ext, rfl, hends.isFront, hends.isName, hnoDot, ?_, ?_⟩
      · have hslash' := hends.isName.noSlash
        by_cases hempty : ext = "" <;> simp_all
      · rw [hends.withExtension? hslash, Path.cutName_of_noDot hnoDot, String.append_assoc]
        rfl

theorem extension?_of_write {name : String} (hne : name ≠ "") (hslash : '/' ∉ name.toList)
    (h : files.write (staging.join ⟨name⟩) bytes = .ok files') :
    (staging.join ⟨name⟩).extension? = (Path.cutName name).2 := by
  obtain ⟨front, hf, -, hjoin⟩ := staging.exists_front
  rw [hjoin name hslash] at h ⊢
  exact (FileTree.endsIn_of_write hf hne hslash h).extension?

/-- The extension that is read back from a staged text does not depend on where it is staged. -/
theorem extension?_stagedText (hasked : ∀ ext ∈ asked, '/' ∉ ext.toList)
    (hplain : stagedStem template = "." → ∀ name ∈ staging.name?, '.' ∉ name.toList)
    (h : files.write (stagedText staging template asked) bytes = .ok files') :
    (stagedText staging template asked).extension? =
      (Path.cutName (stagedName (stagedStem template) asked)).2 := by
  obtain ⟨hne, hslash⟩ := stagedStem_plain template
  by_cases hdot : stagedStem template = "."
  · obtain ⟨front, name, ext, rfl, hf, hname, hnoDot, hslash', htext⟩ :=
      exists_name_of_dot hdot hasked (hplain hdot) h
    have hne' : name ≠ "" := by simpa using hname.ne_nil
    rw [htext] at h ⊢
    rw [hdot, (FileTree.endsIn_of_write hf (by simp [hne']) hslash' h).extension?]
    exact extension_beside hne' hnoDot ext
  · rw [stagedText_plain hdot hasked] at h ⊢
    exact extension?_of_write (stagedName_ne_empty hne _) (noSlash_stagedName hslash hasked) h

/-! ## Staged files and targets -/

/-- The path that a run stages its output at. -/
def stagedPath (o : TemplateOptions) (asked : Option String) (staging template : Path) : Path :=
  match o.outputKind with
  | .text => stagedText staging template asked
  | _ => staging.join ⟨stagedStem template ++ "." ++ sourceExtension⟩

/-- The target of a run: what the options name, or else the template's path with the extension of the
staged file. -/
def destination (o : TemplateOptions) (asked : Option String) (staging template : Path) : Path :=
  target o template (template.withPlainExtension
    (match o.outputKind with
    | .text => (stagedText staging template asked).extension?.getD defaultExtension
    | _ => sourceExtension))

theorem stagedPath_text (hkind : o.outputKind = .text) :
    stagedPath o asked staging template = stagedText staging template asked := by
  unfold stagedPath
  rw [hkind]

theorem stagedPath_source (asked : Option String) (staging template : Path) (hkind : o.outputKind = .textGenerator) :
    stagedPath o asked staging template = staging.join ⟨stagedStem template ++ "." ++ sourceExtension⟩ := by
  unfold stagedPath
  rw [hkind]

theorem destination_text (hkind : o.outputKind = .text) : destination o asked staging template =
    target o template (template.withPlainExtension
      ((stagedText staging template asked).extension?.getD defaultExtension)) := by
  unfold destination
  rw [hkind]

theorem destination_source (asked : Option String) (staging template : Path)
    (hkind : o.outputKind = .textGenerator) :
    destination o asked staging template = target o template (template.withPlainExtension sourceExtension) := by
  unfold destination
  rw [hkind]

/-- The target does not depend on where it was staged. -/
theorem destination_of_staged (hasked : o.outputKind = .text → ∀ ext ∈ asked, '/' ∉ ext.toList)
    (hplain : o.outputKind = .text → stagedStem template = "." → ∀ name ∈ staging.name?, '.' ∉ name.toList)
    (h : files.write (stagedPath o asked staging template) bytes = .ok files') :
    destination o asked staging template = target o template (template.withPlainExtension
      (match o.outputKind with
      | .text => (Path.cutName (stagedName (stagedStem template) asked)).2.getD defaultExtension
      | _ => sourceExtension)) := by
  unfold destination stagedPath at *
  cases hkind : o.outputKind with
  | text =>
    rw [hkind] at h
    dsimp only at h ⊢
    rw [extension?_stagedText (hasked hkind) (hplain hkind) h]
  | _ => rfl

/-- What a run stages is a name in its directory, unless it is a text under a stem that is a dot. -/
theorem stagedPath_inside (hinside : ¬ (o.outputKind = .text ∧ stagedStem template = "."))
    (hasked : o.outputKind = .text → ∀ ext ∈ asked, '/' ∉ ext.toList) (staging : Path) :
    ∃ name, '/' ∉ name.toList ∧ stagedPath o asked staging template = staging.join ⟨name⟩ := by
  obtain ⟨-, hslash⟩ := stagedStem_plain template
  by_cases hkind : o.outputKind = .text
  · rw [stagedPath_text hkind, stagedText_plain (fun hdot => hinside ⟨hkind, hdot⟩) (hasked hkind)]
    exact ⟨_, noSlash_stagedName hslash (hasked hkind), rfl⟩
  · refine ⟨stagedStem template ++ "." ++ sourceExtension, by simp [hslash, sourceExtension], ?_⟩
    unfold stagedPath
    split
    · exact absurd ‹_› hkind
    · rfl

end Generation

end Templating
