import Mathlib
import Templating.CommandLine
import Templating.Proofs.Aborting
import Templating.Proofs.Variants

/-!
# Class names taken from templates

The name that a template gives its class is made of letters and digits and begins with a capital, and of the
reserved words only `Self` does. So the name is refused for a template whose stem is the word self, up to the
capital and what stands around it, and for no other (`default_name_refused_iff`).
-/

namespace Templating

namespace ClassName

/-! ## Words of a stem -/

/-- What the words of a stem give the name. -/
def joined (cs : List Char) : List Char :=
  (words cs).flatMap capitalized

/-- The name of the class, unless it is empty or begins with a digit. -/
theorem ofStem_eq (stem : String) : ofStem stem =
    if joined stem.toList = [] ∨ ∃ c ∈ (joined stem.toList).head?, c.isDigit then
      "Template" ++ String.ofList (joined stem.toList)
    else String.ofList (joined stem.toList) := by
  unfold ofStem begins
  have hempty : (String.ofList (joined stem.toList)).isEmpty ↔ joined stem.toList = [] := by
    rw [String.isEmpty_iff, ← String.toList_inj, String.toList_ofList]
    rfl
  change (if (String.ofList (joined stem.toList)).isEmpty || (String.ofList (joined stem.toList)).toList.head?.any _
    then _ else _) = _
  simp only [Bool.or_eq_true, hempty, String.toList_ofList, Option.any_eq_true]
  rfl

theorem words_run {w r : List Char} (hw : ∀ c ∈ w, isWordChar c) (hr : ∀ c ∈ r.head?, ¬ isWordChar c) :
    words (w ++ r) = w :: (words r).tail := by
  induction w with
  | nil =>
    cases r with
    | nil => rfl
    | cons c r => rw [List.nil_append, words, if_neg (hr c rfl), List.tail_cons]
  | cons c w ih =>
    obtain ⟨hc, hw⟩ := List.forall_mem_cons.1 hw
    rw [List.cons_append, words, if_pos hc, ih hw]

/-- A run of word characters is capitalized. -/
theorem joined_run {w r : List Char} (hw : ∀ c ∈ w, isWordChar c) (hr : ∀ c ∈ r.head?, ¬ isWordChar c) :
    joined (w ++ r) = capitalized w ++ joined r := by
  have hbefore : words r = [] :: (words r).tail := words_run (w := []) (by simp) hr
  rw [joined, words_run hw hr, List.flatMap_cons, joined, hbefore]
  rfl

theorem joined_separator {c : Char} {r : List Char} (hc : ¬ isWordChar c) : joined (c :: r) = joined r := by
  rw [joined, words, if_neg hc]
  rfl

theorem joined_separators {s r : List Char} (hs : ∀ c ∈ s, ¬ isWordChar c) : joined (s ++ r) = joined r := by
  induction s with
  | nil => rfl
  | cons c s ih =>
    obtain ⟨hc, hs⟩ := List.forall_mem_cons.1 hs
    rw [List.cons_append, joined_separator hc, ih hs]

/-- A stem that begins with a word character begins with a run of them. -/
theorem exists_run {c : Char} (cs : List Char) (hc : isWordChar c) : ∃ w r, cs = w ++ r ∧
    (∀ d ∈ c :: w, isWordChar d) ∧ ∀ d ∈ r.head?, ¬ isWordChar d := by
  refine ⟨cs.takeWhile isWordChar, cs.dropWhile isWordChar, List.takeWhile_append_dropWhile.symm,
    List.forall_mem_cons.2 ⟨hc, fun d => List.mem_takeWhile_imp⟩, fun d hd => ?_⟩
  have hfirst := List.head?_dropWhile_not isWordChar cs
  rw [Option.mem_def.1 hd] at hfirst
  simpa using hfirst

theorem joined_eq_nil_iff {cs : List Char} : joined cs = [] ↔ ∀ c ∈ cs, ¬ isWordChar c := by
  induction cs with
  | nil => exact iff_of_true rfl (by simp)
  | cons c cs ih =>
    rw [List.forall_mem_cons]
    by_cases hc : isWordChar c
    · obtain ⟨w, r, rfl, hw, hr⟩ := exists_run cs hc
      refine iff_of_false ?_ fun h => h.1 hc
      rw [← List.cons_append, joined_run hw hr]
      exact List.cons_ne_nil _ _
    · rw [joined_separator hc, ih]
      exact (and_iff_right hc).symm

theorem isWordChar_toUpper {c : Char} (h : isWordChar c) : isWordChar c.toUpper := by
  simp only [isWordChar, Char.isAlphanum, Bool.or_eq_true] at h ⊢
  by_cases hl : c.isLower
  · exact .inl (by simp [Char.isAlpha, hl])
  · rwa [Char.toUpper_eq_of_not_isLower hl]

theorem isWordChar_of_mem_words {cs w : List Char} (hw : w ∈ words cs) : ∀ c ∈ w, isWordChar c := by
  induction cs generalizing w with
  | nil =>
    obtain rfl := List.mem_singleton.1 hw
    simp
  | cons c cs ih =>
    unfold words at hw
    split at hw
    · rename_i hc
      split at hw
      · obtain rfl := List.mem_singleton.1 hw
        exact List.forall_mem_singleton.2 hc
      · rename_i v vs hvs
        rw [hvs] at ih
        rcases List.mem_cons.1 hw with rfl | hw
        · exact List.forall_mem_cons.2 ⟨hc, ih List.mem_cons_self⟩
        · exact ih (List.mem_cons_of_mem _ hw)
    · rcases List.mem_cons.1 hw with rfl | hw
      · simp
      · exact ih hw

theorem isWordChar_of_mem_joined {c : Char} {cs : List Char} (h : c ∈ joined cs) : isWordChar c := by
  obtain ⟨w, hw, hc⟩ := List.mem_flatMap.1 h
  have hall := isWordChar_of_mem_words hw
  cases w with
  | nil => cases hc
  | cons d w =>
    obtain ⟨hd, hw⟩ := List.forall_mem_cons.1 hall
    rcases List.mem_cons.1 hc with rfl | hc
    · exact isWordChar_toUpper hd
    · exact hw c hc

/-- What is joined begins with no small letter. -/
theorem not_isLower_head_joined (cs : List Char) : ∀ c ∈ (joined cs).head?, ¬ c.isLower := by
  unfold joined
  induction words cs with
  | nil => simp
  | cons w ws ih =>
    cases w with
    | nil => exact ih
    | cons d w => simp [capitalized]

/-! ## Stems that give a reserved word -/

/-- The stem is the word self, with or without a capital, between characters that are in no word. -/
def SelfNamed (stem : String) : Prop :=
  ∃ before word after, stem.toList = before ++ word ++ after ∧
    (word = ['s', 'e', 'l', 'f'] ∨ word = ['S', 'e', 'l', 'f']) ∧ ∀ c ∈ before ++ after, ¬ isWordChar c

theorem eq_of_toUpper_eq {c : Char} (h : c.toUpper = 'S') : c = 's' ∨ c = 'S' := by
  by_cases hl : c.isLower
  · left
    have hlower := Char.toLower_toUpper_eq_toLower c
    rw [h, Char.toLower_eq_of_not_isUpper (Char.not_isUpper_of_isLower hl)] at hlower
    exact hlower.symm
  · rw [Char.toUpper_eq_of_not_isLower hl] at h
    exact .inr h

theorem exists_of_joined_eq {cs : List Char} (h : joined cs = ['S', 'e', 'l', 'f']) :
    ∃ before word after, cs = before ++ word ++ after ∧
      (word = ['s', 'e', 'l', 'f'] ∨ word = ['S', 'e', 'l', 'f']) ∧ ∀ c ∈ before ++ after, ¬ isWordChar c := by
  induction cs with
  | nil => cases h
  | cons c cs ih =>
    by_cases hc : isWordChar c
    · obtain ⟨w, r, rfl, hw, hr⟩ := exists_run cs hc
      rw [← List.cons_append, joined_run hw hr] at h
      obtain ⟨hfirst, hrest⟩ : c.toUpper = 'S' ∧ w ++ joined r = ['e', 'l', 'f'] := List.cons.inj h
      -- a second word would begin with a capital
      have hafter : joined r = [] := by
        cases hj : joined r with
        | nil => rfl
        | cons d ds =>
          have hd := not_isLower_head_joined r d (by rw [hj]; rfl)
          have hmem : d ∈ ['e', 'l', 'f'] := by
            rw [← hrest, hj]
            simp
          simp only [List.mem_cons, List.not_mem_nil, or_false] at hmem
          rcases hmem with rfl | rfl | rfl <;> exact absurd rfl hd
      rw [hafter, List.append_nil] at hrest
      subst hrest
      refine ⟨[], c :: ['e', 'l', 'f'], r, rfl, ?_, joined_eq_nil_iff.1 hafter⟩
      rcases eq_of_toUpper_eq hfirst with rfl | rfl
      · exact .inl rfl
      · exact .inr rfl
    · rw [joined_separator hc] at h
      obtain ⟨before, word, after, rfl, hword, hothers⟩ := ih h
      exact ⟨c :: before, word, after, rfl, hword, List.forall_mem_cons.2 ⟨hc, hothers⟩⟩

theorem joined_eq_iff {stem : String} : joined stem.toList = ['S', 'e', 'l', 'f'] ↔ SelfNamed stem := by
  refine ⟨exists_of_joined_eq, ?_⟩
  rintro ⟨before, word, after, hstem, hword, hothers⟩
  obtain ⟨hbefore, hafter⟩ := List.forall_mem_append.1 hothers
  have hw : ∀ c ∈ word, isWordChar c := by
    rcases hword with rfl | rfl <;> exact List.all_eq_true.1 rfl
  have hcapitalized : capitalized word = ['S', 'e', 'l', 'f'] := by
    rcases hword with rfl | rfl <;> decide
  rw [hstem, List.append_assoc, joined_separators hbefore,
    joined_run hw fun c hc => hafter c (List.mem_of_mem_head? hc), joined_eq_nil_iff.2 hafter, hcapitalized]
  rfl

/-- One reserved word begins with a capital. -/
theorem reserved_capital : (Identifier.reserved.filter fun word => begins word Char.isUpper) = ["Self"] := by
  decide

theorem isValid_iff {name : String} {c : Char} {r : List Char} (hname : name.toList = c :: r) (hc : c.isUpper)
    (hr : ∀ d ∈ r, isWordChar d) : Identifier.isValid name ↔ name ≠ "Self" := by
  have hstart : Identifier.isStart c := by simp [Identifier.isStart, Char.isAlpha, hc]
  have hpart : r.all Identifier.isPart := by
    rw [List.all_eq_true]
    intro d hd
    simp only [Identifier.isPart, Bool.or_eq_true]
    exact .inr (hr d hd)
  have hcapital : begins name Char.isUpper := by
    rw [begins, hname]
    exact hc
  have hreserved : name ∈ Identifier.reserved ↔ name = "Self" := by
    rw [← List.mem_singleton, ← reserved_capital, List.mem_filter]
    exact (and_iff_left hcapital).symm
  unfold Identifier.isValid
  rw [hname]
  simp [hstart, hpart, hreserved]

/-- The name is valid just if the stem does not give the word `Self`. -/
theorem isValid_ofStem_iff (stem : String) : Identifier.isValid (ofStem stem) ↔ ¬ SelfNamed stem := by
  have hword : ∀ d ∈ joined stem.toList, isWordChar d := fun d => isWordChar_of_mem_joined
  rw [ofStem_eq, ← joined_eq_iff]
  have hhead := not_isLower_head_joined stem.toList
  generalize joined stem.toList = name at hword hhead ⊢
  split
  · rename_i hfront
    have hname : ("Template" ++ String.ofList name).toList =
        'T' :: (['e', 'm', 'p', 'l', 'a', 't', 'e'] ++ name) := by simp
    rw [isValid_iff hname rfl (List.forall_mem_append.2 ⟨List.all_eq_true.1 rfl, hword⟩)]
    -- a word goes in front just where the parts are empty or begin with a digit, so they are not that word
    refine iff_of_true (fun h => ?_) ?_
    · rw [h] at hname
      cases List.head_eq_of_cons_eq hname
    · rintro rfl
      rcases hfront with h | ⟨c, hc, hdigit⟩
      · cases h
      · obtain rfl := Option.some.inj hc
        cases hdigit
  · rename_i hplain
    obtain ⟨hne, hdigit⟩ := not_or.1 hplain
    obtain ⟨c, r, rfl⟩ := List.exists_cons_of_ne_nil hne
    obtain ⟨hc, hr⟩ := List.forall_mem_cons.1 hword
    have hupper : c.isUpper := by
      have hlower := hhead c rfl
      have hletter : ¬ c.isDigit := fun h => hdigit ⟨c, rfl, h⟩
      simpa [isWordChar, Char.isAlphanum, Char.isAlpha, hlower, hletter] using hc
    rw [isValid_iff String.toList_ofList hupper hr, not_iff_not, ← String.toList_inj, String.toList_ofList]
    rfl

theorem ofStem_of_selfNamed {stem : String} (h : SelfNamed stem) : ofStem stem = "Self" := by
  have hplain : ¬ (joined stem.toList = [] ∨ ∃ c ∈ (joined stem.toList).head?, c.isDigit) := by
    rw [joined_eq_iff.2 h]
    simp
  rw [ofStem_eq, if_neg hplain, joined_eq_iff.2 h]

end ClassName

/-! ## Units -/

theorem exists_of_mapM_eq_error {α β ε : Type} {f : α → Except ε β} {xs : List α} {e : ε}
    (h : xs.mapM f = .error e) : ∃ x, f x = .error e := by
  induction xs with
  | nil => cases h
  | cons x xs ih =>
    rw [List.mapM_cons] at h
    cases hx : f x with
    | error e' =>
      rw [hx] at h
      cases h
      exact ⟨x, hx⟩
    | ok b =>
      cases hxs : xs.mapM f with
      | error e' =>
        rw [hx, hxs] at h
        cases h
        exact ih hxs
      | ok bs =>
        rw [hx, hxs] at h
        cases h

namespace GeneratedUnit

theorem namespacePath_ne_className (ns name : String) : namespacePath ns ≠ .error (.className name) := by
  unfold namespacePath
  dsimp only
  split
  · intro h
    cases h
  · intro h
    obtain ⟨part, hpart⟩ := exists_of_mapM_eq_error h
    split at hpart
    · cases hpart
    · cases hpart

variable {input : UnitInput} {kind : UnitKind} {c ns name : String} {modules : List String} {e : UnitError}

theorem names_preprocessed (h : namespacePath ns = .ok modules) : names (.preprocessed c ns) = .ok (c, modules) := by
  simp only [names, h, Except.map]

theorem generate_of_invalid (h : names kind = .ok (c, modules)) (hc : ¬ Identifier.isValid c) :
    generate input kind = .error (.className c) := by
  simp only [generate, h, if_neg hc]

theorem generate_of_namespacePath_error (h : namespacePath ns = .error e) :
    generate input (.preprocessed c ns) = .error e := by
  simp only [generate, names, h, Except.map]

/-- A module is made just if its place and its name are in order. -/
theorem generate_preprocessed_iff : (∃ u, generate input (.preprocessed c ns) = .ok u) ↔
    (∃ modules, namespacePath ns = .ok modules) ∧ Identifier.isValid c := by
  cases hns : namespacePath ns with
  | error e =>
    rw [generate_of_namespacePath_error hns]
    simp
  | ok modules =>
    have hnames := names_preprocessed (c := c) hns
    by_cases hc : Identifier.isValid c
    · exact iff_of_true ⟨_, generate_of_names hnames hc⟩ ⟨⟨_, rfl⟩, hc⟩
    · rw [generate_of_invalid hnames hc]
      simp [hc]

/-- Its name is refused just if nothing else is out of order. -/
theorem generate_className_iff : generate input (.preprocessed c ns) = .error (.className name) ↔
    name = c ∧ (∃ modules, namespacePath ns = .ok modules) ∧ ¬ Identifier.isValid c := by
  cases hns : namespacePath ns with
  | error e =>
    have hne : e ≠ .className name := fun he => namespacePath_ne_className ns name (he ▸ hns)
    rw [generate_of_namespacePath_error hns]
    simp [hne]
  | ok modules =>
    have hnames := names_preprocessed (c := c) hns
    by_cases hc : Identifier.isValid c
    · rw [generate_of_names hnames hc]
      simp [hc]
    · rw [generate_of_invalid hnames hc]
      simp [hc, eq_comm]

end GeneratedUnit

/-! ## Calls of a generator -/

theorem Text.head?_append {a : String} {c : Char} (h : a.toList.head? = some c) (b : String) :
    (a ++ b).toList.head? = some c := by
  rw [String.toList_append, List.head?_append, h, Option.some_or]

/-- A message tells a refused name from a refused module by its first letter. -/
theorem Failure.head_ofUnit (e : UnitError) :
    (ofUnit e).message.toList.head? = some 'c' ↔ ∃ name, e = .className name := by
  cases e with
  | className name =>
    have hhead : "class name '".toList.head? = some 'c' := by decide
    exact iff_of_true (Text.head?_append (Text.head?_append hhead _) _) ⟨name, rfl⟩
  | namespaceSegment part =>
    have hhead : "Code generation error: ".toList.head? = some 'C' := by decide
    have hother : (ofUnit (.namespaceSegment part)).message.toList.head? = some 'C' := Text.head?_append hhead _
    rw [hother]
    exact iff_of_false (by decide) (by rintro ⟨name, hname⟩; cases hname)

namespace Engine

theorem unitDiagnostic_className_iff {file : Option String} {e : UnitError} :
    (∃ name, unitDiagnostic file e = unitDiagnostic file (.className name)) ↔ ∃ name, e = .className name := by
  constructor
  · rintro ⟨name, h⟩
    have hmessage := congrArg (fun d => d.message.toList) h
    simp only [unitDiagnostic, Diagnostic.error, String.toList_append, List.append_cancel_left_eq] at hmessage
    rw [← Failure.head_ofUnit, hmessage, Failure.head_ofUnit]
    exact ⟨name, rfl⟩
  · rintro ⟨name, rfl⟩
    exact ⟨name, rfl⟩

variable {files : FileTree} {host : Host} {text : String} {kind : UnitKind}

/-- Preparing ends with a refused name just if it comes to the unit and the unit's name is refused. -/
theorem prepare_refuses_iff : ((prepare files host text kind).failedStage? = some .codeGenerating ∧
      ∃ name, (prepare files host text kind).diagnostics.getLast? =
        some (unitDiagnostic host.templateFile (.className name))) ↔
    ¬ (earlyReport files host text).hasErrors ∧ ∃ name, generated files host text kind = .error (.className name) := by
  have hprepares := prepare_prepares files host text kind
  generalize prepare files host text kind = prepared at hprepares ⊢
  cases hprepares with
  | unread herrors =>
    have hstage : parseStage (parsed files host text).errors ≠ .codeGenerating := by
      unfold parseStage
      split <;> decide
    refine iff_of_false (fun h => hstage (Option.some.inj h.1)) fun h => ?_
    exact ((not_hasErrors_earlyReport files host text).1 h.1).1 herrors
  | rejected hparsed herrors =>
    refine iff_of_false (by rintro ⟨hstage, -⟩; cases hstage) fun h => ?_
    obtain ⟨-, hsettings, hrouting⟩ := (not_hasErrors_earlyReport files host text).1 h.1
    rw [Diagnostics.hasErrors_append, Bool.or_eq_true] at herrors
    exact herrors.elim hsettings hrouting
  | @ungenerated e hclear he =>
    rw [he]
    simp only [RunResult.failedStage?, List.getLast?_concat, Option.some.injEq, true_and, Except.error.injEq,
      unitDiagnostic_className_iff]
    exact (and_iff_right hclear).symm
  | ready hclear hunit =>
    rw [hunit]
    exact iff_of_false (by rintro ⟨hstage, -⟩; cases hstage) (by rintro ⟨-, name, hunit⟩; cases hunit)

end Engine

namespace Generation

/-- The last thing that is reported is that the class could not be called so. -/
def NameRefused (w : Generation) : Prop :=
  w.generator.failedStage = some .codeGenerating ∧
    ∃ name, w.generator.errors.getLast? = some (Engine.unitDiagnostic w.generator.templateFile (.className name))

/-- The template is read, and nothing in it is an error before its unit is made. -/
def ReachesUnit (w : Generation) (template : Path) : Prop :=
  ∃ text, (w.start template).1 = some text ∧
    ¬ (Engine.earlyReport w.files ((w.start template).2.generator.host w.files) text).hasErrors

variable {w : Generation} {input template target staging : Path} {output : Option Path} {text c ns : String}

/-- How far the module of a template that was read comes. -/
def prepared (w : Generation) (text c ns : String) : RunResult Preparation :=
  Engine.prepare w.files (w.generator.host w.files) text (.preprocessed c ns)

theorem absorb_moduleRun (herrors : w.generator.errors = []) : (w.absorb (w.moduleRun text c ns)).2 =
    { w with generator := { w.generator with
      errors := (w.prepared text c ns).diagnostics
      failedStage := (w.prepared text c ns).failedStage? } } := by
  unfold absorb moduleRun Engine.preprocess prepared
  generalize Engine.prepare _ _ _ _ = prepared
  obtain ⟨_ | p, ds⟩ := prepared <;>
    simp [Generator.observe, Generator.log, herrors, RunResult.failedStage?, Except.map]

/-- There is no module if a stage failed. -/
theorem outcome_moduleRun (h : (w.prepared text c ns).failedStage? ≠ none) :
    (w.absorb (w.moduleRun text c ns)).1 = .value none := by
  unfold absorb moduleRun Engine.preprocess
  unfold prepared at h
  generalize Engine.prepare _ _ _ _ = prepared at h ⊢
  obtain ⟨_ | p, ds⟩ := prepared
  · exact congrArg Outcome.value (ite_self none)
  · exact absurd rfl h

theorem failedStage_settleModule (x : Outcome (Option PreprocessedTemplate) × Generation) :
    (settleModule target x).2.generator.failedStage = x.2.generator.failedStage := by
  obtain ⟨(_ | m) | _, w'⟩ := x
  · rfl
  · unfold settleModule writeOutput
    dsimp only
    split <;> rfl
  · rfl

theorem failedStage_preprocess (hread : (w.start input).1 = some text) :
    (w.preprocess input c ns output).2.generator.failedStage =
      ((w.start input).2.prepared text c ns).failedStage? := by
  rw [preprocess_of_read hread, failedStage_settleModule, absorb_moduleRun (start_of_some hread)]

theorem preprocess_of_failed (hread : (w.start input).1 = some text)
    (h : ((w.start input).2.prepared text c ns).failedStage? ≠ none) : w.preprocess input c ns output =
      (.value false, ((w.start input).2.absorb ((w.start input).2.moduleRun text c ns)).2) := by
  rw [preprocess_of_read hread, ← Prod.mk.eta (p := absorb _ _), outcome_moduleRun h]
  rfl

/-- A failed stage leaves nothing to write. -/
theorem outcome_preprocess (h : (w.preprocess input c ns output).2.generator.failedStage ≠ none) :
    (w.preprocess input c ns output).1 = .value false := by
  cases hread : (w.start input).1 with
  | none => rw [preprocess_of_unread hread]
  | some text =>
    rw [failedStage_preprocess hread] at h
    rw [preprocess_of_failed hread h]

theorem failedStage_start (h : (w.start input).1 = none) :
    (w.start input).2.generator.failedStage = some .tokenizing := by
  unfold start at h ⊢
  dsimp only at h ⊢
  split at h
  · cases h
  · rfl

theorem NameRefused.failed (h : w.NameRefused) : w.generator.failedStage ≠ none := by
  rw [h.1]
  exact Option.some_ne_none _

/-- The name of a template that was read is refused just if that of its unit is. -/
theorem preprocess_refused_of_read (hread : (w.start input).1 = some text) :
    NameRefused (w.preprocess input c ns output).2 ↔
      ¬ (Engine.earlyReport w.files ((w.start input).2.generator.host w.files) text).hasErrors ∧
        ∃ name, Engine.generated w.files ((w.start input).2.generator.host w.files) text (.preprocessed c ns) =
          .error (.className name) := by
  have habsorbed : ((w.start input).2.absorb ((w.start input).2.moduleRun text c ns)).2 = _ :=
    absorb_moduleRun (start_of_some hread)
  have hstage : (w.preprocess input c ns output).2.generator.failedStage = _ := failedStage_preprocess hread
  rw [← files_start w input]
  refine Iff.trans ⟨fun h => ?_, fun h => ?_⟩ Engine.prepare_refuses_iff
  · rw [preprocess_of_failed hread (hstage ▸ h.failed), habsorbed] at h
    exact h
  · have hfailed : ((w.start input).2.prepared text c ns).failedStage? ≠ none := fun hnone =>
      Option.some_ne_none _ (h.1.symm.trans hnone)
    rw [preprocess_of_failed hread hfailed, habsorbed]
    exact h

theorem preprocess_refused_iff : NameRefused (w.preprocess input c ns output).2 ↔
    w.ReachesUnit input ∧ (∃ modules, GeneratedUnit.namespacePath ns = .ok modules) ∧ ¬ Identifier.isValid c := by
  unfold ReachesUnit
  cases hread : (w.start input).1 with
  | none =>
    rw [preprocess_of_unread hread]
    refine iff_of_false (fun h => ?_) (by simp)
    cases (failedStage_start hread).symm.trans h.1
  | some text =>
    simp only [preprocess_refused_of_read hread, Option.some.injEq, exists_eq_left', Engine.generated,
      GeneratedUnit.generate_className_iff, exists_eq_left]

/-! ## Runs -/

theorem failedStage_deliver (w : Generation) (staged target : Path) :
    (w.deliver staged target).2.generator.failedStage = w.generator.failedStage := by
  unfold deliver
  dsimp only
  split
  · rfl
  · split
    · rfl
    · split <;> rfl

/-- A run for a module refuses the name where preprocessing does, and says that the compilation failed. -/
theorem runTextGenerator_refused (w : Generation) (staging template : Path) (o : TemplateOptions) :
    (NameRefused (w.runTextGenerator staging template o).2 ↔
      w.ReachesUnit template ∧ ¬ Identifier.isValid (ClassName.ofTemplate template)) ∧
    (NameRefused (w.runTextGenerator staging template o).2 →
      (w.runTextGenerator staging template o).1 = .value .compilationError) := by
  have hplain : GeneratedUnit.namespacePath "" = .ok [] := by decide
  unfold runTextGenerator
  dsimp only
  generalize staging.join ⟨stagedStem template ++ "." ++ sourceExtension⟩ = staged
  have hrefused : NameRefused (w.preprocess template (ClassName.ofTemplate template) "" (some staged)).2 ↔ _ :=
    preprocess_refused_iff
  have houtcome : (w.preprocess template (ClassName.ofTemplate template) "" (some staged)).2.generator.failedStage ≠
    none → _ := outcome_preprocess
  simp only [hplain, Except.ok.injEq, exists_eq', true_and] at hrefused
  rw [← hrefused]
  generalize w.preprocess template _ _ _ = preprocessed at houtcome ⊢
  obtain ⟨(_ | _) | _, w'⟩ := preprocessed
  · exact ⟨Iff.rfl, fun _ => rfl⟩
  · have hwritten : w'.generator.failedStage = none := by
      by_contra h
      cases houtcome h
    have hdelivered : ∀ goal, ¬ NameRefused (w'.deliver staged goal).2 := fun goal h =>
      h.failed ((failedStage_deliver ..).trans hwritten)
    exact ⟨iff_of_false (hdelivered _) fun h => h.failed hwritten, fun h => absurd h (hdelivered _)⟩
  · refine ⟨Iff.rfl, fun h => ?_⟩
    cases houtcome h.failed

theorem run_refused {compiler : Compiler} {fresh : Except FileError Unit}
    (hkind : (TemplateOptions.loadOrDefault w.files template).outputKind = .textGenerator) :
    (NameRefused (w.run compiler staging template fresh).2 ↔
      (∃ made, w.files.makeDirectory staging = .ok made ∧ ReachesUnit ⟨w.generator, made⟩ template) ∧
        ¬ Identifier.isValid (ClassName.ofTemplate template)) ∧
    (NameRefused (w.run compiler staging template fresh).2 →
      (w.run compiler staging template fresh).1 = .value .compilationError) := by
  unfold run
  dsimp only
  cases w.files.makeDirectory staging with
  | error e =>
    -- without a staging directory that is the last report, whatever an earlier call left behind
    have hother : ∀ d : Diagnostic, d.code = "TT5002" → ¬ NameRefused (w.report d) := by
      rintro d hd ⟨-, name, h⟩
      have hlast : (w.report d).generator.errors.getLast? = some d := List.getLast?_concat
      rw [hlast] at h
      rw [Option.some.inj h] at hd
      have hcode : "TT3003" = "TT5002" := hd
      exact absurd hcode (by decide)
    refine ⟨iff_of_false (hother _ rfl) (by simp), fun h => absurd h (hother _ rfl)⟩
  | ok made =>
    obtain ⟨hrefused, hstatus⟩ := runTextGenerator_refused ⟨w.generator, made⟩ staging template
      (TemplateOptions.loadOrDefault w.files template)
    simp only [Except.ok.injEq, exists_eq_left']
    unfold runStaged
    rw [hkind]
    unfold NameRefused at hrefused hstatus ⊢
    dsimp only at hrefused hstatus ⊢
    rw [generator_unstage]
    exact ⟨hrefused, hstatus⟩

/-- A module that is not written leaves the files as they are. -/
theorem files_preprocess (h : (w.preprocess input c ns output).1 = .value false) :
    (w.preprocess input c ns output).2.files = w.files := by
  have hgoal : w.preprocess input c ns output =
    w.preprocess input c ns (some (output.getD (input.withPlainExtension sourceExtension))) := rfl
  rw [hgoal] at h ⊢
  rcases preprocess_files rfl with ⟨htrue, -⟩ | ⟨-, hsame⟩
  · cases h.symm.trans htrue
  · exact hsame

/-- The command tells why it fails, and changes no file. -/
theorem command_of_refused {files : FileTree} {t : CommandLine.Task} (hname : t.arguments.className = none)
    (hrefused : NameRefused (preprocess ⟨t.generator, files⟩ t.target (ClassName.ofTemplate t.target)
      (t.arguments.namespace_.getD "") t.arguments.output).2) :
    ∃ g, NameRefused ⟨g, files⟩ ∧
      CommandLine.preprocess files t = (.value (({} : CommandResult).complain g.errors.render).fail, files) := by
  have hfalse := outcome_preprocess hrefused.failed
  have hfiles := files_preprocess hfalse
  unfold CommandLine.preprocess
  dsimp only
  rw [hname, Option.getD_none]
  generalize preprocess _ _ _ _ _ = preprocessed at hrefused hfalse hfiles ⊢
  obtain ⟨_, g, _⟩ := preprocessed
  subst hfalse hfiles
  exact ⟨g, hrefused, rfl⟩

/-- **A default name is refused for the word self alone.** A module is made under the name of its template just if
its place is in order and the stem of the template is not the word self, up to the capital and to what stands around
it. A generator that preprocesses the template refuses the name just if the template reaches its unit and the stem is
that word. So does a run for a module, and the command without a name for the class; they end with this failure. -/
theorem default_name_refused_iff (template : Path) :
    (∀ (input : UnitInput) (ns : String),
      ((∃ u, GeneratedUnit.generate input (.preprocessed (ClassName.ofTemplate template) ns) = .ok u) ↔
        (∃ modules, GeneratedUnit.namespacePath ns = .ok modules) ∧
          ¬ ClassName.SelfNamed (template.stem?.getD "")) ∧
      ∀ name, GeneratedUnit.generate input (.preprocessed (ClassName.ofTemplate template) ns) =
          .error (.className name) ↔
        name = "Self" ∧ (∃ modules, GeneratedUnit.namespacePath ns = .ok modules) ∧
          ClassName.SelfNamed (template.stem?.getD "")) ∧
    (∀ (w : Generation) (ns : String) (output : Option Path),
      NameRefused (w.preprocess template (ClassName.ofTemplate template) ns output).2 ↔
        w.ReachesUnit template ∧ (∃ modules, GeneratedUnit.namespacePath ns = .ok modules) ∧
          ClassName.SelfNamed (template.stem?.getD "")) ∧
    (∀ (w : Generation) (compiler : Compiler) (staging : Path) (fresh : Except FileError Unit),
      (TemplateOptions.loadOrDefault w.files template).outputKind = .textGenerator →
      (NameRefused (w.run compiler staging template fresh).2 ↔
        (∃ made, w.files.makeDirectory staging = .ok made ∧ ReachesUnit ⟨w.generator, made⟩ template) ∧
          ClassName.SelfNamed (template.stem?.getD "")) ∧
      (NameRefused (w.run compiler staging template fresh).2 →
        (w.run compiler staging template fresh).1 = .value .compilationError)) ∧
    ∀ (files : FileTree) (t : CommandLine.Task), t.target = template → t.arguments.className = none →
      ReachesUnit ⟨t.generator, files⟩ template →
      (∃ modules, GeneratedUnit.namespacePath (t.arguments.namespace_.getD "") = .ok modules) →
      ClassName.SelfNamed (template.stem?.getD "") →
      ∃ g, NameRefused ⟨g, files⟩ ∧
        CommandLine.preprocess files t = (.value (({} : CommandResult).complain g.errors.render).fail, files) := by
  have hvalid : Identifier.isValid (ClassName.ofTemplate template) ↔ _ := ClassName.isValid_ofStem_iff _
  have hinvalid := not_iff_not.2 hvalid
  rw [not_not] at hinvalid
  refine ⟨fun input ns => ⟨?_, fun name => ?_⟩, fun w ns output => ?_, fun w compiler staging fresh hkind => ?_, ?_⟩
  · rw [GeneratedUnit.generate_preprocessed_iff, hvalid]
  · rw [GeneratedUnit.generate_className_iff, hinvalid]
    refine and_congr_left fun h => ?_
    rw [ClassName.ofTemplate, ClassName.ofStem_of_selfNamed h.2]
  · rw [preprocess_refused_iff, hinvalid]
  · rw [← hinvalid]
    exact run_refused hkind
  · rintro files t rfl hname hreaches hplace hself
    exact command_of_refused hname (preprocess_refused_iff.2 ⟨hreaches, hplace, hinvalid.2 hself⟩)

def moduleOptions : String := "\x7b\"outputType\": \"TextGenerator\"\x7d"

/-- A template that is called self and is run for its module. -/
def selfCalled : Generation :=
  { generator := {}
    files := { entries := [(["self.tt"], .file "x".toUTF8 0),
      (["self.tt.settings.json"], .file moduleOptions.toUTF8 0)] } }

theorem outputKind_selfCalled :
    (TemplateOptions.loadOrDefault selfCalled.files ⟨"/self.tt"⟩).outputKind = .textGenerator := by
  have hfile : selfCalled.files.isFile (TemplateOptions.sidecar ⟨"/self.tt"⟩) := rfl
  have hread : selfCalled.files.read (TemplateOptions.sidecar ⟨"/self.tt"⟩) = .ok moduleOptions.toUTF8 := rfl
  have hoptions : (Document.Json.read? moduleOptions).bind TemplateOptions.ofDocument? =
      some { outputKind := .textGenerator } := by cbv
  simp only [TemplateOptions.loadOrDefault, TemplateOptions.load, hfile, FileTree.readText, hread,
    Text.decode_toUTF8, hoptions, if_true]

theorem reachesUnit_selfCalled {files : FileTree} (hread : files.read ⟨"/self.tt"⟩ = .ok "x".toUTF8) :
    ReachesUnit ⟨selfCalled.generator, files⟩ ⟨"/self.tt"⟩ := by
  have hclear (files : FileTree) (host : Host) : Engine.earlyReport files host "x" = [] := by cbv
  have hstart := start_of_read (w := ⟨selfCalled.generator, files⟩) (FileTree.readTemplate_of_read hread rfl)
  refine ⟨"x", by rw [hstart], ?_⟩
  rw [hclear]
  decide

theorem default_name_refused_iff_selfCalled :
    NameRefused (selfCalled.preprocess ⟨"/self.tt"⟩ (ClassName.ofTemplate ⟨"/self.tt"⟩) "" none).2 ∧
    NameRefused (selfCalled.run .writing ⟨"/stage"⟩ ⟨"/self.tt"⟩).2 ∧
    (selfCalled.run .writing ⟨"/stage"⟩ ⟨"/self.tt"⟩).1 = .value .compilationError := by
  obtain ⟨-, hpreprocess, hrun, -⟩ := default_name_refused_iff ⟨"/self.tt"⟩
  have hstem : (Path.mk "/self.tt").stem?.getD "" = "self" := by cbv
  have hself : ClassName.SelfNamed ((Path.mk "/self.tt").stem?.getD "") := by
    rw [hstem]
    exact ⟨[], _, [], rfl, .inl rfl, by simp⟩
  have hmade : selfCalled.files.makeDirectory ⟨"/stage"⟩ = .ok _ := rfl
  obtain ⟨hrefused, hstatus⟩ := hrun selfCalled .writing ⟨"/stage"⟩ (.ok ()) outputKind_selfCalled
  have hdone := hrefused.2 ⟨⟨_, hmade, reachesUnit_selfCalled rfl⟩, hself⟩
  have hplace : GeneratedUnit.namespacePath "" = .ok [] := by decide
  exact ⟨(hpreprocess selfCalled "" none).2 ⟨reachesUnit_selfCalled rfl, ⟨[], hplace⟩, hself⟩, hdone, hstatus hdone⟩

end Generation

end Templating
