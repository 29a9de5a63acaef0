import Templating.Proofs.Forgetting
import Templating.Proofs.Staging

/-!
# What a run delivers

A run works in a directory of its own and brings what it has made to its target. Where it does not stage
anything it changes no file but the target, and that only if it succeeds, unless the copying is broken off
with the target open. What it stages is in its own directory, except under a stem that is a dot.
-/

namespace Templating

namespace Generation

variable {w w' : Generation} {compiler : Compiler} {input staging staged template goal : Path}
  {output : Option Path} {o : TemplateOptions} {fresh : Except FileError Unit} {fault : Option WriteFault}
  {faults : RunFaults} {asked : Option String} {files files' : FileTree} {bytes : ByteArray}

/-! ## What is brought to the target -/

/-- A run of the engine gives this value, and the generator takes it over without an error. -/
structure Gives {α : Type} (w : Generation) (run : EngineRun α) (a : α) (g : Generator) : Prop where
  outcome : ∃ ds, run.outcome = .value ⟨.ok a, ds⟩
  absorbed : w.absorb run = (.value (some a), ⟨g, w.files⟩)

/-- What a run of a template makes: the encoded text that the module gave, or the source of a module. -/
inductive Output (w : Generation) (compiler : Compiler) (fresh : Except FileError Unit) (template : Path) :
    OutputKind → Generator → ByteArray → Prop
  | text {text out : String} {g : Generator} : (w.start template).1 = some text →
      Gives (w.start template).2 ((w.start template).2.engineRun compiler fresh text) out g →
      (∀ ext ∈ g.extension, '/' ∉ ext.toList) →
      Output w compiler fresh template .text g (g.encoding.encode out)
  | source {text : String} {m : PreprocessedTemplate} {g : Generator} : (w.start template).1 = some text →
      Gives (w.start template).2 ((w.start template).2.moduleRun text (ClassName.ofTemplate template) "") m g →
      Output w compiler fresh template .textGenerator g m.source.toUTF8

theorem files_start (w : Generation) (input : Path) : (w.start input).2.files = w.files := by
  unfold start
  dsimp only
  split <;> rfl

theorem files_absorb {α : Type} (w : Generation) (run : EngineRun α) : (w.absorb run).2.files = w.files := by
  unfold absorb
  dsimp only
  split <;> rfl

theorem gives_of_absorb {α : Type} {run : EngineRun α} {a : α} (h : (w.absorb run).1 = .value (some a)) :
    Gives w run a (w.absorb run).2.generator := by
  refine ⟨?_, Prod.ext h (congrArg (Generation.mk _) (files_absorb w run))⟩
  unfold absorb at h
  dsimp only at h
  split at h
  · cases h
  · rename_i r hr
    have hvalue := Outcome.value.inj h
    split at hvalue
    · cases hvalue
    · obtain ⟨result, ds⟩ := r
      cases result with
      | error stage => cases hvalue
      | ok b =>
        obtain rfl := Option.some.inj hvalue
        exact ⟨ds, hr⟩

theorem writeOutput_cases (w : Generation) (goal : Path) (bytes : ByteArray) (fault : Option WriteFault) :
    (∃ files, w.files.write goal bytes = .ok files ∧ w.writeOutput goal bytes fault =
      (true, { generator := { w.generator with outputFile := some goal }, files })) ∨
    ((w.writeOutput goal bytes fault).1 = false ∧
      (w.writeOutput goal bytes fault).2.generator.extension = w.generator.extension ∧
      ((w.writeOutput goal bytes fault).2.files = w.files ∨
        ∃ m, w.files.BreaksOff goal bytes fault m (w.writeOutput goal bytes fault).2.files)) := by
  unfold writeOutput
  cases hwritten : w.files.write goal bytes fault with
  | ok files =>
    obtain rfl := FileTree.fault_of_write hwritten
    exact .inl ⟨files, hwritten, rfl⟩
  | error e => exact .inr ⟨rfl, rfl, FileTree.breaksOff_of_write hwritten⟩

/-- What the engine gave is written, or no file is touched, unless the writing is broken off. -/
theorem settle_cases {x : Outcome (Option String) × Generation} {y : Outcome Bool}
    (h : settle input output x fault = (y, w')) :
    (y = .value true ∧ ∃ out goal files, x.1 = .value (some out) ∧
      outputPath? x.2.generator input output = some goal ∧
      x.2.files.write goal (x.2.generator.encoding.encode out) = .ok files ∧
      w' = { generator := { x.2.generator with outputFile := some goal }, files }) ∨
    (y ≠ .value true ∧ (w'.files = x.2.files ∨ ∃ goal bytes m,
      outputPath? w'.generator input output = some goal ∧ x.2.files.BreaksOff goal bytes fault m w'.files)) := by
  obtain ⟨(_ | out) | _, w₁⟩ := x
  · obtain ⟨rfl, rfl⟩ := Prod.mk.inj h
    exact .inr ⟨nofun, .inl rfl⟩
  · unfold settle at h
    dsimp only at h
    split at h
    · obtain ⟨rfl, rfl⟩ := Prod.mk.inj h
      exact .inr ⟨nofun, .inl rfl⟩
    · rename_i goal hgoal
      rcases w₁.writeOutput_cases goal (w₁.generator.encoding.encode out) fault with
        ⟨files, hwritten, he⟩ | ⟨hfailed, hext, hleft⟩
      · rw [he] at h
        obtain ⟨rfl, rfl⟩ := Prod.mk.inj h
        exact .inl ⟨rfl, out, goal, files, rfl, hgoal, hwritten, rfl⟩
      · rw [hfailed] at h
        obtain ⟨rfl, rfl⟩ := Prod.mk.inj h
        refine .inr ⟨nofun, hleft.imp_right ?_⟩
        rintro ⟨m, hm⟩
        exact ⟨goal, _, m, (outputPath?_congr hext _ _).trans hgoal, hm⟩
  · obtain ⟨rfl, rfl⟩ := Prod.mk.inj h
    exact .inr ⟨nofun, .inl rfl⟩

theorem settleModule_cases {x : Outcome (Option PreprocessedTemplate) × Generation} {y : Outcome Bool}
    (h : settleModule goal x fault = (y, w')) :
    (y = .value true ∧ ∃ m files, x.1 = .value (some m) ∧
      x.2.files.write goal m.source.toUTF8 = .ok files ∧
      w' = { generator := { x.2.generator with outputFile := some goal }, files }) ∨
    (y ≠ .value true ∧ (w'.files = x.2.files ∨ ∃ bytes m, x.2.files.BreaksOff goal bytes fault m w'.files)) := by
  obtain ⟨(_ | m) | _, w₁⟩ := x
  · obtain ⟨rfl, rfl⟩ := Prod.mk.inj h
    exact .inr ⟨nofun, .inl rfl⟩
  · unfold settleModule at h
    dsimp only at h
    rcases w₁.writeOutput_cases goal m.source.toUTF8 fault with ⟨files, hwritten, he⟩ | ⟨hfailed, -, hleft⟩
    · rw [he] at h
      obtain ⟨rfl, rfl⟩ := Prod.mk.inj h
      exact .inl ⟨rfl, m, files, rfl, hwritten, rfl⟩
    · rw [hfailed] at h
      obtain ⟨rfl, rfl⟩ := Prod.mk.inj h
      exact .inr ⟨nofun, hleft.imp_right fun ⟨m, hm⟩ => ⟨_, m, hm⟩⟩
  · obtain ⟨rfl, rfl⟩ := Prod.mk.inj h
    exact .inr ⟨nofun, .inl rfl⟩

/-- A template that is processed is written, or no file is touched, unless the writing is broken off. -/
theorem process_leaves {x : Outcome Bool} (h : w.process compiler input output fresh fault = (x, w')) :
    (x = .value true ∧ ∃ text out g goal, (w.start input).1 = some text ∧
      Gives (w.start input).2 ((w.start input).2.engineRun compiler fresh text) out g ∧
      outputPath? g input output = some goal ∧ w'.generator = { g with outputFile := some goal } ∧
      w.files.write goal (g.encoding.encode out) = .ok w'.files) ∨
    (x ≠ .value true ∧ (w'.files = w.files ∨ ∃ goal bytes m,
      outputPath? w'.generator input output = some goal ∧ w.files.BreaksOff goal bytes fault m w'.files)) := by
  cases hread : (w.start input).1 with
  | none =>
    rw [process_of_unread hread] at h
    obtain ⟨rfl, rfl⟩ := Prod.mk.inj h
    exact .inr ⟨nofun, .inl (files_start w input)⟩
  | some text =>
    rw [process_of_read hread] at h
    have hfiles := files_absorb (w.start input).2 ((w.start input).2.engineRun compiler fresh text)
    rw [files_start] at hfiles
    rcases settle_cases h with ⟨rfl, out, goal, files, hout, hgoal, hwritten, rfl⟩ | ⟨hfailed, hleft⟩
    · rw [hfiles] at hwritten
      exact .inl ⟨rfl, text, out, _, goal, rfl, gives_of_absorb hout, hgoal, rfl, hwritten⟩
    · rw [hfiles] at hleft
      exact .inr ⟨hfailed, hleft⟩

theorem process_files {x : Outcome Bool} (h : w.process compiler input output fresh = (x, w')) :
    (x = .value true ∧ ∃ text out g goal, (w.start input).1 = some text ∧
      Gives (w.start input).2 ((w.start input).2.engineRun compiler fresh text) out g ∧
      outputPath? g input output = some goal ∧ w'.generator = { g with outputFile := some goal } ∧
      w.files.write goal (g.encoding.encode out) = .ok w'.files) ∨
    (x ≠ .value true ∧ w'.files = w.files) := by
  refine (process_leaves h).imp_right fun ⟨hfailed, hleft⟩ => ⟨hfailed, hleft.resolve_right ?_⟩
  rintro ⟨goal, bytes, m, -, hm⟩
  exact FileTree.not_breaksOff hm

theorem preprocess_leaves {className namespace_ : String} {x : Outcome Bool}
    (h : w.preprocess input className namespace_ (some goal) fault = (x, w')) :
    (x = .value true ∧ ∃ text m g, (w.start input).1 = some text ∧
      Gives (w.start input).2 ((w.start input).2.moduleRun text className namespace_) m g ∧
      w'.generator = { g with outputFile := some goal } ∧
      w.files.write goal m.source.toUTF8 = .ok w'.files) ∨
    (x ≠ .value true ∧ (w'.files = w.files ∨ ∃ bytes m, w.files.BreaksOff goal bytes fault m w'.files)) := by
  cases hread : (w.start input).1 with
  | none =>
    rw [preprocess_of_unread hread] at h
    obtain ⟨rfl, rfl⟩ := Prod.mk.inj h
    exact .inr ⟨nofun, .inl (files_start w input)⟩
  | some text =>
    rw [preprocess_of_read hread, Option.getD_some] at h
    have hfiles := files_absorb (w.start input).2 ((w.start input).2.moduleRun text className namespace_)
    rw [files_start] at hfiles
    rcases settleModule_cases h with ⟨rfl, m, files, hm, hwritten, rfl⟩ | ⟨hfailed, hleft⟩
    · rw [hfiles] at hwritten
      exact .inl ⟨rfl, text, m, _, rfl, gives_of_absorb hm, rfl, hwritten⟩
    · rw [hfiles] at hleft
      exact .inr ⟨hfailed, hleft⟩

theorem preprocess_files {className namespace_ : String} {x : Outcome Bool}
    (h : w.preprocess input className namespace_ (some goal) = (x, w')) :
    (x = .value true ∧ ∃ text m g, (w.start input).1 = some text ∧
      Gives (w.start input).2 ((w.start input).2.moduleRun text className namespace_) m g ∧
      w'.generator = { g with outputFile := some goal } ∧
      w.files.write goal m.source.toUTF8 = .ok w'.files) ∨
    (x ≠ .value true ∧ w'.files = w.files) := by
  refine (preprocess_leaves h).imp_right fun ⟨hfailed, hleft⟩ => ⟨hfailed, hleft.resolve_right ?_⟩
  rintro ⟨bytes, m, hm⟩
  exact FileTree.not_breaksOff hm

/-! ## Delivering -/

/-- What comes of a staged file. -/
inductive Delivers (w : Generation) (staged goal : Path) (fault : Option WriteFault) :
    RunStatus × Generation → Prop
  | unchanged {w' : Generation} {old new : ByteArray} :
      w'.generator = { w.generator with outputFile := some goal } → w'.files = w.files →
      w.files.read goal = .ok old → w.files.read staged = .ok new →
      Digest.ofBytes old = Digest.ofBytes new → Delivers w staged goal fault (.noChanges, w')
  | refused {w' : Generation} : w'.generator.extension = w.generator.extension →
      w.files.Makes w'.files → Delivers w staged goal fault (.processingError, w')
  | broken {w' : Generation} {made : FileTree} {bytes : ByteArray} {m : List String} :
      w'.generator.extension = w.generator.extension → w.files.Makes made → made.read staged = .ok bytes →
      made.BreaksOff goal bytes fault m w'.files → Delivers w staged goal fault (.processingError, w')
  | written {w' : Generation} {made : FileTree} {bytes : ByteArray} :
      w'.generator = { w.generator with outputFile := some goal } → w.files.Makes made →
      made.read staged = .ok bytes → made.write goal bytes = .ok w'.files →
      Delivers w staged goal fault (.success, w')

theorem sameContent_iff {files : FileTree} {p q : Path} : sameContent files p q ↔
    ∃ a b, files.read p = .ok a ∧ files.read q = .ok b ∧ Digest.ofBytes a = Digest.ofBytes b := by
  unfold sameContent digest?
  cases files.read p with
  | error e => simp [Except.toOption]
  | ok a =>
    cases files.read q with
    | error e => simp [Except.toOption]
    | ok b => simpa [Except.toOption] using eq_comm

theorem read_of_copy {p q : Path} (h : files.copy p q fault = .ok files') :
    ∃ bytes, files.read p = .ok bytes ∧ files.write q bytes = .ok files' := by
  unfold FileTree.copy at h
  split at h
  · rename_i bytes hbytes
    obtain rfl := FileTree.fault_of_write h
    exact ⟨bytes, hbytes, h⟩
  · cases h
  · cases h

theorem breaksOff_of_copy {p q : Path} {e : FailedWrite} (h : files.copy p q fault = .error e) :
    e.files = files ∨ ∃ bytes m, files.read p = .ok bytes ∧ files.BreaksOff q bytes fault m e.files := by
  unfold FileTree.copy at h
  split at h
  · rename_i bytes hbytes
    refine (FileTree.breaksOff_of_write h).imp_right ?_
    rintro ⟨m, hm⟩
    exact ⟨bytes, m, hbytes, hm⟩
  · exact .inl (congrArg FailedWrite.files (Except.error.inj h)).symm
  · exact .inl (congrArg FailedWrite.files (Except.error.inj h)).symm

/-- Files with the directory of a path, as far as it can be made. -/
def withParent (files : FileTree) (goal : Path) : FileTree × Option FileError :=
  match goal.parent? with
  | some dir => if dir.text.isEmpty then (files, none) else files.makeDirectories dir
  | none => (files, none)

theorem makes_withParent (files : FileTree) (goal : Path) : files.Makes (withParent files goal).1 := by
  unfold withParent
  split
  · split
    · exact .refl _
    · exact FileTree.makes_makeDirectories _ _
  · exact .refl _

theorem deliver_delivers (w : Generation) (staged goal : Path) (fault : Option WriteFault) :
    Delivers w staged goal fault (w.deliver staged goal fault) := by
  unfold deliver
  dsimp only
  split
  · rename_i hsame
    obtain ⟨old, new, hold, hnew, hdigest⟩ := sameContent_iff.1 hsame
    exact .unchanged rfl rfl hold hnew hdigest
  · have hmakes : w.files.Makes (withParent w.files goal).1 := makes_withParent w.files goal
    split
    · exact .refused rfl hmakes
    · split
      · rename_i files hcopied
        obtain ⟨bytes, hread, hwritten⟩ := read_of_copy hcopied
        exact .written rfl hmakes hread hwritten
      · rename_i e hcopied
        rcases breaksOff_of_copy hcopied with hsame | ⟨bytes, m, hread, hm⟩
        · refine .refused rfl ?_
          show w.files.Makes e.files
          rw [hsame]
          exact hmakes
        · exact .broken rfl hmakes hread hm

/-! ## In the staging directory -/

/-- What comes of the work in a staging directory: nothing, a part of a file, or one that is delivered. -/
inductive StagedEnds (w : Generation) (compiler : Compiler) (fresh : Except FileError Unit) (faults : RunFaults)
    (staging template : Path) (o : TemplateOptions) : Outcome RunStatus × Generation → Prop
  | failed {x : Outcome RunStatus} {w' : Generation} : (∀ status, x = .value status → ¬ status.succeeded) →
      w'.files = w.files → StagedEnds w compiler fresh faults staging template o (x, w')
  | broken {x : Outcome RunStatus} {w' : Generation} {bytes : ByteArray} {m : List String} :
      (∀ status, x = .value status → ¬ status.succeeded) →
      (o.outputKind = .text → ∀ ext ∈ w'.generator.extension, '/' ∉ ext.toList) →
      w.files.BreaksOff (stagedPath o w'.generator.extension staging template) bytes faults.staged m w'.files →
      StagedEnds w compiler fresh faults staging template o (x, w')
  | delivered {g : Generator} {bytes : ByteArray} {files : FileTree} {x : RunStatus × Generation} :
      Output w compiler fresh template o.outputKind g bytes →
      w.files.write (stagedPath o g.extension staging template) bytes = .ok files →
      deliver ⟨{ g with outputFile := some (stagedPath o g.extension staging template) }, files⟩
        (stagedPath o g.extension staging template) (destination o g.extension staging template)
        faults.target = x →
      StagedEnds w compiler fresh faults staging template o (.value x.1, x.2)

theorem not_succeeded_value {status : RunStatus} (h : ¬ status.succeeded) (y : RunStatus)
    (hy : Outcome.value status = .value y) : ¬ y.succeeded := by
  rw [← Outcome.value.inj hy]
  exact h

theorem runText_ends (hkind : o.outputKind = .text) : StagedEnds w compiler fresh faults staging template o
    (w.runText compiler staging template o fresh faults) := by
  unfold runText
  generalize hprocessed : w.process compiler template (some (staging.join ⟨stagedStem template⟩)) fresh
    faults.staged = processed
  obtain ⟨x, w₁⟩ := processed
  rcases process_leaves hprocessed with ⟨rfl, text, out, g, staged, hread, hout, hpath, hg, hwritten⟩ |
    ⟨hfailed, hleft⟩
  · obtain ⟨hasked, rfl⟩ := outputPath?_staging_iff.1 hpath
    have houtput : Output w compiler fresh template o.outputKind g (g.encoding.encode out) := by
      rw [hkind]
      exact .text hread hout hasked
    obtain ⟨_, files⟩ := w₁
    subst hg
    dsimp only
    rw [← destination_text hkind]
    rw [← stagedPath_text hkind] at hwritten ⊢
    exact .delivered houtput hwritten rfl
  · have hends {y : Outcome RunStatus} (hy : ∀ status, y = .value status → ¬ status.succeeded) :
        StagedEnds w compiler fresh faults staging template o (y, w₁) := by
      rcases hleft with hsame | ⟨goal, bytes, m, hpath, hm⟩
      · exact .failed hy hsame
      · obtain ⟨hasked, rfl⟩ := outputPath?_staging_iff.1 hpath
        rw [← stagedPath_text hkind] at hm
        exact .broken hy (fun _ => hasked) hm
    rcases x with (_ | _) | _
    · exact hends (not_succeeded_value (not_succeeded_failureStatus _))
    · exact absurd rfl hfailed
    · exact hends nofun

theorem runTextGenerator_ends (hkind : o.outputKind = .textGenerator) :
    StagedEnds w compiler fresh faults staging template o (w.runTextGenerator staging template o faults) := by
  unfold runTextGenerator
  dsimp only
  generalize hpreprocessed : w.preprocess template (ClassName.ofTemplate template) ""
    (some (staging.join ⟨stagedStem template ++ "." ++ sourceExtension⟩)) faults.staged = preprocessed
  obtain ⟨x, w₁⟩ := preprocessed
  rcases preprocess_leaves hpreprocessed with ⟨rfl, text, m, g, hread, hm, hg, hwritten⟩ | ⟨hfailed, hleft⟩
  · have houtput : Output w compiler fresh template o.outputKind g m.source.toUTF8 := by
      rw [hkind]
      exact .source hread hm
    have hpath := stagedPath_source g.extension staging template hkind
    have hgoal := destination_source g.extension staging template hkind
    obtain ⟨_, files⟩ := w₁
    subst hg
    dsimp only
    rw [← hgoal]
    rw [← hpath] at hwritten ⊢
    exact .delivered houtput hwritten rfl
  · have hends {y : Outcome RunStatus} (hy : ∀ status, y = .value status → ¬ status.succeeded) :
        StagedEnds w compiler fresh faults staging template o (y, w₁) := by
      rcases hleft with hsame | ⟨bytes, m, hm⟩
      · exact .failed hy hsame
      · rw [← stagedPath_source w₁.generator.extension staging template hkind] at hm
        exact .broken hy (by simp [hkind]) hm
    rcases x with (_ | _) | _
    · exact hends (not_succeeded_value (by decide))
    · exact absurd rfl hfailed
    · exact hends nofun

theorem runStaged_ends (w : Generation) (compiler : Compiler) (fresh : Except FileError Unit) (faults : RunFaults)
    (staging template : Path) (o : TemplateOptions) : StagedEnds w compiler fresh faults staging template o
      (w.runStaged compiler staging template o fresh faults) := by
  unfold runStaged
  split
  · exact .failed (not_succeeded_value (by decide)) rfl
  · exact runText_ends ‹_›
  · exact runTextGenerator_ends ‹_›

/-! ## A whole run -/

/-- A name in the staging directory of a run, if the run has one. -/
def InStaging (files : FileTree) (staging : Path) (n : List String) : Prop :=
  ∃ s, files.resolve staging = .ok (.vacant s) ∧ s.isPrefixOf n

/-- The name of a staged file that is not in the staging directory: under a stem that is a dot, a text whose
template asks for an extension is staged beside it. -/
def Strays (w : Generation) (staging template : Path) (asked : Option String) (n : List String) : Prop :=
  (TemplateOptions.loadOrDefault w.files template).outputKind = .text ∧ stagedStem template = "." ∧ asked.isSome ∧
    ∃ made, w.files.makeDirectory staging = .ok made ∧
      made.opens (stagedPath (TemplateOptions.loadOrDefault w.files template) asked staging template) = .ok n

/-- A name at which a run stages nothing. -/
def Outside (w : Generation) (staging template : Path) (asked : Option String) (n : List String) : Prop :=
  ¬ InStaging w.files staging n ∧ ¬ w.Strays staging template asked n

/-- The directory at these names is gone, and nothing else. -/
structure Unstaged (s : List String) (files files' : FileTree) : Prop where
  workingDirectory : files'.workingDirectory = files.workingDirectory
  lookup : ∀ n, files'.lookup n = if s.isPrefixOf n then none else files.lookup n

theorem run_stages (w : Generation) (compiler : Compiler) (fresh : Except FileError Unit) (faults : RunFaults)
    (staging template : Path) :
    ((w.run compiler staging template fresh faults).1 = .value .processingError ∧
      (w.run compiler staging template fresh faults).2.files = w.files) ∨
    ∃ s w₂, w.files.resolve staging = .ok (.vacant s) ∧
      StagedEnds ⟨w.generator, w.files.put s .directory⟩ compiler fresh faults staging template
        (TemplateOptions.loadOrDefault w.files template)
        ((w.run compiler staging template fresh faults).1, w₂) ∧
      (w.run compiler staging template fresh faults).2 = w₂.unstage staging := by
  unfold run
  dsimp only
  cases hmade : w.files.makeDirectory staging with
  | error e => exact .inl ⟨rfl, rfl⟩
  | ok made =>
    obtain ⟨s, hs, rfl⟩ := FileTree.makeDirectory_eq_ok hmade
    refine .inr ⟨s, _, hs, ?_, rfl⟩
    exact runStaged_ends ⟨w.generator, w.files.put s .directory⟩ compiler fresh faults staging template _

section
variable {s n k : List String} {name : String}

theorem lookup_staging (hs : files.resolve staging = .ok (.vacant s)) :
    (files.put s .directory).lookup s = some .directory := by
  rw [files.lookup_put (FileTree.ne_nil_of_vacant (FileTree.lookup_of_resolve_vacant hs)), if_pos rfl]

theorem makes_staging (hs : files.resolve staging = .ok (.vacant s)) :
    files.Makes (files.put s .directory) :=
  FileTree.makes_put (FileTree.lookup_of_resolve_vacant hs)

theorem lookup_staging_of_outside (hs : files.resolve staging = .ok (.vacant s))
    (hn : ¬ s.isPrefixOf n) : (files.put s .directory).lookup n = files.lookup n := by
  rw [files.lookup_put (FileTree.ne_nil_of_vacant (FileTree.lookup_of_resolve_vacant hs)), if_neg]
  rintro rfl
  exact hn (by simp)

theorem resolve_staging (hs : files.resolve staging = .ok (.vacant s)) {files' : FileTree}
    (hdirs : (files.put s .directory).KeepsDirectories files')
    (hcwd : files'.workingDirectory = files.workingDirectory) :
    files'.resolve staging = .ok (.entry s .directory) := by
  apply FileTree.resolve_directory _ hcwd (hdirs s (lookup_staging hs)) (.inl hs)
  intro n hn
  exact hdirs n ((makes_staging hs).keepsDirectories n hn)

theorem unstaged_of_keepsDirectories (w : Generation) (hs : files.resolve staging = .ok (.vacant s))
    (hdirs : (files.put s .directory).KeepsDirectories w.files)
    (hcwd : w.files.workingDirectory = files.workingDirectory) :
    Unstaged s w.files (w.unstage staging).files := by
  have hne := FileTree.ne_nil_of_vacant (FileTree.lookup_of_resolve_vacant hs)
  obtain ⟨removed, hremoved, hcwd', hlookup⟩ :=
    FileTree.remove_of_resolve (resolve_staging hs hdirs hcwd) hne
  unfold unstage
  rw [hremoved]
  exact ⟨hcwd', hlookup⟩

/-- A staged file is an entry of the staging directory. -/
theorem writes_staged (hs : files.resolve staging = .ok (.vacant s)) (hslash : '/' ∉ name.toList)
    (h : (files.put s .directory).write (staging.join ⟨name⟩) bytes = .ok files') :
    (files.put s .directory).Writes (staging.join ⟨name⟩) bytes (s ++ [name]) files' := by
  obtain ⟨m, hm⟩ := FileTree.writes_of_write h
  have hdir : (files.put s .directory).resolve staging = .ok (.entry s .directory) :=
    resolve_staging hs (fun _ hn => hn) rfl
  rw [hm.below hdir hslash] at hm
  exact hm

theorem outside_iff (hs : w.files.resolve staging = .ok (.vacant s)) :
    w.Outside staging template asked n ↔ ¬ s.isPrefixOf n ∧ ¬ w.Strays staging template asked n := by
  refine and_congr_left fun _ => not_congr ⟨?_, fun h => ⟨s, hs, h⟩⟩
  rintro ⟨s', hs', hn⟩
  obtain rfl := FileTree.Place.vacant.inj (Except.ok.inj (hs.symm.trans hs'))
  exact hn

/-- What is staged is in the staging directory, or strays from it. -/
theorem staged_place (hs : w.files.resolve staging = .ok (.vacant s))
    (hasked : (TemplateOptions.loadOrDefault w.files template).outputKind = .text →
      ∀ ext ∈ asked, '/' ∉ ext.toList)
    (h : (w.files.put s .directory).Writes
      (stagedPath (TemplateOptions.loadOrDefault w.files template) asked staging template) bytes k files') :
    s.isPrefixOf k ∨ w.Strays staging template asked k := by
  by_cases hinside : ¬ ((TemplateOptions.loadOrDefault w.files template).outputKind = .text ∧
    stagedStem template = ".")
  · obtain ⟨name, hslash, hpath⟩ := stagedPath_inside hinside hasked staging
    have hdir : (w.files.put s .directory).resolve staging = .ok (.entry s .directory) :=
      resolve_staging hs (fun _ hn => hn) rfl
    rw [hpath] at h
    rw [h.below hdir hslash]
    exact .inl (List.isPrefixOf_iff_prefix.2 (List.prefix_append s _))
  · obtain ⟨hkind, hdot⟩ := not_not.1 hinside
    cases asked with
    | none =>
      have hopens := h.opens
      rw [stagedPath_text hkind, stagedText, hdot] at hopens
      exact absurd hopens (not_opens_dot _ _ _)
    | some ext => exact .inr ⟨hkind, hdot, rfl, _, FileTree.makeDirectory_of_vacant hs, h.opens⟩

/-- Staging a file changes nothing at the names outside. -/
theorem lookup_of_outside (hs : w.files.resolve staging = .ok (.vacant s))
    (h : (w.files.put s .directory).Writes staged bytes k files')
    (hk : s.isPrefixOf k ∨ w.Strays staging template asked k) (hn : w.Outside staging template asked n) :
    files'.lookup n = w.files.lookup n := by
  obtain ⟨hoff, hstray⟩ := (outside_iff hs).1 hn
  rw [h.lookup, if_neg, lookup_staging_of_outside hs hoff]
  rintro rfl
  exact hk.elim hoff hstray

end

/-- What a run that was delivered brought to its target. -/
structure Brings (w : Generation) (compiler : Compiler) (fresh : Except FileError Unit)
    (staging template : Path) (w' : Generation) (goal : Path) (bytes : ByteArray) : Prop where
  output : ∃ made files g, w.files.makeDirectory staging = .ok made ∧
    Output ⟨w.generator, made⟩ compiler fresh template
      (TemplateOptions.loadOrDefault w.files template).outputKind g bytes ∧
    made.write (stagedPath (TemplateOptions.loadOrDefault w.files template) g.extension staging template) bytes =
      .ok files ∧
    w'.generator = { g with outputFile := some goal }
  goal : goal = destination (TemplateOptions.loadOrDefault w.files template) w'.generator.extension staging template

theorem Brings.outputFile (h : Brings w compiler fresh staging template w' goal bytes) :
    w'.generator.outputFile = some goal := by
  obtain ⟨-, -, g, -, -, -, hg⟩ := h.output
  rw [hg]

/-- A path that does not lead by a name at which a run stages something. -/
def Apart (w : Generation) (staging template : Path) (asked : Option String) (files' : FileTree) (p : Path) : Prop :=
  ∀ n ∈ files'.way p, w.Outside staging template asked n

theorem Apart.sameWay {files₂ : FileTree} {s : List String} {p : Path}
    (h : w.Apart staging template asked files' p) (hs : w.files.resolve staging = .ok (.vacant s))
    (hu : Unstaged s files₂ files') : files'.SameWay files₂ p := by
  refine ⟨hu.workingDirectory.symm, fun n hn => ?_⟩
  rw [hu.lookup, if_neg ((outside_iff hs).1 (h n hn)).1]

/-- How a run ends, and what is at all names outside its staging then. -/
inductive RunEnds (w : Generation) (compiler : Compiler) (fresh : Except FileError Unit) (faults : RunFaults)
    (staging template : Path) : Outcome RunStatus × Generation → Prop
  | failed {x : Outcome RunStatus} {w' : Generation} :
      (∀ status, x = .value status → ¬ status.succeeded) →
      (∀ n, w.Outside staging template w'.generator.extension n → w.files.Keeps w'.files n) →
      RunEnds w compiler fresh faults staging template (x, w')
  | broken {w' : Generation} {goal : Path} {m : List String} :
      goal = destination (TemplateOptions.loadOrDefault w.files template) w'.generator.extension staging template →
      (∃ f ∈ faults.target, f.written.isSome) →
      (∀ n, n ≠ m → w.Outside staging template w'.generator.extension n → w.files.Keeps w'.files n) →
      (w.Apart staging template w'.generator.extension w'.files goal →
        ∃ bytes stamp, w'.files.resolve goal = .ok (.entry m (.file bytes stamp))) →
      RunEnds w compiler fresh faults staging template (.value .processingError, w')
  | unchanged {w' : Generation} {goal : Path} {old bytes : ByteArray} :
      Brings w compiler fresh staging template w' goal bytes →
      (∀ n, w.Outside staging template w'.generator.extension n → w'.files.lookup n = w.files.lookup n) →
      Digest.ofBytes old = Digest.ofBytes bytes →
      (w.Apart staging template w'.generator.extension w'.files goal →
        w.files.read goal = .ok old ∧ w'.files.read goal = .ok old) →
      RunEnds w compiler fresh faults staging template (.value .noChanges, w')
  | written {w' : Generation} {goal : Path} {bytes : ByteArray} {m : List String} :
      Brings w compiler fresh staging template w' goal bytes →
      (∀ n, n ≠ m → w.Outside staging template w'.generator.extension n → w.files.Keeps w'.files n) →
      (w.Apart staging template w'.generator.extension w'.files goal →
        ∃ stamp, w'.files.resolve goal = .ok (.entry m (.file bytes stamp))) →
      RunEnds w compiler fresh faults staging template (.value .success, w')

section
variable {s k : List String} {w₁ : Generation}

theorem brings_of_deliver {g : Generator} {o : TemplateOptions}
    (ho : TemplateOptions.loadOrDefault w.files template = o)
    (hs : w.files.resolve staging = .ok (.vacant s))
    (hout : Output ⟨w.generator, w.files.put s .directory⟩ compiler fresh template o.outputKind g bytes)
    (hwritten : (w.files.put s .directory).write (stagedPath o g.extension staging template) bytes = .ok files)
    (hgoal : destination o g.extension staging template = goal)
    (hg : w'.generator = { g with outputFile := some goal }) :
    Brings w compiler fresh staging template (w'.unstage staging) goal bytes := by
  have hunstaged := (generator_unstage w' staging).trans hg
  subst ho
  refine ⟨⟨_, files, g, FileTree.makeDirectory_of_vacant hs, hout, hwritten, hunstaged⟩, ?_⟩
  rw [hunstaged]
  exact hgoal.symm

/-- Outside its staging, a run that went wrong keeps what was kept before the staging directory was dropped. -/
theorem keeps_unstaged {n : List String} {files₂ : FileTree} (hs : w.files.resolve staging = .ok (.vacant s))
    (hu : Unstaged s files₂ files') (hn : w.Outside staging template asked n)
    (hsame : files.lookup n = w.files.lookup n) (h : files.Keeps files₂ n) : w.files.Keeps files' n := by
  unfold FileTree.Keeps at h ⊢
  rwa [hu.lookup, if_neg ((outside_iff hs).1 hn).1, ← hsame]

/-- What a staged file leads to, once it is delivered and its directory is gone. -/
theorem Delivers.runEnds {y : RunStatus × Generation} (h : Delivers w₁ staged goal faults.target y)
    (hs : w.files.resolve staging = .ok (.vacant s))
    (hw : (w.files.put s .directory).Writes staged bytes k w₁.files)
    (hk : s.isPrefixOf k ∨ w.Strays staging template w₁.generator.extension k)
    (hgoal : destination (TemplateOptions.loadOrDefault w.files template) w₁.generator.extension staging template =
      goal)
    (hbrings : ∀ {w' : Generation}, w'.generator = { w₁.generator with outputFile := some goal } →
      Brings w compiler fresh staging template (w'.unstage staging) goal bytes) :
    RunEnds w compiler fresh faults staging template (.value y.1, y.2.unstage staging) := by
  have hcwd : w₁.files.workingDirectory = w.files.workingDirectory := hw.workingDirectory
  have houtside : ∀ n, w.Outside staging template w₁.generator.extension n →
      w₁.files.lookup n = w.files.lookup n := fun n hn => lookup_of_outside hs hw hk hn
  cases h with
  | @unchanged w₂ old new hg hfiles hold hnew hdigest =>
    have hext : (w₂.unstage staging).generator.extension = w₁.generator.extension := by
      rw [generator_unstage, hg]
    rw [← hfiles] at hw hcwd houtside hold hnew
    have hu := unstaged_of_keepsDirectories w₂ hs hw.keepsDirectories hcwd
    obtain rfl : new = bytes := Except.ok.inj (hnew.symm.trans (FileTree.read_of_resolve hw.resolve))
    have hsame : ∀ n, w.Outside staging template (w₂.unstage staging).generator.extension n →
        (w₂.unstage staging).files.lookup n = w.files.lookup n := by
      intro n hn
      rw [hext] at hn
      rw [hu.lookup, if_neg ((outside_iff hs).1 hn).1, houtside n hn]
    refine .unchanged (hbrings hg) hsame hdigest fun hapart => ?_
    have hafter := (hapart.sameWay hs hu).read
    have hbefore : FileTree.SameWay (w₂.unstage staging).files w.files goal :=
      ⟨hcwd.symm.trans hu.workingDirectory.symm, fun n hn => (hsame n (hapart n hn)).symm⟩
    exact ⟨hbefore.read.trans (hafter.symm.trans hold), hafter.symm.trans hold⟩
  | @refused w₂ hg hmakes =>
    have hu : Unstaged s w₂.files (w₂.unstage staging).files := by
      apply unstaged_of_keepsDirectories w₂ hs _ (hmakes.workingDirectory.trans hcwd)
      intro n hn
      exact hmakes.keepsDirectories n (hw.keepsDirectories n hn)
    refine .failed (not_succeeded_value Bool.false_ne_true) fun n hn => ?_
    rw [generator_unstage, hg] at hn
    exact keeps_unstaged hs hu hn (houtside n hn) (hmakes.keeps n)
  | @broken w₂ made bytes' m hg hmakes hread hbroken =>
    obtain ⟨f, hf, l, hl, hm⟩ := hbroken
    have hdirs : (w.files.put s .directory).KeepsDirectories made :=
      fun n hn => hmakes.keepsDirectories n (hw.keepsDirectories n hn)
    have hu : Unstaged s w₂.files (w₂.unstage staging).files := by
      apply unstaged_of_keepsDirectories w₂ hs
      · exact fun n hn => hm.keepsDirectories n (hdirs n hn)
      · exact hm.workingDirectory.trans (hmakes.workingDirectory.trans hcwd)
    have hwhere : goal = destination (TemplateOptions.loadOrDefault w.files template)
        (w₂.unstage staging).generator.extension staging template := by
      rw [generator_unstage, hg, hgoal]
    have hopen : f.written.isSome := Option.isSome_of_mem hl
    refine .broken (m := m) hwhere ⟨f, hf, hopen⟩ (fun n hne hn => ?_) fun hapart => ?_
    · rw [generator_unstage, hg] at hn
      refine keeps_unstaged hs hu hn (houtside n hn) ?_
      have hkeeps := hmakes.keeps n
      unfold FileTree.Keeps at hkeeps ⊢
      rwa [hm.lookup, if_neg hne]
    · refine ⟨bytes'.extract 0 l, made.clock, ?_⟩
      rw [← (hapart.sameWay hs hu).resolve]
      exact hm.resolve
  | @written w₂ made bytes' hg hmakes hread hwritten =>
    have hext : (w₂.unstage staging).generator.extension = w₁.generator.extension := by
      rw [generator_unstage, hg]
    obtain ⟨m, hm⟩ := FileTree.writes_of_write hwritten
    have hdirs : (w.files.put s .directory).KeepsDirectories made :=
      fun n hn => hmakes.keepsDirectories n (hw.keepsDirectories n hn)
    have hu : Unstaged s w₂.files (w₂.unstage staging).files := by
      apply unstaged_of_keepsDirectories w₂ hs
      · exact fun n hn => hm.keepsDirectories n (hdirs n hn)
      · exact hm.workingDirectory.trans (hmakes.workingDirectory.trans hcwd)
    -- Making directories has not touched the staged file.
    have hstaged : made.lookup k = some (.file bytes (w.files.put s .directory).clock) := by
      apply hmakes.file
      rw [hw.lookup, if_pos rfl]
    have hresolve := hw.resolve_of_keeps hdirs (hmakes.workingDirectory.trans hcwd) hstaged
    obtain rfl : bytes' = bytes := Except.ok.inj (hread.symm.trans (FileTree.read_of_resolve hresolve))
    refine .written (m := m) (hbrings hg) (fun n hne hn => ?_) fun hapart => ?_
    · rw [hext] at hn
      refine keeps_unstaged hs hu hn (houtside n hn) ?_
      have hkeeps := hmakes.keeps n
      unfold FileTree.Keeps at hkeeps ⊢
      rwa [hm.lookup, if_neg hne]
    · refine ⟨made.clock, ?_⟩
      rw [← (hapart.sameWay hs hu).resolve]
      exact hm.resolve

end

theorem Output.noSlash {g : Generator} {kind : OutputKind} (h : Output w compiler fresh template kind g bytes)
    (hkind : kind = .text) : ∀ ext ∈ g.extension, '/' ∉ ext.toList := by
  cases h with
  | text _ _ hplain => exact hplain
  | source => cases hkind

theorem run_runEnds (w : Generation) (compiler : Compiler) (fresh : Except FileError Unit) (faults : RunFaults)
    (staging template : Path) :
    RunEnds w compiler fresh faults staging template (w.run compiler staging template fresh faults) := by
  have hstages := run_stages w compiler fresh faults staging template
  generalize w.run compiler staging template fresh faults = y at hstages
  obtain ⟨x, w'⟩ := y
  rcases hstages with ⟨hx, hfiles⟩ | ⟨s, w₂, hs, hends, hw'⟩
  · refine .failed (fun status he => ?_) fun n hn => .inl (congrArg (·.lookup n) hfiles)
    rw [← Outcome.value.inj (hx.symm.trans he)]
    exact Bool.false_ne_true
  · dsimp only at hw'
    subst hw'
    generalize hz : ((x, w₂) : Outcome RunStatus × Generation) = z at hends
    cases hends with
    | failed hfailed hfiles =>
      obtain ⟨rfl, rfl⟩ := Prod.mk.inj hz
      have hu : Unstaged s w₂.files (w₂.unstage staging).files := by
        apply unstaged_of_keepsDirectories w₂ hs
        · rw [hfiles]
          exact fun n hn => hn
        · rw [hfiles]
          rfl
      refine .failed hfailed fun n hn => .inl ?_
      have hoff := ((outside_iff hs).1 hn).1
      rw [hu.lookup, if_neg hoff, hfiles]
      exact lookup_staging_of_outside hs hoff
    | broken hfailed hasked hbroken =>
      obtain ⟨rfl, rfl⟩ := Prod.mk.inj hz
      obtain ⟨f, -, l, -, hm⟩ := hbroken
      have hu := unstaged_of_keepsDirectories w₂ hs hm.keepsDirectories hm.workingDirectory
      refine .failed hfailed fun n hn => ?_
      rw [generator_unstage] at hn
      have hsame := lookup_of_outside hs hm (staged_place hs hasked hm) hn
      exact keeps_unstaged hs hu hn hsame (.inl rfl)
    | @delivered g bytes files y hout hwritten hy =>
      obtain ⟨rfl, rfl⟩ := Prod.mk.inj hz
      subst hy
      obtain ⟨k, hw⟩ := FileTree.writes_of_write hwritten
      exact (deliver_delivers _ _ _ _).runEnds hs hw (staged_place hs hout.noSlash hw) rfl
        fun hg => brings_of_deliver rfl hs hout hwritten rfl hg

end Generation

end Templating
