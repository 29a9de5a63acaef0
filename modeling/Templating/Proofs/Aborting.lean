import Mathlib
import Templating.Proofs.Delivering
import Templating.Proofs.Relocating
import Templating.Proofs.ResponseFiles

/-!
# Runs that give up

A run ends without a result in three ways only: the compiler does so, the place of one of its messages has
more than 32 bits, or the extension that the template asks for holds a slash, which is found out once
there is an output (`aborts_iff`). What cannot be written otherwise is reported.
-/

namespace Templating

namespace Engine

variable {compiler : Compiler} {files : FileTree} {recycler : Recycler} {fresh : Except FileError Unit}
  {host : Host} {text : String}

/-- A compilation that the engine gets no result from. -/
inductive GivesUp (compiler : Compiler) (files : FileTree) (host : Host) (text : String) : Prop
  | unanswered {p : Preparation} : (prepare files host text .executable).result = .ok p →
      compiler.compile (request p).source (request p).parameters = .aborted → GivesUp compiler files host text
  | misplaced {p : Preparation} {results : CompilerResult} {m : CompilerMessage} {e : LineMapEntry} :
      Asked compiler files host text p (.ok results) → m ∈ results.messages →
      concernsUnit m results.sourcePath → 0 < m.line → e ∈ entry? p.unit m → ¬ e.InRange m.line m.column →
      GivesUp compiler files host text

theorem abandoned_iff : Abandoned compiler files host text ↔ GivesUp compiler files host text := by
  constructor
  · intro h
    cases h with
    | unanswered hp haborted => exact .unanswered hp haborted
    | misplaced ha hm haborted =>
      obtain ⟨hconcerns, hline, e, he, hrange⟩ := ofCompilerMessage_eq_aborted_iff.1 haborted
      exact .misplaced ha hm hconcerns hline he hrange
  · intro h
    cases h with
    | unanswered hp haborted => exact .unanswered hp haborted
    | misplaced ha hm hconcerns hline he hrange =>
      exact .misplaced ha hm (ofCompilerMessage_eq_aborted_iff.2 ⟨hconcerns, hline, _, he, hrange⟩)

theorem process_aborted_iff : (process compiler files recycler host text fresh).outcome = .aborted ↔
    GivesUp compiler files host text :=
  (process_ends compiler files recycler fresh host text).aborted_iff.trans abandoned_iff

/-- The extension of the output that a template asks for. -/
def askedExtension (files : FileTree) (host : Host) (text : String) : Option String :=
  (TemplateSettings.ofTemplate (parsed files host text)).1.extension?

end Engine

/-! ## Extensions with a slash -/

theorem Path.withExtension?_eq_none_iff {p : Path} {ext : String} :
    p.withExtension? ext = none ↔ '/' ∈ ext.toList := by
  unfold withExtension?
  split
  · rename_i hslash
    exact iff_of_true rfl hslash
  · rename_i hslash
    split <;> exact iff_of_false nofun hslash

theorem Text.mem_dropWhile_iff {p : Char → Bool} {c : Char} (hc : p c = false) (cs : List Char) :
    c ∈ cs.dropWhile p ↔ c ∈ cs := by
  refine ⟨fun h => (List.dropWhile_sublist p).mem h, fun h => ?_⟩
  rw [← List.takeWhile_append_dropWhile (p := p) (l := cs), List.mem_append] at h
  refine h.resolve_left fun htake => ?_
  rw [List.mem_takeWhile_imp htake] at hc
  cases hc

theorem Text.slash_mem_trim_iff (s : String) : '/' ∈ (trim s).toList ↔ '/' ∈ s.toList := by
  have hslash : isBlank '/' = false := by decide
  rw [toList_trim, List.rdropWhile, List.mem_reverse, mem_dropWhile_iff hslash, List.mem_reverse,
    mem_dropWhile_iff hslash]

namespace Generator

/-- Blanks around an extension and dots in front of it hold no slash. -/
theorem exists_slash_setExtension (g : Generator) (ext : String) :
    (∃ kept ∈ (g.setExtension ext).extension, '/' ∈ kept.toList) ↔ '/' ∈ ext.toList := by
  have hkept := Text.mem_dropWhile_iff (p := fun c => decide (c = '.')) (c := '/') (by decide)
    (Text.trim ext).toList
  rw [Text.slash_mem_trim_iff] at hkept
  simpa [setExtension] using hkept

theorem extension_foldl_settingEffects (s : TemplateSettings) (g : Generator) (request : CompileRequest)
    (ds : Diagnostics) :
    ((Engine.settingEffects s ++ [Effect.compile request, .execute, .log ds]).foldl observe g).extension =
      match s.extension? with
      | some ext => (g.setExtension ext).extension
      | none => g.extension := by
  unfold Engine.settingEffects
  cases s.extension? <;> cases s.encoding? <;> rfl

end Generator

namespace Generation

variable {w w' : Generation} {compiler : Compiler} {fresh : Except FileError Unit}
  {input staging template staged goal : Path} {output : Option Path} {text out : String} {g : Generator}
  {fault : Option WriteFault} {faults : RunFaults}

theorem outputPath?_eq_none_iff : outputPath? g input output = none ↔ ∃ ext ∈ g.extension, '/' ∈ ext.toList := by
  unfold outputPath?
  cases output with
  | some output =>
    cases g.extension with
    | none => simp
    | some ext => simp [Path.withExtension?_eq_none_iff]
  | none =>
    have hdefault : '/' ∉ defaultExtension.toList := by decide
    cases g.extension with
    | none => simp [Path.withExtension?_eq_none_iff, hdefault]
    | some ext => simp [Path.withExtension?_eq_none_iff]

theorem extension_absorb {α : Type} (w : Generation) (run : EngineRun α) :
    (w.absorb run).2.generator.extension = (run.effects.foldl Generator.observe w.generator).extension := by
  have hset : (w.absorb run).2.generator.extension =
      (run.effects.foldl Generator.observe { w.generator with recycler := run.recycler }).extension := by
    unfold absorb
    dsimp only
    split <;> rfl
  rw [hset]
  generalize hg : ({ w.generator with recycler := run.recycler } : Generator) = g
  have hkept : g.extension = w.generator.extension ∧ g.encoding = w.generator.encoding := by
    rw [← hg]
    exact ⟨rfl, rfl⟩
  exact (foldl_observe_congr hkept run.effects).1

theorem extension_start (w : Generation) (input : Path) : (w.start input).2.generator.extension = none := by
  unfold start
  dsimp only
  split <;> rfl

/-- A run with an output has set the extension that its template asks for. -/
theorem effects_of_value {files : FileTree} {recycler : Recycler} {host : Host} {run : EngineRun String}
    {ds : Diagnostics} (h : Engine.Ends compiler files recycler fresh host text run)
    (hr : run.outcome = .value ⟨.ok out, ds⟩) : ∃ p : Preparation,
      p.settings.extension? = Engine.askedExtension files host text ∧
      run.effects =
        Engine.settingEffects p.settings ++ [Effect.compile (Engine.request p), .execute, .log ds] := by
  cases h with
  | unprepared hp => cases hr
  | unanswered => cases hr
  | misplaced => cases hr
  | uncompiled => cases hr
  | moduleless => cases hr
  | @executed p results reported m ha htells hm he =>
    refine ⟨p, by rw [Engine.settings_of_ok ha.prepared]; rfl, ?_⟩
    obtain ⟨-, rfl⟩ := RunResult.mk.inj (Outcome.value.inj hr)
    simp [Engine.ended, Engine.requestEffects]

/-- The extension of what the engine gave holds a slash just if the one that the template asks for does. -/
theorem slash_iff_of_gives (hunset : w.generator.extension = none)
    (h : Gives w (w.engineRun compiler fresh text) out g) :
    (∃ ext ∈ g.extension, '/' ∈ ext.toList) ↔
      ∃ ext ∈ Engine.askedExtension w.files (w.generator.host w.files) text, '/' ∈ ext.toList := by
  obtain ⟨ds, hr⟩ := h.outcome
  have hends : Engine.Ends _ _ _ _ _ _ (w.engineRun compiler fresh text) := Engine.process_ends ..
  obtain ⟨p, hasked, heffects⟩ := effects_of_value hends hr
  have hg : g.extension = _ := (congrArg (·.2.generator.extension) h.absorbed).symm.trans (extension_absorb w _)
  rw [hg, heffects, Generator.extension_foldl_settingEffects, hasked]
  cases Engine.askedExtension w.files (w.generator.host w.files) text with
  | none => simp [hunset]
  | some ext =>
    rw [Generator.exists_slash_setExtension]
    simp

/-! ## Processing -/

/-- A run gives up: the engine does, or it gives an output that goes to no path. -/
def Aborts (w : Generation) (compiler : Compiler) (fresh : Except FileError Unit) (input : Path) : Prop :=
  ∃ text, (w.start input).1 = some text ∧
    (Engine.GivesUp compiler (w.start input).2.files
        ((w.start input).2.generator.host (w.start input).2.files) text ∨
      (∃ out g, Gives (w.start input).2 ((w.start input).2.engineRun compiler fresh text) out g) ∧
        ∃ ext ∈ Engine.askedExtension (w.start input).2.files
          ((w.start input).2.generator.host (w.start input).2.files) text, '/' ∈ ext.toList)

theorem absorb_aborted_iff {α : Type} {run : EngineRun α} :
    (w.absorb run).1 = .aborted ↔ run.outcome = .aborted := by
  unfold absorb
  dsimp only
  split
  · rename_i h
    exact iff_of_true rfl h
  · rename_i h
    rw [h]
    exact iff_of_false nofun nofun

theorem settle_aborted_iff {x : Outcome (Option String) × Generation} :
    (settle input output x fault).1 = .aborted ↔
    x.1 = .aborted ∨ (∃ out, x.1 = .value (some out)) ∧ ∃ ext ∈ x.2.generator.extension, '/' ∈ ext.toList := by
  obtain ⟨(_ | out) | _, w₁⟩ := x
  · exact iff_of_false nofun (by rintro (h | ⟨⟨out, h⟩, -⟩) <;> cases h)
  · unfold settle
    dsimp only
    have hpath : outputPath? w₁.generator input output = none ↔ _ := outputPath?_eq_none_iff
    rw [← hpath]
    split
    · rename_i hnone
      exact iff_of_true rfl (.inr ⟨⟨out, rfl⟩, hnone⟩)
    · rename_i goal hgoal
      refine iff_of_false nofun ?_
      rintro (h | ⟨-, hnone⟩)
      · cases h
      · cases hgoal.symm.trans hnone
  · exact iff_of_true rfl (.inl rfl)

theorem process_aborts_iff :
    (w.process compiler input output fresh fault).1 = .aborted ↔ w.Aborts compiler fresh input := by
  unfold Aborts
  cases hread : (w.start input).1 with
  | none =>
    rw [process_of_unread hread]
    exact iff_of_false nofun nofun
  | some text =>
    rw [process_of_read hread, settle_aborted_iff, absorb_aborted_iff]
    have hunset := extension_start w input
    simp only [Option.some.injEq, exists_eq_left']
    generalize (w.start input).2 = w₁ at hunset ⊢
    refine or_congr Engine.process_aborted_iff ?_
    constructor
    · rintro ⟨⟨out, hout⟩, hslash⟩
      have hgives := gives_of_absorb hout
      exact ⟨⟨out, _, hgives⟩, (slash_iff_of_gives hunset hgives).1 hslash⟩
    · rintro ⟨⟨out, g, hgives⟩, hslash⟩
      rw [hgives.absorbed]
      exact ⟨⟨out, rfl⟩, (slash_iff_of_gives hunset hgives).2 hslash⟩

theorem preprocess_not_aborted {className namespace_ : String} :
    (w.preprocess input className namespace_ output fault).1 ≠ .aborted := by
  cases hread : (w.start input).1 with
  | none =>
    rw [preprocess_of_unread hread]
    nofun
  | some text =>
    rw [preprocess_of_read hread]
    have hvalue : ∃ a, ((w.start input).2.absorb
      ((w.start input).2.moduleRun text className namespace_)).1 = .value a := ⟨_, rfl⟩
    generalize (w.start input).2.absorb _ = absorbed at hvalue ⊢
    obtain ⟨(_ | m) | _, w₁⟩ := absorbed
    · nofun
    · nofun
    · obtain ⟨a, ha⟩ := hvalue
      cases ha

/-! ## Runs -/

theorem runText_aborts_iff {o : TemplateOptions} :
    (w.runText compiler staging template o fresh faults).1 = .aborted ↔ w.Aborts compiler fresh template := by
  have hprocess : (w.process compiler template (some (staging.join ⟨stagedStem template⟩)) fresh
    faults.staged).1 = .aborted ↔ _ := process_aborts_iff
  rw [← hprocess]
  unfold runText
  generalize w.process compiler template (some (staging.join ⟨stagedStem template⟩)) fresh faults.staged =
    processed
  obtain ⟨(_ | _) | _, w₁⟩ := processed
  · exact iff_of_false nofun nofun
  · dsimp only
    split
    · exact iff_of_false nofun nofun
    · exact iff_of_false nofun nofun
  · exact iff_of_true rfl rfl

theorem runTextGenerator_not_aborted {o : TemplateOptions} :
    (w.runTextGenerator staging template o faults).1 ≠ .aborted := by
  unfold runTextGenerator
  dsimp only
  have hvalue : (w.preprocess template (ClassName.ofTemplate template) ""
    (some (staging.join ⟨stagedStem template ++ "." ++ sourceExtension⟩)) faults.staged).1 ≠ .aborted :=
    preprocess_not_aborted
  generalize w.preprocess template (ClassName.ofTemplate template) ""
    (some (staging.join ⟨stagedStem template ++ "." ++ sourceExtension⟩)) faults.staged = preprocessed
    at hvalue ⊢
  obtain ⟨(_ | _) | _, w₁⟩ := preprocessed
  · nofun
  · nofun
  · exact absurd rfl hvalue

theorem run_aborts_iff : (w.run compiler staging template fresh faults).1 = .aborted ↔
    (TemplateOptions.loadOrDefault w.files template).outputKind = .text ∧
      ∃ made, w.files.makeDirectory staging = .ok made ∧ Aborts ⟨w.generator, made⟩ compiler fresh template := by
  unfold run
  dsimp only
  cases w.files.makeDirectory staging with
  | error e => exact iff_of_false nofun (by rintro ⟨-, made, h, -⟩; cases h)
  | ok made =>
    simp only [Except.ok.injEq, exists_eq_left']
    unfold runStaged
    cases (TemplateOptions.loadOrDefault w.files template).outputKind with
    | unknown => exact iff_of_false nofun fun h => nomatch h.1
    | textGenerator => exact iff_of_false runTextGenerator_not_aborted fun h => nomatch h.1
    | text => exact runText_aborts_iff.trans ⟨fun h => ⟨rfl, h⟩, fun h => h.2⟩

/-! ## What cannot be written -/

/-- It is reported that something could not be written. -/
def Reported (w : Generation) : Prop :=
  ∃ d ∈ w.generator.errors, d.severity = .error ∧ d.code = "TT5002"

theorem reported_write (w : Generation) (goal : Path) (e : FileError) : (w.reportWriteError goal e).Reported :=
  ⟨_, List.mem_append_right _ (List.mem_singleton_self _), rfl, rfl⟩

theorem reported_writeOutput {bytes : ByteArray} (h : (w.writeOutput goal bytes fault).1 = false) :
    (w.writeOutput goal bytes fault).2.Reported := by
  unfold writeOutput at h ⊢
  split at h
  · cases h
  · exact reported_write _ _ _

theorem reported_deliver (h : ¬ (w.deliver staged goal fault).1.succeeded) :
    (w.deliver staged goal fault).2.Reported := by
  generalize hdelivered : w.deliver staged goal fault = delivered at h ⊢
  unfold deliver at hdelivered
  dsimp only at hdelivered
  split at hdelivered
  · subst hdelivered
    exact absurd rfl h
  · split at hdelivered
    · subst hdelivered
      exact reported_write _ _ _
    · split at hdelivered
      · subst hdelivered
        exact absurd rfl h
      · subst hdelivered
        exact reported_write _ _ _

theorem reported_process (hread : (w.start input).1 = some text)
    (hgives : Gives (w.start input).2 ((w.start input).2.engineRun compiler fresh text) out g)
    (h : w.process compiler input output fresh fault = (.value false, w')) : w'.Reported := by
  rw [process_of_read hread, hgives.absorbed] at h
  unfold settle at h
  dsimp only at h
  split at h
  · cases (Prod.mk.inj h).1
  · rename_i goal _
    obtain ⟨hwritten, rfl⟩ := Prod.mk.inj h
    exact reported_writeOutput (Outcome.value.inj hwritten)

theorem reported_preprocess {className namespace_ : String} {m : PreprocessedTemplate}
    (hread : (w.start input).1 = some text)
    (hgives : Gives (w.start input).2 ((w.start input).2.moduleRun text className namespace_) m g)
    (h : w.preprocess input className namespace_ output fault = (.value false, w')) : w'.Reported := by
  rw [preprocess_of_read hread, hgives.absorbed] at h
  unfold settleModule at h
  dsimp only at h
  obtain ⟨hwritten, rfl⟩ := Prod.mk.inj h
  exact reported_writeOutput (Outcome.value.inj hwritten)

/-- A run that has its output and still fails tells what could not be written. -/
theorem reported_runStaged {o : TemplateOptions} {bytes : ByteArray} {status : RunStatus}
    (houtput : Output w compiler fresh template o.outputKind g bytes)
    (h : w.runStaged compiler staging template o fresh faults = (.value status, w'))
    (hfailed : ¬ status.succeeded) : w'.Reported := by
  unfold runStaged at h
  generalize hkind : o.outputKind = kind at h houtput
  cases houtput with
  | text hread hgives _ =>
    unfold runText at h
    dsimp only at h
    generalize hprocessed : w.process compiler template (some (staging.join ⟨stagedStem template⟩)) fresh
      faults.staged = processed at h
    obtain ⟨(_ | _) | _, w₁⟩ := processed
    · obtain ⟨-, rfl⟩ := Prod.mk.inj h
      exact reported_process hread hgives hprocessed
    · obtain ⟨staged, files, bytes, -, hfile, -⟩ := process_succeeded hprocessed
      dsimp only at h
      rw [hfile] at h
      obtain ⟨hstatus, rfl⟩ := Prod.mk.inj h
      obtain rfl := Outcome.value.inj hstatus
      exact reported_deliver hfailed
    · cases (Prod.mk.inj h).1
  | source hread hgives =>
    unfold runTextGenerator at h
    dsimp only at h
    generalize hprocessed : w.preprocess template (ClassName.ofTemplate template) ""
      (some (staging.join ⟨stagedStem template ++ "." ++ sourceExtension⟩)) faults.staged = processed at h
    obtain ⟨(_ | _) | _, w₁⟩ := processed
    · obtain ⟨-, rfl⟩ := Prod.mk.inj h
      exact reported_preprocess hread hgives hprocessed
    · obtain ⟨hstatus, rfl⟩ := Prod.mk.inj h
      obtain rfl := Outcome.value.inj hstatus
      exact reported_deliver hfailed
    · cases (Prod.mk.inj h).1

theorem reported_run {status : RunStatus}
    (h : w.run compiler staging template fresh faults = (.value status, w'))
    (hfailed : ¬ status.succeeded) (hstaging : ∀ made, w.files.makeDirectory staging = .ok made →
      ∃ g bytes, Output ⟨w.generator, made⟩ compiler fresh template
        (TemplateOptions.loadOrDefault w.files template).outputKind g bytes) : w'.Reported := by
  unfold run at h
  dsimp only at h
  split at h
  · obtain ⟨-, rfl⟩ := Prod.mk.inj h
    exact ⟨_, List.mem_append_right _ (List.mem_singleton_self _), rfl, rfl⟩
  · rename_i made hmade
    obtain ⟨g, bytes, houtput⟩ := hstaging made hmade
    obtain ⟨hstatus, rfl⟩ := Prod.mk.inj h
    have hreported := reported_runStaged houtput (Prod.ext hstatus rfl) hfailed
    unfold Reported
    rw [generator_unstage]
    exact hreported

/-- **When a run gives up.** Processing ends with a result unless the compilation gives none or the output's
extension holds a slash; so does a run of a template for text. Modules are always written or reported. And
whenever there is an output that does not come to its target, this is reported, however the writing fails. -/
theorem aborts_iff (w : Generation) (compiler : Compiler) (fresh : Except FileError Unit) :
    (∀ input output fault,
      (w.process compiler input output fresh fault).1 = .aborted ↔ w.Aborts compiler fresh input) ∧
    (∀ input className namespace_ output fault,
      (w.preprocess input className namespace_ output fault).1 ≠ .aborted) ∧
    (∀ staging template faults, (w.run compiler staging template fresh faults).1 = .aborted ↔
      (TemplateOptions.loadOrDefault w.files template).outputKind = .text ∧
        ∃ made, w.files.makeDirectory staging = .ok made ∧ Aborts ⟨w.generator, made⟩ compiler fresh template) ∧
    (∀ input output fault text out g w', (w.start input).1 = some text →
      Gives (w.start input).2 ((w.start input).2.engineRun compiler fresh text) out g →
      w.process compiler input output fresh fault = (.value false, w') → w'.Reported) ∧
    (∀ input className namespace_ output fault text m g w', (w.start input).1 = some text →
      Gives (w.start input).2 ((w.start input).2.moduleRun text className namespace_) m g →
      w.preprocess input className namespace_ output fault = (.value false, w') → w'.Reported) ∧
    ∀ staging template faults status w', w.run compiler staging template fresh faults = (.value status, w') →
      ¬ status.succeeded → (∀ made, w.files.makeDirectory staging = .ok made →
        ∃ g bytes, Output ⟨w.generator, made⟩ compiler fresh template
          (TemplateOptions.loadOrDefault w.files template).outputKind g bytes) → w'.Reported :=
  ⟨fun _ _ _ => process_aborts_iff, fun _ _ _ _ _ => preprocess_not_aborted, fun _ _ _ => run_aborts_iff,
    fun _ _ _ _ _ _ _ hread hgives h => reported_process hread hgives h,
    fun _ _ _ _ _ _ _ _ _ hread hgives h => reported_preprocess hread hgives h,
    fun _ _ _ _ _ h hfailed hstaging => reported_run h hfailed hstaging⟩

def slashed : Generation :=
  { generator := {}, files := { entries := [(["t.tt"], .file "<#@ output extension='a/b' #>x".toUTF8 0)] } }

/-- A template whose module gives its output is not written where its extension holds a slash. -/
example : (slashed.process .writing ⟨"/t.tt"⟩ none).1 = .aborted := by
  have hread : slashed.files.readTemplate ⟨"/t.tt"⟩ = .ok "<#@ output extension='a/b' #>x" :=
    FileTree.readTemplate_of_read rfl rfl
  have hclear (files : FileTree) (host : Host) :
      Engine.earlyReport files host "<#@ output extension='a/b' #>x" = [] := by cbv
  have hasked (files : FileTree) (host : Host) :
      Engine.askedExtension files host "<#@ output extension='a/b' #>x" = some "a/b" := by cbv
  have hstart := start_of_read hread
  obtain ⟨r, habsorbed⟩ := absorb_writing (slashed.start ⟨"/t.tt"⟩).2 (.ok ()) "<#@ output extension='a/b' #>x"
    (by rw [hstart]) (by rw [hstart]) (hclear _ _) (by rw [hstart]; rfl) (by rw [hstart]; rfl)
  rw [process_aborts_iff]
  exact ⟨_, by rw [hstart], .inr ⟨⟨"x", _, gives_of_absorb (congrArg Prod.fst habsorbed)⟩, "a/b", hasked _ _,
    by decide⟩⟩

end Generation

end Templating
