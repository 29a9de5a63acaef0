import Mathlib
import Templating.Generation
import Templating.Proofs.Programs
import Templating.Proofs.Stages
import Templating.Proofs.Writing

/-!
# Silent failures

Every stage that fails says why, but for the execution of a module whose reply holds neither an error
nor an output. A run fails without an error exactly if its module replies so, and so does the
processing of a template file (`fails_silently_iff`).
-/

namespace Templating

namespace RunResult

theorem isSome_failedStage? {α : Type} {r : RunResult α} : r.failedStage?.isSome ↔ r.value? = none := by
  obtain ⟨_ | _, _⟩ := r <;> simp [failedStage?, value?]

end RunResult

namespace Engine

section
variable (compiler : Compiler) (files : FileTree) (recycler : Recycler) (fresh : Except FileError Unit)
  (host : Host) (text : String)

/-- The module of a run replies that nothing went wrong, and gives no output. -/
def Silent : Prop :=
  ∃ p results m process reply, Asked compiler files host text p (.ok results) ∧ ¬ results.hasErrors ∧
    results.module? = some m ∧
    Execution.Answers files recycler fresh m host.session (workingDirectory files host.templateFile)
      process reply ∧
    (Reply.parse reply).Clean ∧ (Reply.parse reply).output = none

end

section
variable {compiler : Compiler} {files : FileTree} {recycler : Recycler} {fresh : Except FileError Unit}
  {host : Host} {text : String}

theorem hasErrors_of_prepare_error {kind : UnitKind} {stage : Stage}
    (h : (prepare files host text kind).result = .error stage) :
    (prepare files host text kind).diagnostics.hasErrors := by
  have hprepares := prepare_prepares files host text kind
  generalize prepare files host text kind = prepared at h hprepares ⊢
  cases hprepares with
  | unread hparsing => exact hparsing
  | rejected _ hdirectives =>
    show (earlyReport files host text).hasErrors
    rw [earlyReport, List.append_assoc, Diagnostics.hasErrors_append, hdirectives, Bool.or_true]
  | ungenerated _ _ =>
    rw [Diagnostics.hasErrors_append]
    exact Bool.or_true _
  | ready => cases h

theorem hasErrors_moduleless {p : Preparation} {results : CompilerResult} {reported : Diagnostics}
    (htells : List.Forall₂ (Tells host p results) results.messages reported)
    (h : results.module? = none ∨ results.hasErrors) :
    Diagnostics.hasErrors (reported ++ noModule host results) := by
  have hreported : Diagnostics.hasErrors reported = results.hasErrors := hasErrors_of_tells host htells
  rw [Diagnostics.hasErrors_append, hreported, noModule]
  by_cases he : results.hasErrors
  · rw [he, Bool.true_or]
  · rw [if_pos ⟨h.resolve_right he, he⟩]
    exact Bool.or_true _

theorem executionResult_eq_error {o : ExecutionOutcome} (h : ∀ output, executionResult o ≠ .ok output)
    (he : ¬ o.diagnostics.hasErrors) : o.output = none := by
  cases ho : o.output with
  | none => rfl
  | some output => exact absurd (executionResult_eq_ok.2 ⟨ho, he⟩) (h output)

/-- Only the execution can fail without an error. -/
theorem Ends.silent_iff {run : EngineRun String} {r : RunResult String}
    (h : Ends compiler files recycler fresh host text run) (hr : run.outcome = .value r) :
    (r.failedStage?.isSome ∧ ¬ r.diagnostics.hasErrors) ↔
      Silent compiler files recycler fresh host text := by
  cases h with
  | unprepared hp =>
    obtain rfl := Outcome.value.inj hr
    refine iff_of_false (fun h => h.2 (hasErrors_of_prepare_error hp)) ?_
    rintro ⟨p, results, m, process, reply, ha, -⟩
    cases hp.symm.trans ha.prepared
  | unanswered _ _ => cases hr
  | misplaced _ _ => cases hr
  | uncompiled ha =>
    obtain rfl := Outcome.value.inj hr
    refine iff_of_false (fun h => h.2 ?_) ?_
    · rw [Diagnostics.hasErrors_append]
      exact Bool.or_true _
    · rintro ⟨p, results, m, process, reply, ha', -⟩
      cases (ha.unique ha').2
  | moduleless ha htells hstops =>
    obtain rfl := Outcome.value.inj hr
    refine iff_of_false (fun h => h.2 ?_) ?_
    · rw [Diagnostics.hasErrors_append, hasErrors_moduleless htells hstops]
      exact Bool.or_true _
    · rintro ⟨p, results, m, process, reply, ha', he, hm, -⟩
      obtain rfl := Except.ok.inj (ha.unique ha').2
      rcases hstops with hnone | he'
      · cases hm.symm.trans hnone
      · exact he he'
  | @executed p results reported m ha htells hm he =>
    obtain rfl := Outcome.value.inj hr
    obtain ⟨hearly, -, -⟩ := prepare_of_ok ha.prepared
    have hreported : ¬ Diagnostics.hasErrors reported := by
      rw [hasErrors_of_tells host htells]
      exact he
    -- Nothing before the execution reported an error, so the errors of the run are the execution's.
    have hexecution : Diagnostics.hasErrors (earlyReport files host text ++ reported ++
          (execution files recycler fresh host m).1.diagnostics) ↔
        (execution files recycler fresh host m).1.diagnostics.hasErrors := by
      simp [Diagnostics.hasErrors_append, hearly, hreported]
    rw [RunResult.isSome_failedStage?, hexecution]
    constructor
    · rintro ⟨hvalue, hclean⟩
      have hnone : (execution files recycler fresh host m).1.output = none := by
        refine executionResult_eq_error (fun output ho => ?_) hclean
        simp [RunResult.value?, ho] at hvalue
      rw [execution, Execution.run_hasErrors_iff, not_not] at hclean
      obtain ⟨process, reply, hanswers, hclean⟩ := hclean
      exact ⟨p, results, m, process, reply, ha, he, hm, hanswers, hclean,
        (Execution.run_output hanswers hclean host.templateFile).symm.trans hnone⟩
    · rintro ⟨p', results', m', process, reply, ha', -, hm', hanswers, hclean, hnone⟩
      obtain rfl := Except.ok.inj (ha.unique ha').2
      obtain rfl := Option.some.inj (hm.symm.trans hm')
      have houtput : (execution files recycler fresh host m).1.output = none :=
        (Execution.run_output hanswers hclean host.templateFile).trans hnone
      refine ⟨by simp [RunResult.value?, executionResult, houtput], ?_⟩
      rw [execution, Execution.run_hasErrors_iff, not_not]
      exact ⟨process, reply, hanswers, hclean⟩

end

end Engine

/-! ## Processing a file -/

def Effect.logged : Effect → Diagnostics
  | .log ds => ds
  | _ => []

theorem Generator.errors_foldl_observe (effects : List Effect) (g : Generator) :
    (effects.foldl observe g).errors = g.errors ++ effects.flatMap Effect.logged := by
  induction effects generalizing g with
  | nil => simp
  | cons e effects ih =>
    have hone : (g.observe e).errors = g.errors ++ e.logged := by
      cases e <;> simp [observe, Effect.logged, log, setExtension, setEncoding]
    rw [List.foldl_cons, ih, hone, List.flatMap_cons, List.append_assoc]

/-- A run tells its host its diagnostics and nothing else. -/
theorem Engine.Ends.logged {compiler : Compiler} {files : FileTree} {recycler : Recycler}
    {fresh : Except FileError Unit} {host : Host} {text : String} {run : EngineRun String}
    {r : RunResult String}
    (h : Ends compiler files recycler fresh host text run) (hr : run.outcome = .value r) :
    run.effects.flatMap Effect.logged = r.diagnostics := by
  obtain ⟨acts, hacts, ⟨haborted, -⟩ | ⟨r', hr', he⟩⟩ := h.acts
  · rw [hr] at haborted
    cases haborted
  · obtain rfl := Outcome.value.inj (hr'.symm.trans hr)
    have hsilent : acts.flatMap Effect.logged = [] := by
      refine List.flatMap_eq_nil_iff.2 fun e hmem => ?_
      have hlog := List.countP_eq_zero.1 hacts.counts.2.2 e hmem
      cases e with
      | log ds => exact absurd rfl hlog
      | _ => rfl
    rw [he, List.flatMap_append, hsilent]
    simp [Effect.logged]

namespace Generation

variable {w w' : Generation} {compiler : Compiler} {input : Path} {output : Option Path}
  {fresh : Except FileError Unit} {text : String}

theorem start_of_some (h : (w.start input).1 = some text) : (w.start input).2.generator.errors = [] := by
  unfold start at h ⊢
  dsimp only at h ⊢
  split at h
  · rfl
  · cases h

theorem hasErrors_start (h : (w.start input).1 = none) : (w.start input).2.generator.hasErrors := by
  unfold start at h ⊢
  dsimp only at h ⊢
  split at h
  · cases h
  · rfl

theorem hasErrors_report_error (w : Generation) (code message : String) (l : Location) :
    (w.report (.error code message l)).generator.hasErrors := by
  show Diagnostics.hasErrors (w.generator.errors ++ [.error code message l])
  rw [Diagnostics.hasErrors_append]
  exact Bool.or_true _

/-- What an engine's run makes of a generator without errors. -/
theorem absorb_of_value {run : EngineRun String} {r : RunResult String} (hr : run.outcome = .value r)
    (herrors : w.generator.errors = []) (hlogged : run.effects.flatMap Effect.logged = r.diagnostics) :
    (w.absorb run).1 = .value (if r.diagnostics.hasErrors then none else r.value?) ∧
      (w.absorb run).2.generator.errors = r.diagnostics := by
  have hg : (run.effects.foldl Generator.observe { w.generator with recycler := run.recycler }).errors =
      r.diagnostics := by
    rw [Generator.errors_foldl_observe, hlogged]
    show w.generator.errors ++ r.diagnostics = r.diagnostics
    rw [herrors, List.nil_append]
  unfold absorb
  rw [hr]
  exact ⟨by simp only [Generator.hasErrors, hg], hg⟩

/-- The engine's run for a template that was read. -/
def engineRun (w : Generation) (compiler : Compiler) (fresh : Except FileError Unit) (text : String) :
    EngineRun String :=
  Engine.process compiler w.files w.generator.recycler (w.generator.host w.files) text fresh

/-- Writes what the engine gave. -/
def settle (input : Path) (output : Option Path) (x : Outcome (Option String) × Generation)
    (fault : Option WriteFault := none) : Outcome Bool × Generation :=
  match x with
  | (.aborted, w) => (.aborted, w)
  | (.value none, w) => (.value false, w)
  | (.value (some text), w) =>
    match outputPath? w.generator input output with
    | none => (.aborted, w)
    | some target =>
      let (written, w) := w.writeOutput target (w.generator.encoding.encode text) fault
      (.value written, w)

theorem process_of_unread {fault : Option WriteFault} (h : (w.start input).1 = none) :
    w.process compiler input output fresh fault = (.value false, (w.start input).2) := by
  unfold process
  generalize w.start input = started at h ⊢
  obtain ⟨read, w₁⟩ := started
  subst h
  rfl

theorem process_of_read {fault : Option WriteFault} (h : (w.start input).1 = some text) :
    w.process compiler input output fresh fault =
      settle input output ((w.start input).2.absorb ((w.start input).2.engineRun compiler fresh text)) fault := by
  unfold process
  generalize w.start input = started at h ⊢
  obtain ⟨read, w₁⟩ := started
  subst h
  dsimp only
  unfold engineRun
  generalize w₁.absorb _ = absorbed
  obtain ⟨_ | _ | _, w₂⟩ := absorbed <;> rfl

theorem writeOutput_hasErrors (target : Path) (bytes : ByteArray) (fault : Option WriteFault)
    (h : ¬ w.generator.hasErrors) : (w.writeOutput target bytes fault).1 = false ↔
      (w.writeOutput target bytes fault).2.generator.hasErrors := by
  unfold writeOutput
  split
  · exact iff_of_false nofun h
  · exact iff_of_true rfl (hasErrors_report_error _ _ _ _)

/-- Once the engine is done without errors, only a value can get lost, and not without an error. -/
theorem settle_hasErrors {value : Option String} {b : Bool} {fault : Option WriteFault}
    (h : settle input output (.value value, w) fault = (.value b, w')) (hclean : ¬ w.generator.hasErrors) :
    (b = true → ¬ w'.generator.hasErrors) ∧ ((b = false ∧ ¬ w'.generator.hasErrors) ↔ value = none) := by
  cases value with
  | none =>
    obtain ⟨hb, rfl⟩ := Prod.mk.inj h
    obtain rfl := Outcome.value.inj hb
    exact ⟨nofun, iff_of_true ⟨rfl, hclean⟩ rfl⟩
  | some produced =>
    unfold settle at h
    dsimp only at h
    split at h
    · cases (Prod.mk.inj h).1
    · rename_i target _
      have hwritten := writeOutput_hasErrors target (w.generator.encoding.encode produced) fault hclean
      obtain ⟨hb, rfl⟩ := Prod.mk.inj h
      obtain rfl := Outcome.value.inj hb
      refine ⟨fun hb he => ?_, iff_of_false (fun h => h.2 (hwritten.1 h.1)) nofun⟩
      exact Bool.false_ne_true ((hwritten.2 he).symm.trans hb)

/-- The module of a template file replies that nothing went wrong, and gives no output. -/
def Silent (w : Generation) (compiler : Compiler) (input : Path) (fresh : Except FileError Unit) : Prop :=
  ∃ text, (w.start input).1 = some text ∧
    Engine.Silent compiler (w.start input).2.files (w.start input).2.generator.recycler fresh
      ((w.start input).2.generator.host (w.start input).2.files) text

theorem process_silent_iff {b : Bool} {fault : Option WriteFault}
    (h : w.process compiler input output fresh fault = (.value b, w')) :
    (b = true → ¬ w'.generator.hasErrors) ∧
      ((b = false ∧ ¬ w'.generator.hasErrors) ↔ w.Silent compiler input fresh) := by
  cases hread : (w.start input).1 with
  | none =>
    rw [process_of_unread hread] at h
    obtain ⟨hb, rfl⟩ := Prod.mk.inj h
    obtain rfl := Outcome.value.inj hb
    refine ⟨nofun, iff_of_false (fun h => h.2 (hasErrors_start hread)) ?_⟩
    rintro ⟨text, htext, -⟩
    cases hread.symm.trans htext
  | some text =>
    rw [process_of_read hread] at h
    have hempty := start_of_some hread
    have hsilent : w.Silent compiler input fresh ↔ Engine.Silent compiler (w.start input).2.files
        (w.start input).2.generator.recycler fresh
        ((w.start input).2.generator.host (w.start input).2.files) text := by
      simp [Silent, hread]
    rw [hsilent]
    generalize (w.start input).2 = w₁ at h hempty ⊢
    have hends : Engine.Ends _ _ _ _ _ _ (w₁.engineRun compiler fresh text) := Engine.process_ends ..
    cases hrun : (w₁.engineRun compiler fresh text).outcome with
    | aborted =>
      simp only [absorb, hrun] at h
      cases (Prod.mk.inj h).1
    | value r =>
      obtain ⟨hvalue, herrors⟩ := absorb_of_value hrun hempty (hends.logged hrun)
      generalize w₁.absorb _ = absorbed at h hvalue herrors
      obtain ⟨outcome, w₂⟩ := absorbed
      obtain rfl : outcome = _ := hvalue
      have hw₂ : w₂.generator.hasErrors = r.diagnostics.hasErrors := congrArg Diagnostics.hasErrors herrors
      rw [← hends.silent_iff hrun, RunResult.isSome_failedStage?]
      by_cases he : r.diagnostics.hasErrors
      · rw [if_pos he] at h
        obtain ⟨hb, rfl⟩ := Prod.mk.inj h
        obtain rfl := Outcome.value.inj hb
        exact ⟨nofun, iff_of_false (fun h => h.2 (hw₂.trans he)) fun h => h.2 he⟩
      · rw [if_neg he] at h
        obtain ⟨hwritten, hlost⟩ := settle_hasErrors h (by rwa [hw₂])
        exact ⟨hwritten, hlost.trans (by simp [he])⟩

end Generation

/-! ## Modules that are whole -/

namespace Program

/-- A program that recorded no error did not crash. -/
theorem output_of_clean {p : Program} {session : Dictionary} (h : (p.run session).Clean) :
    (p.run session).output.isSome := by
  rcases crashes_or_ends p session with ⟨entry, payload, a, hcrash⟩ | ⟨a₀, a, hsetup, hend⟩
  · rw [run_of_crashes hcrash] at h
    cases h.onlyWarnings _ (List.mem_append_right _ (List.mem_singleton_self _))
  · rw [run_of_ended hsetup hend]
    rfl

theorem not_succeeded_of_silent {p : Program} {written : Nat} {session text : String}
    (h : (p.process written session).reply.bind Text.decode? = some text) (hclean : (Reply.parse text).Clean)
    (hnone : (Reply.parse text).output = none) : ¬ (p.process written session).status.succeeded := by
  intro hsucceeded
  obtain rfl := (succeeded_process_iff h).1 hsucceeded
  rw [replyText, Reply.parse_render (p.isLine_of_mem_lines _)] at hclean hnone
  have houtput := output_of_clean hclean
  rw [hnone] at houtput
  cases houtput

end Program

/-! ## A module without an output -/

def CompiledModule.silent : CompiledModule :=
  { path := ⟨"/m"⟩, workspace := ⟨"/"⟩
    binary := .program fun _ => { reply := some "@entry initialize\n@entry transform_text\n".toUTF8 } }

def Compiler.silent : Compiler :=
  { compile := fun _ _ => .value (.ok { sourcePath := ⟨"/m.rs"⟩, module? := some .silent }) }

def Generation.oneTemplate : Generation :=
  { generator := {}, files := { entries := [(["t.tt"], .file "x".toUTF8 0)] } }

theorem Engine.not_hasErrors_plain (files : FileTree) (host : Host) :
    ¬ (earlyReport files host "x").hasErrors := by
  have hempty : earlyReport files host "x" = [] := by cbv
  rw [hempty]
  decide

theorem Engine.prepare_of_clear {files : FileTree} {host : Host} {text : String}
    (h : ¬ (earlyReport files host text).hasErrors) :
    ∃ p, (prepare files host text .executable).result = .ok p := by
  have hprepares := prepare_prepares files host text .executable
  obtain ⟨hparsing, hsettings, hrouting⟩ := (not_hasErrors_earlyReport files host text).1 h
  generalize prepare files host text .executable = prepared at hprepares ⊢
  cases hprepares with
  | unread he => exact absurd he hparsing
  | rejected _ he =>
    rw [Diagnostics.hasErrors_append, Bool.or_eq_true] at he
    exact absurd he (not_or.2 ⟨hsettings, hrouting⟩)
  | ungenerated _ he =>
    obtain ⟨u, hu⟩ := GeneratedUnit.generate_executable (unitInput files host text)
    cases he.symm.trans hu
  | ready _ _ => exact ⟨_, rfl⟩

theorem Engine.silent_of_clear {files : FileTree} {recycler : Recycler} {fresh : Except FileError Unit}
    {host : Host} {text : String} (h : ¬ (earlyReport files host text).hasErrors)
    (hsandbox : (recycler.acquire fresh).1.isOk)
    (hstarted : (workingDirectory files host.templateFile).bind files.enterError? = none) :
    Silent .silent files recycler fresh host text := by
  obtain ⟨p, hp⟩ := prepare_of_clear h
  refine ⟨p, _, .silent, _, "@entry initialize\n@entry transform_text\n", ⟨hp, rfl⟩, nofun, rfl,
    ⟨hsandbox, ⟨_, rfl, rfl⟩, ?_, rfl, Text.decode_toUTF8 _⟩, ⟨rfl, rfl, nofun⟩, rfl⟩
  unfold Execution.startError?
  rw [hstarted]
  rfl

theorem Engine.outcome_silent (files : FileTree) (recycler : Recycler) (fresh : Except FileError Unit)
    (host : Host) (text : String) :
    ∃ r, (process .silent files recycler host text fresh).outcome = .value r := by
  have hends := process_ends .silent files recycler fresh host text
  generalize process .silent files recycler host text fresh = run at hends ⊢
  cases hends with
  | unanswered _ ha => cases ha
  | misplaced ha hall =>
    obtain rfl := Except.ok.inj (Outcome.value.inj ha.answered)
    cases hall
  | _ => exact ⟨_, rfl⟩

theorem Generation.silent_oneTemplate : oneTemplate.Silent .silent ⟨"/t.tt"⟩ (.ok ()) := by
  have hread : (oneTemplate.start ⟨"/t.tt"⟩).1 = some "x" := by cbv
  have hfile : (oneTemplate.start ⟨"/t.tt"⟩).2.generator.templateFile = some "/t.tt" := by cbv
  refine ⟨"x", hread, Engine.silent_of_clear (Engine.not_hasErrors_plain _ _) rfl ?_⟩
  show (Engine.workingDirectory oneTemplate.files (oneTemplate.start ⟨"/t.tt"⟩).2.generator.templateFile).bind
    oneTemplate.files.enterError? = none
  rw [hfile]
  cbv

theorem Generation.process_of_silent {w : Generation} {compiler : Compiler} {input : Path}
    {fresh : Except FileError Unit} (h : w.Silent compiler input fresh)
    (hr : ∀ text, ∃ r, ((w.start input).2.engineRun compiler fresh text).outcome = .value r)
    (output : Option Path) : ∃ w', w.process compiler input output fresh = (.value false, w') := by
  obtain ⟨text, hread, hsilent⟩ := h
  rw [process_of_read hread]
  have hempty := start_of_some hread
  obtain ⟨r, hr⟩ := hr text
  generalize (w.start input).2 = w₁ at hr hempty hsilent ⊢
  have hends : Engine.Ends _ _ _ _ _ _ (w₁.engineRun compiler fresh text) := Engine.process_ends ..
  obtain ⟨hfailed, -⟩ := (hends.silent_iff hr).2 hsilent
  obtain ⟨hvalue, -⟩ := absorb_of_value hr hempty (hends.logged hr)
  rw [RunResult.isSome_failedStage?.1 hfailed, ite_self] at hvalue
  generalize w₁.absorb _ = absorbed at hvalue ⊢
  obtain ⟨outcome, w₂⟩ := absorbed
  obtain rfl : outcome = _ := hvalue
  exact ⟨w₂, rfl⟩

/-! ## Failing without an error -/

/-- **When a failure is silent.** A run without errors has its output, and a file that was processed
without errors is written, but for one case: the module's process left a reply with no error and no
output. A program's process whose reply was written as a whole never does so. -/
theorem fails_silently_iff (compiler : Compiler) (fresh : Except FileError Unit) :
    (∀ files recycler host text r,
      (Engine.process compiler files recycler host text fresh).outcome = .value r →
        (r.failedStage? = none → ¬ r.diagnostics.hasErrors) ∧
          ((r.failedStage?.isSome ∧ ¬ r.diagnostics.hasErrors) ↔
            Engine.Silent compiler files recycler fresh host text)) ∧
    (∀ (w w' : Generation) input output fault b,
      w.process compiler input output fresh fault = (.value b, w') →
        (b = true → ¬ w'.generator.hasErrors) ∧
          ((b = false ∧ ¬ w'.generator.hasErrors) ↔ w.Silent compiler input fresh)) ∧
    ∀ (p : Program) written session text,
      (p.process written session).reply.bind Text.decode? = some text → (Reply.parse text).Clean →
        (Reply.parse text).output = none → ¬ (p.process written session).status.succeeded := by
  refine ⟨?_, ?_, ?_⟩
  · intro files recycler host text r hr
    have hends := Engine.process_ends compiler files recycler fresh host text
    refine ⟨fun hfailed => ?_, hends.silent_iff hr⟩
    cases hvalue : r.value? with
    | some output => exact (hends.succeeded hr hvalue).2
    | none =>
      have hfailed' := RunResult.isSome_failedStage?.2 hvalue
      rw [hfailed] at hfailed'
      cases hfailed'
  · intro w w' input output fault b h
    exact Generation.process_silent_iff h
  · intro p written session text h hclean hnone
    exact Program.not_succeeded_of_silent h hclean hnone

theorem fails_silently_iff_noOutput :
    (∃ r, (Engine.process .silent {} (.new 20) { templateFile := none } "x").outcome = .value r ∧
      r.failedStage?.isSome ∧ ¬ r.diagnostics.hasErrors) ∧
    (∃ w', Generation.oneTemplate.process .silent ⟨"/t.tt"⟩ none = (.value false, w') ∧
      ¬ w'.generator.hasErrors) ∧
    ¬ (Program.cutOff.process 40 (Session.render {})).status.succeeded := by
  obtain ⟨hengine, hfile, hprogram⟩ := fails_silently_iff .silent (.ok ())
  refine ⟨?_, ?_, ?_⟩
  · obtain ⟨r, hr⟩ := Engine.outcome_silent {} (.new 20) (.ok ()) { templateFile := none } "x"
    refine ⟨r, hr, (hengine _ _ _ _ _ hr).2.2 ?_⟩
    exact Engine.silent_of_clear (Engine.not_hasErrors_plain _ _) rfl rfl
  · have hsilent := Generation.silent_oneTemplate
    obtain ⟨w', h⟩ := Generation.process_of_silent hsilent (fun text => Engine.outcome_silent ..) none
    exact ⟨w', h, ((hfile _ _ _ _ _ _ h).2.2 hsilent).2⟩
  · exact hprogram .cutOff 40 _ "@entry initialize\n@entry transform_text\n"
      (Program.reply_cutOff (by decide +kernel)) ⟨rfl, rfl, nofun⟩ rfl

end Templating
