import Mathlib.Data.List.Forall2
import Templating.Engine
import Templating.Proofs.Executing

/-!
# Stages of a run

A run goes through its stages in order and ends at the first that fails (`process_ends`). So nothing is
compiled, set or executed after an error, and the diagnostics of a run are the reports of its stages up
to the last one it came to (`process_stopsAtFailure`).
-/

namespace Templating

def Effect.isCompile : Effect → Bool
  | .compile _ => true
  | _ => false

def Effect.isLog : Effect → Bool
  | .log _ => true
  | _ => false

theorem Outcome.all_eq_aborted_iff {α : Type} {os : List (Outcome α)} : all os = .aborted ↔ .aborted ∈ os := by
  induction os with
  | nil => simp [all]
  | cons o os ih =>
    cases o with
    | aborted => simp [all, Outcome.bind]
    | value a =>
      rw [all, Outcome.bind, List.mem_cons, ← ih]
      cases all os with
      | aborted => simp [Outcome.map]
      | value as => simp [Outcome.map]

theorem exists_of_mem_forall₂ {α β : Type} {R : α → β → Prop} {as : List α} {bs : List β} {a : α}
    (h : List.Forall₂ R as bs) (ha : a ∈ as) : ∃ b ∈ bs, R a b := by
  induction h with
  | nil => cases ha
  | cons hr _ ih =>
    rcases List.mem_cons.1 ha with rfl | ha
    · exact ⟨_, List.mem_cons_self, hr⟩
    · obtain ⟨b, hb, hr⟩ := ih ha
      exact ⟨b, List.mem_cons_of_mem _ hb, hr⟩

namespace Engine

section
variable (compiler : Compiler) (files : FileTree) (recycler : Recycler) (fresh : Except FileError Unit)
  (host : Host) (text : String) (kind : UnitKind)

/-! ## Preparing -/

def parsed : Template :=
  Template.ofText files host.includes host.templateFile text

def settingsReport : Diagnostics :=
  (TemplateSettings.ofTemplate (parsed files host text)).2

def routingReport : Diagnostics :=
  (Routing.ofTemplate host (parsed files host text)).2

def unitInput : UnitInput :=
  let settings := (TemplateSettings.ofTemplate (parsed files host text)).1
  { template := parsed files host text
    settings
    code := (Routing.ofTemplate host (parsed files host text)).1
    imports := host.standardImports ++ settings.imports
    templateFile := host.templateFile }

def generated : Except UnitError GeneratedUnit :=
  GeneratedUnit.generate (unitInput files host text) kind

/-- What is reported before the unit is generated. -/
def earlyReport : Diagnostics :=
  (parsed files host text).errors ++ settingsReport files host text ++ routingReport files host text

/-- All goes well up to the generated unit. -/
structure Clear : Prop where
  parsing : ¬ (parsed files host text).errors.hasErrors
  settings : ¬ (settingsReport files host text).hasErrors
  routing : ¬ (routingReport files host text).hasErrors
  unit : ∃ unit, generated files host text kind = .ok unit

/-- The ways in which the stages before compilation end. -/
inductive Prepares : RunResult Preparation → Prop
  | unread : (parsed files host text).errors.hasErrors →
      Prepares ⟨.error (parseStage (parsed files host text).errors), (parsed files host text).errors⟩
  | rejected : ¬ (parsed files host text).errors.hasErrors →
      Diagnostics.hasErrors (settingsReport files host text ++ routingReport files host text) →
      Prepares ⟨.error .directiveProcessing, earlyReport files host text⟩
  | ungenerated {e} : ¬ (earlyReport files host text).hasErrors → generated files host text kind = .error e →
      Prepares ⟨.error .codeGenerating, earlyReport files host text ++ [unitDiagnostic host.templateFile e]⟩
  | ready {p} : ¬ (earlyReport files host text).hasErrors → generated files host text kind = .ok p.unit →
      Prepares ⟨.ok p, earlyReport files host text⟩

theorem not_hasErrors_earlyReport : ¬ (earlyReport files host text).hasErrors ↔
    ¬ (parsed files host text).errors.hasErrors ∧ ¬ (settingsReport files host text).hasErrors ∧
      ¬ (routingReport files host text).hasErrors := by
  simp only [earlyReport, Diagnostics.hasErrors_append, Bool.or_eq_true, not_or, and_assoc]

theorem prepare_prepares : Prepares files host text kind (prepare files host text kind) := by
  unfold prepare
  dsimp only
  split
  · rename_i hparsed
    exact .unread hparsed
  · rename_i hparsed
    split
    · rename_i hearly
      have hlater : (earlyReport files host text).hasErrors := hearly
      rw [earlyReport, List.append_assoc, Diagnostics.hasErrors_append, Bool.or_eq_true] at hlater
      exact .rejected hparsed (hlater.resolve_left hparsed)
    · rename_i hearly
      split
      · rename_i hunit
        exact .ungenerated hearly hunit
      · rename_i hunit
        exact .ready hearly hunit

variable {files host text kind} in
theorem prepare_of_ok {p : Preparation} (h : (prepare files host text kind).result = .ok p) :
    ¬ (earlyReport files host text).hasErrors ∧ generated files host text kind = .ok p.unit ∧
      (prepare files host text kind).diagnostics = earlyReport files host text := by
  have hp := prepare_prepares files host text kind
  cases hr : prepare files host text kind with
  | mk result diagnostics =>
    rw [hr] at h hp
    cases hp with
    | unread => cases h
    | rejected => cases h
    | ungenerated => cases h
    | ready hearly hunit =>
      obtain rfl := Except.ok.inj h
      exact ⟨hearly, hunit, rfl⟩

/-! ## Compiling -/

def request (p : Preparation) : CompileRequest :=
  ⟨p.unit.source, { references := p.references, debugInformation := p.settings.debug }⟩

def requestEffects (p : Preparation) : List Effect :=
  settingEffects p.settings ++ [.compile (request p)]

/-- A unit is prepared and given to the compiler, which answers. -/
structure Asked (p : Preparation) (answer : Except Failure CompilerResult) : Prop where
  prepared : (prepare files host text .executable).result = .ok p
  answered : compiler.compile (request p).source (request p).parameters = .value answer

variable {compiler files host text} in
theorem Asked.unique {p p' : Preparation} {answer answer' : Except Failure CompilerResult}
    (h : Asked compiler files host text p answer) (h' : Asked compiler files host text p' answer') :
    p = p' ∧ answer = answer' := by
  obtain rfl := Except.ok.inj (h.prepared.symm.trans h'.prepared)
  exact ⟨rfl, Outcome.value.inj (h.answered.symm.trans h'.answered)⟩

/-- A diagnostic tells a message of the compiler. -/
structure Tells (p : Preparation) (results : CompilerResult) (m : CompilerMessage) (d : Diagnostic) :
    Prop where
  place : ofCompilerMessage results.sourcePath p.unit host.templateFile m = .value d
  severity : d.severity = if m.isWarning then .warning else .error

theorem ofCompilerMessage_severity {source : Path} {unit : GeneratedUnit} {root : Option String}
    {m : CompilerMessage} {d : Diagnostic} (h : ofCompilerMessage source unit root m = .value d) :
    d.severity = if m.isWarning then .warning else .error := by
  unfold ofCompilerMessage at h
  dsimp only at h
  generalize (if (concernsUnit m source && decide (0 < m.line)) = true then
    unit.lineMap.locate m.line m.column else Outcome.value none) = place at h
  cases place with
  | aborted => cases h
  | value place =>
    obtain rfl := Outcome.value.inj h
    rfl

theorem tells_of_all {p : Preparation} {results : CompilerResult} :
    ∀ {ms : List CompilerMessage} {ds : Diagnostics},
    Outcome.all (ms.map (ofCompilerMessage results.sourcePath p.unit host.templateFile)) = .value ds →
    List.Forall₂ (Tells host p results) ms ds
  | [], ds, h => by
    obtain rfl := Outcome.value.inj h
    exact .nil
  | m :: ms, ds, h => by
    rw [List.map_cons, Outcome.all] at h
    cases hm : ofCompilerMessage results.sourcePath p.unit host.templateFile m with
    | aborted => rw [hm] at h; cases h
    | value d =>
      rw [hm, Outcome.bind] at h
      cases hms : Outcome.all (ms.map (ofCompilerMessage results.sourcePath p.unit host.templateFile)) with
      | aborted => rw [hms] at h; cases h
      | value ds' =>
        rw [hms] at h
        obtain rfl := Outcome.value.inj h
        exact .cons ⟨hm, ofCompilerMessage_severity hm⟩ (tells_of_all hms)

theorem hasErrors_of_tells {p : Preparation} {results : CompilerResult} {ms : List CompilerMessage}
    {ds : Diagnostics} (h : List.Forall₂ (Tells host p results) ms ds) :
    Diagnostics.hasErrors ds = ms.any fun m => !m.isWarning := by
  induction h with
  | nil => rfl
  | cons hd _ ih =>
    rw [List.any_cons, ← ih, Diagnostics.hasErrors, List.any_cons, Diagnostic.isError, hd.severity]
    congr 1
    split <;> simp_all

/-- What the compiler's stage adds if there is neither a module nor an error to explain it. -/
def noModule (results : CompilerResult) : Diagnostics :=
  if results.module? = none ∧ ¬ results.hasErrors then
    [.error "TT3001" "compiler produced no module" (.whole host.templateFile)]
  else []

/-! ## Running -/

def ended (result : Except Stage String) (ds : Diagnostics) (effects : List Effect) (recycler : Recycler) :
    EngineRun String :=
  ⟨.value ⟨result, ds⟩, effects ++ [.log ds], recycler⟩

def executionResult (o : ExecutionOutcome) : Except Stage String :=
  match o.output with
  | some output => if o.diagnostics.hasErrors then .error .executing else .ok output
  | none => .error .executing

/-- The execution of a module in a run. -/
def execution (m : CompiledModule) : ExecutionOutcome × Recycler :=
  Execution.run files recycler fresh m host.session (workingDirectory files host.templateFile)
    host.templateFile

/-- The ways in which a run ends. -/
inductive Ends : EngineRun String → Prop
  | unprepared {stage} : (prepare files host text .executable).result = .error stage →
      Ends (ended (.error stage) (prepare files host text .executable).diagnostics [] recycler)
  | unanswered {p} : (prepare files host text .executable).result = .ok p →
      compiler.compile (request p).source (request p).parameters = .aborted →
      Ends ⟨.aborted, requestEffects p, recycler⟩
  | misplaced {p results} : Asked compiler files host text p (.ok results) →
      Outcome.all (results.messages.map (ofCompilerMessage results.sourcePath p.unit host.templateFile)) =
        .aborted →
      Ends ⟨.aborted, requestEffects p, recycler⟩
  | uncompiled {p e} : Asked compiler files host text p (.error e) →
      Ends (ended (.error .compiling) (earlyReport files host text ++
        [.error "TT5003" ("failed to compile template: " ++ e.message) (.whole host.templateFile)])
        (requestEffects p) recycler)
  | moduleless {p results reported} : Asked compiler files host text p (.ok results) →
      List.Forall₂ (Tells host p results) results.messages reported →
      results.module? = none ∨ results.hasErrors →
      Ends (ended (.error .compiling) (earlyReport files host text ++ (reported ++ noModule host results))
        (requestEffects p) recycler)
  | executed {p results reported m} : Asked compiler files host text p (.ok results) →
      List.Forall₂ (Tells host p results) results.messages reported →
      results.module? = some m → ¬ results.hasErrors →
      Ends (ended (executionResult (execution files recycler fresh host m).1)
        (earlyReport files host text ++ reported ++ (execution files recycler fresh host m).1.diagnostics)
        (requestEffects p ++ [.execute]) (execution files recycler fresh host m).2)

variable {compiler files host text} in
theorem finish_ends {p : Preparation} {answer : Except Failure CompilerResult}
    (h : Asked compiler files host text p answer) :
    Ends compiler files recycler fresh host text (finish files recycler fresh host p
      (earlyReport files host text) (requestEffects p) answer) := by
  obtain ⟨hearly, -, -⟩ := prepare_of_ok h.prepared
  unfold finish
  cases answer with
  | error e => exact .uncompiled h
  | ok results =>
    dsimp only
    cases hall : Outcome.all (results.messages.map
        (ofCompilerMessage results.sourcePath p.unit host.templateFile)) with
    | aborted => exact .misplaced h hall
    | value reported =>
      have htells := tells_of_all host hall
      have hreported : Diagnostics.hasErrors reported = results.hasErrors := hasErrors_of_tells host htells
      have hnoModule : (results.module? = none ∨ results.hasErrors) → ∀ ds,
          ds = earlyReport files host text ++ reported →
          (if ds.hasErrors then ds
            else ds ++ [.error "TT3001" "compiler produced no module" (.whole host.templateFile)]) =
          earlyReport files host text ++ (reported ++ noModule host results) := by
        rintro hstops ds rfl
        rw [Diagnostics.hasErrors_append, hreported, Bool.eq_false_iff.2 hearly, Bool.false_or, noModule]
        by_cases he : results.hasErrors
        · rw [if_pos he, if_neg fun hn => hn.2 he, List.append_nil]
        · rw [if_neg he, if_pos ⟨hstops.resolve_right he, he⟩, List.append_assoc]
      dsimp only
      cases hm : results.module? with
      | none =>
        dsimp only
        rw [hnoModule (.inl hm) _ rfl]
        exact .moduleless h htells (.inl hm)
      | some m =>
        dsimp only
        by_cases he : results.hasErrors
        · rw [if_pos he, hnoModule (.inr he) _ rfl]
          exact .moduleless h htells (.inr he)
        · rw [if_neg he]
          have hrun : Ends compiler files recycler fresh host text _ := .executed h htells hm he
          unfold ended executionResult execution at hrun
          generalize Execution.run files recycler fresh m host.session
            (workingDirectory files host.templateFile) host.templateFile = x at hrun ⊢
          obtain ⟨⟨output, diagnostics⟩, r⟩ := x
          cases output with
          | none => exact hrun
          | some output =>
            dsimp only at hrun ⊢
            split <;> simp_all

theorem process_ends : Ends compiler files recycler fresh host text
    (process compiler files recycler host text fresh) := by
  unfold process
  dsimp only
  split
  · rename_i hp
    exact .unprepared hp
  · rename_i p hp
    obtain ⟨-, -, hreport⟩ := prepare_of_ok hp
    rw [hreport]
    split
    · rename_i ha
      exact .unanswered hp ha
    · rename_i ha
      exact finish_ends recycler fresh ⟨hp, ha⟩

/-! ## What a run does -/

/-- The condition under which a run may do something. -/
def Allowed : Effect → Prop
  | .setExtension _ | .setEncoding _ | .compile _ => Clear files host text .executable
  | .execute => ∃ p results, Asked compiler files host text p (.ok results) ∧ results.module?.isSome ∧
      ∀ m ∈ results.messages, m.isWarning
  | .log _ => True

/-- What a run does before it ends. -/
inductive Acts : List Effect → Prop
  | nothing : Acts []
  | compiling {p} : (prepare files host text .executable).result = .ok p → Acts (requestEffects p)
  | executing {p results} : Asked compiler files host text p (.ok results) → results.module?.isSome →
      ¬ results.hasErrors → Acts (requestEffects p ++ [.execute])

section
variable {compiler files recycler fresh host text}

theorem mem_settingEffects {s : TemplateSettings} {e : Effect} (h : e ∈ settingEffects s) :
    (∃ ext, e = .setExtension ext) ∨ ∃ encoding, e = .setEncoding encoding := by
  rcases List.mem_append.1 h with h | h
  · obtain ⟨ext, -, rfl⟩ := Option.map_eq_some_iff.1 (Option.mem_toList.1 h)
    exact .inl ⟨ext, rfl⟩
  · obtain ⟨encoding, -, rfl⟩ := Option.map_eq_some_iff.1 (Option.mem_toList.1 h)
    exact .inr ⟨encoding, rfl⟩

theorem clear_of_ok {p : Preparation} (h : (prepare files host text .executable).result = .ok p) :
    Clear files host text .executable := by
  obtain ⟨hearly, hunit, -⟩ := prepare_of_ok h
  obtain ⟨hparsing, hsettings, hrouting⟩ := (not_hasErrors_earlyReport files host text).1 hearly
  exact ⟨hparsing, hsettings, hrouting, p.unit, hunit⟩

theorem Ends.acts {run : EngineRun String} (h : Ends compiler files recycler fresh host text run) :
    ∃ acts, Acts compiler files host text acts ∧
      ((run.outcome = .aborted ∧ run.effects = acts) ∨
        ∃ r, run.outcome = .value r ∧ run.effects = acts ++ [.log r.diagnostics]) := by
  cases h with
  | unprepared _ => exact ⟨[], .nothing, .inr ⟨_, rfl, rfl⟩⟩
  | unanswered hp _ => exact ⟨_, .compiling hp, .inl ⟨rfl, rfl⟩⟩
  | misplaced ha _ => exact ⟨_, .compiling ha.prepared, .inl ⟨rfl, rfl⟩⟩
  | uncompiled ha => exact ⟨_, .compiling ha.prepared, .inr ⟨_, rfl, rfl⟩⟩
  | moduleless ha _ _ => exact ⟨_, .compiling ha.prepared, .inr ⟨_, rfl, rfl⟩⟩
  | executed ha _ hm he => exact ⟨_, .executing ha (by rw [hm]; rfl) he, .inr ⟨_, rfl, rfl⟩⟩

theorem Acts.allowed {acts : List Effect} (h : Acts compiler files host text acts) :
    ∀ e ∈ acts, Allowed compiler files host text e := by
  have hrequest : ∀ {p}, (prepare files host text .executable).result = .ok p →
      ∀ e ∈ requestEffects p, Allowed compiler files host text e := by
    intro p hp e he
    have hclear := clear_of_ok hp
    rcases List.mem_append.1 he with he | he
    · rcases mem_settingEffects he with ⟨ext, rfl⟩ | ⟨encoding, rfl⟩
      · exact hclear
      · exact hclear
    · obtain rfl := List.mem_singleton.1 he
      exact hclear
  cases h with
  | nothing => exact nofun
  | compiling hp => exact hrequest hp
  | executing ha hm he =>
    intro e hmem
    rcases List.mem_append.1 hmem with hmem | hmem
    · exact hrequest ha.prepared e hmem
    · obtain rfl := List.mem_singleton.1 hmem
      refine ⟨_, _, ha, hm, fun m hmsg => ?_⟩
      by_contra hw
      exact he (List.any_eq_true.2 ⟨m, hmsg, by simpa using hw⟩)

theorem countP_requestEffects {f : Effect → Bool} (hext : ∀ ext, f (.setExtension ext) = false)
    (hencoding : ∀ encoding, f (.setEncoding encoding) = false) (p : Preparation) :
    (requestEffects p).countP f = if f (.compile (request p)) then 1 else 0 := by
  have hsettings : (settingEffects p.settings).countP f = 0 := by
    refine List.countP_eq_zero.2 fun e he hf => ?_
    rcases mem_settingEffects he with ⟨ext, rfl⟩ | ⟨encoding, rfl⟩
    · rw [hext] at hf
      cases hf
    · rw [hencoding] at hf
      cases hf
  rw [requestEffects, List.countP_append, hsettings, Nat.zero_add, List.countP_singleton]

theorem Acts.counts {acts : List Effect} (h : Acts compiler files host text acts) :
    acts.countP Effect.isCompile ≤ 1 ∧ acts.count .execute ≤ 1 ∧ acts.countP Effect.isLog = 0 := by
  have hcompile : ∀ p, (requestEffects p).countP Effect.isCompile = 1 :=
    countP_requestEffects (fun _ => rfl) fun _ => rfl
  have hexecute : ∀ p, (requestEffects p).count .execute = 0 :=
    countP_requestEffects (fun _ => rfl) fun _ => rfl
  have hlog : ∀ p, (requestEffects p).countP Effect.isLog = 0 :=
    countP_requestEffects (fun _ => rfl) fun _ => rfl
  cases h with
  | nothing => decide
  | compiling hp =>
    rw [hcompile, hexecute, hlog]
    decide
  | executing ha =>
    rw [List.countP_append, List.count_append, List.countP_append, hcompile, hexecute, hlog]
    decide

end

/-! ## What a run reports -/

/-- What a stage reports when a run comes to it. -/
inductive Reports : Stage → Diagnostics → Prop
  | parsing : Reports .parsing (parsed files host text).errors
  | directives :
      Reports .directiveProcessing (settingsReport files host text ++ routingReport files host text)
  | generated {unit} : generated files host text .executable = .ok unit → Reports .codeGenerating []
  | ungenerated {e} : generated files host text .executable = .error e →
      Reports .codeGenerating [unitDiagnostic host.templateFile e]
  | uncompiled {p e} : Asked compiler files host text p (.error e) → Reports .compiling
      [.error "TT5003" ("failed to compile template: " ++ e.message) (.whole host.templateFile)]
  | compiled {p results reported} : Asked compiler files host text p (.ok results) →
      List.Forall₂ (Tells host p results) results.messages reported →
      Reports .compiling (reported ++ noModule host results)
  | executing {p results m} : Asked compiler files host text p (.ok results) → results.module? = some m →
      Reports .executing (execution files recycler fresh host m).1.diagnostics

/-- The stage that a run which ended so came to. A text without tokens is found while parsing. -/
def lastStage : Option Stage → Stage
  | none => .executing
  | some .tokenizing => .parsing
  | some s => s

/-- The stages that a run went through, each with its report. -/
structure Trail (trail : List (Stage × Diagnostics)) (r : RunResult String) : Prop where
  stages : trail.map Prod.fst <+:
    [.parsing, .directiveProcessing, .codeGenerating, .compiling, .executing]
  last : trail.getLast?.map Prod.fst = some (lastStage r.failedStage?)
  reports : ∀ x ∈ trail, Reports compiler files recycler fresh host text x.1 x.2
  passed : ∀ x ∈ trail.dropLast, ¬ x.2.hasErrors
  diagnostics : r.diagnostics = trail.flatMap Prod.snd

/-- A compilation that a run gets no result from: the compiler gives up, or a message of its answer cannot
be placed. -/
inductive Abandoned : Prop
  | unanswered {p} : (prepare files host text .executable).result = .ok p →
      compiler.compile (request p).source (request p).parameters = .aborted → Abandoned
  | misplaced {p results m} : Asked compiler files host text p (.ok results) → m ∈ results.messages →
      ofCompilerMessage results.sourcePath p.unit host.templateFile m = .aborted → Abandoned

/-- No stage of a run comes after an error, and a run has a result unless its compilation is abandoned. -/
structure StopsAtFailure (run : EngineRun String) : Prop where
  ends : (∃ r, run.outcome = .value r) ↔ ¬ Abandoned compiler files host text
  compiles_once : run.effects.countP Effect.isCompile ≤ 1
  executes_once : run.effects.count .execute ≤ 1
  allowed : ∀ e ∈ run.effects, Allowed compiler files host text e
  told : ∀ r, run.outcome = .value r →
    ∃ acts, run.effects = acts ++ [.log r.diagnostics] ∧ ∀ e ∈ acts, ¬ e.isLog
  succeeded : ∀ r, run.outcome = .value r → ∀ output, r.value? = some output →
    r.failedStage? = none ∧ ¬ r.diagnostics.hasErrors
  reported : ∀ r, run.outcome = .value r → ∃ trail, Trail compiler files recycler fresh host text trail r

section
variable {compiler files recycler fresh host text}

theorem trail_of_early {r : RunResult String} (later : List (Stage × Diagnostics))
    (hearly : ¬ (earlyReport files host text).hasErrors)
    (hstages : later.map Prod.fst <+: [.codeGenerating, .compiling, .executing])
    (hlast : later.getLast?.map Prod.fst = some (lastStage r.failedStage?))
    (hreports : ∀ x ∈ later, Reports compiler files recycler fresh host text x.1 x.2)
    (hpassed : ∀ x ∈ later.dropLast, ¬ x.2.hasErrors)
    (hds : r.diagnostics = earlyReport files host text ++ later.flatMap Prod.snd) :
    ∃ trail, Trail compiler files recycler fresh host text trail r := by
  obtain ⟨hparsing, hsettings, hrouting⟩ := (not_hasErrors_earlyReport files host text).1 hearly
  have hne : later ≠ [] := by
    rintro rfl
    cases hlast
  have hdirectives :
      ¬ Diagnostics.hasErrors (settingsReport files host text ++ routingReport files host text) := by
    rw [Diagnostics.hasErrors_append, Bool.or_eq_true, not_or]
    exact ⟨hsettings, hrouting⟩
  refine ⟨(.parsing, (parsed files host text).errors) ::
    (.directiveProcessing, settingsReport files host text ++ routingReport files host text) :: later,
    ?_, ?_, ?_, ?_, ?_⟩
  · rw [List.map_cons, List.map_cons]
    exact (List.prefix_append_right_inj [.parsing, .directiveProcessing]).2 hstages
  · rw [List.getLast?_cons_of_ne_nil (List.cons_ne_nil _ _), List.getLast?_cons_of_ne_nil hne]
    exact hlast
  · exact List.forall_mem_cons.2 ⟨.parsing, List.forall_mem_cons.2 ⟨.directives, hreports⟩⟩
  · rw [List.dropLast_cons_of_ne_nil (List.cons_ne_nil _ _), List.dropLast_cons_of_ne_nil hne]
    exact List.forall_mem_cons.2 ⟨hparsing, List.forall_mem_cons.2 ⟨hdirectives, hpassed⟩⟩
  · rw [hds, List.flatMap_cons, List.flatMap_cons, earlyReport, List.append_assoc, List.append_assoc,
      List.append_assoc]

theorem trail_of_error {stage : Stage} (hp : (prepare files host text .executable).result = .error stage) :
    ∃ trail, Trail compiler files recycler fresh host text trail
      ⟨.error stage, (prepare files host text .executable).diagnostics⟩ := by
  have hprepares := prepare_prepares files host text .executable
  generalize prepare files host text .executable = prepared at hp hprepares ⊢
  cases hprepares with
  | unread hparsing =>
    obtain rfl := Except.error.inj hp
    have hlast :
        some Stage.parsing = some (lastStage (some (parseStage (parsed files host text).errors))) := by
      unfold parseStage
      split <;> rfl
    exact ⟨[(.parsing, (parsed files host text).errors)], by simp, hlast,
      List.forall_mem_singleton.2 .parsing, by simp, by simp⟩
  | rejected hparsing =>
    obtain rfl := Except.error.inj hp
    exact ⟨[(.parsing, (parsed files host text).errors),
        (.directiveProcessing, settingsReport files host text ++ routingReport files host text)],
      by simp, rfl, List.forall_mem_cons.2 ⟨.parsing, List.forall_mem_singleton.2 .directives⟩,
      List.forall_mem_singleton.2 hparsing, by simp [earlyReport]⟩
  | @ungenerated e hearly hunit =>
    obtain rfl := Except.error.inj hp
    exact trail_of_early [(.codeGenerating, [unitDiagnostic host.templateFile e])] hearly (by simp) rfl
      (List.forall_mem_singleton.2 (.ungenerated hunit)) (by simp) (by simp)
  | ready => cases hp

theorem executionResult_eq_ok {o : ExecutionOutcome} {output : String} :
    executionResult o = .ok output ↔ o.output = some output ∧ ¬ o.diagnostics.hasErrors := by
  unfold executionResult
  cases o.output with
  | none => simp
  | some output' => by_cases he : o.diagnostics.hasErrors <;> simp [he]

theorem lastStage_executionResult (o : ExecutionOutcome) (ds : Diagnostics) :
    lastStage (RunResult.mk (executionResult o) ds).failedStage? = .executing := by
  unfold executionResult
  split
  · split <;> rfl
  · rfl

theorem Ends.trail {run : EngineRun String} {r : RunResult String}
    (h : Ends compiler files recycler fresh host text run) (hr : run.outcome = .value r) :
    ∃ trail, Trail compiler files recycler fresh host text trail r := by
  have hnone : ¬ Diagnostics.hasErrors [] := by decide
  cases h with
  | unprepared hp =>
    obtain rfl := Outcome.value.inj hr
    exact trail_of_error hp
  | unanswered _ _ => cases hr
  | misplaced _ _ => cases hr
  | @uncompiled p e ha =>
    obtain rfl := Outcome.value.inj hr
    obtain ⟨hearly, hunit, -⟩ := prepare_of_ok ha.prepared
    exact trail_of_early [(.codeGenerating, []), (.compiling, _)] hearly (by simp) rfl
      (List.forall_mem_cons.2 ⟨.generated hunit, List.forall_mem_singleton.2 (.uncompiled ha)⟩)
      (List.forall_mem_singleton.2 hnone) (by simp)
  | moduleless ha htells _ =>
    obtain rfl := Outcome.value.inj hr
    obtain ⟨hearly, hunit, -⟩ := prepare_of_ok ha.prepared
    exact trail_of_early [(.codeGenerating, []), (.compiling, _)] hearly (by simp) rfl
      (List.forall_mem_cons.2 ⟨.generated hunit, List.forall_mem_singleton.2 (.compiled ha htells)⟩)
      (List.forall_mem_singleton.2 hnone) (by simp)
  | @executed p results reported m ha htells hm he =>
    obtain rfl := Outcome.value.inj hr
    obtain ⟨hearly, hunit, -⟩ := prepare_of_ok ha.prepared
    have hmodule : noModule host results = [] := by
      rw [noModule, if_neg fun hn => Option.some_ne_none m (hm.symm.trans hn.1)]
    have hcompiled : Reports compiler files recycler fresh host text .compiling
        (reported ++ noModule host results) := .compiled ha htells
    rw [hmodule, List.append_nil] at hcompiled
    have hreported : ¬ Diagnostics.hasErrors reported := by
      rw [hasErrors_of_tells host htells]
      exact he
    exact trail_of_early
      [(.codeGenerating, []), (.compiling, reported),
        (.executing, (execution files recycler fresh host m).1.diagnostics)]
      hearly (by simp) (congrArg some (lastStage_executionResult _ _).symm)
      (List.forall_mem_cons.2 ⟨.generated hunit,
        List.forall_mem_cons.2 ⟨hcompiled, List.forall_mem_singleton.2 (.executing ha hm)⟩⟩)
      (List.forall_mem_cons.2 ⟨hnone, List.forall_mem_singleton.2 hreported⟩) (by simp)

/-- Messages that have all been told have been placed. -/
theorem Abandoned.not_told (h : Abandoned compiler files host text) {p : Preparation} {results : CompilerResult}
    {reported : Diagnostics} (ha : Asked compiler files host text p (.ok results))
    (htells : List.Forall₂ (Tells host p results) results.messages reported) : False := by
  cases h with
  | unanswered hp haborted =>
    obtain rfl := Except.ok.inj (hp.symm.trans ha.prepared)
    cases haborted.symm.trans ha.answered
  | misplaced ha' hm haborted =>
    obtain ⟨rfl, hanswer⟩ := ha.unique ha'
    obtain rfl := Except.ok.inj hanswer
    obtain ⟨d, -, htold⟩ := exists_of_mem_forall₂ htells hm
    cases htold.place.symm.trans haborted

theorem Ends.aborted_iff {run : EngineRun String} (h : Ends compiler files recycler fresh host text run) :
    run.outcome = .aborted ↔ Abandoned compiler files host text := by
  cases h with
  | unprepared hp =>
    refine iff_of_false nofun fun h => ?_
    cases h with
    | unanswered hp' => cases hp.symm.trans hp'
    | misplaced ha => cases hp.symm.trans ha.prepared
  | unanswered hp ha => exact iff_of_true rfl (.unanswered hp ha)
  | misplaced ha hall =>
    obtain ⟨m, hm, haborted⟩ := List.mem_map.1 (Outcome.all_eq_aborted_iff.1 hall)
    exact iff_of_true rfl (.misplaced ha hm haborted)
  | uncompiled ha =>
    refine iff_of_false nofun fun h => ?_
    cases h with
    | unanswered hp haborted =>
      obtain rfl := Except.ok.inj (hp.symm.trans ha.prepared)
      cases haborted.symm.trans ha.answered
    | misplaced ha' => cases (ha.unique ha').2
  | moduleless ha htells => exact iff_of_false nofun fun h => h.not_told ha htells
  | executed ha htells => exact iff_of_false nofun fun h => h.not_told ha htells

theorem Ends.succeeded {run : EngineRun String} {r : RunResult String} {output : String}
    (h : Ends compiler files recycler fresh host text run) (hr : run.outcome = .value r)
    (hvalue : r.value? = some output) : r.failedStage? = none ∧ ¬ r.diagnostics.hasErrors := by
  cases h with
  | unprepared hp =>
    obtain rfl := Outcome.value.inj hr
    cases hvalue
  | unanswered _ _ => cases hr
  | misplaced _ _ => cases hr
  | uncompiled ha =>
    obtain rfl := Outcome.value.inj hr
    cases hvalue
  | moduleless ha htells _ =>
    obtain rfl := Outcome.value.inj hr
    cases hvalue
  | @executed p results reported m ha htells hm he =>
    obtain rfl := Outcome.value.inj hr
    obtain ⟨hearly, -, -⟩ := prepare_of_ok ha.prepared
    have hreported : ¬ Diagnostics.hasErrors reported := by
      rw [hasErrors_of_tells host htells]
      exact he
    have hresult : ∃ o, executionResult (execution files recycler fresh host m).1 = .ok o := by
      cases ho : executionResult (execution files recycler fresh host m).1 with
      | ok o => exact ⟨o, rfl⟩
      | error s => simp [RunResult.value?, ho] at hvalue
    obtain ⟨o, ho⟩ := hresult
    have hexecution := executionResult_eq_ok.1 ho
    refine ⟨by simp [RunResult.failedStage?, ho], ?_⟩
    simp only [Diagnostics.hasErrors_append, Bool.or_eq_true, not_or]
    exact ⟨⟨hearly, hreported⟩, hexecution.2⟩

theorem Ends.stopsAtFailure {run : EngineRun String} (h : Ends compiler files recycler fresh host text run) :
    StopsAtFailure compiler files recycler fresh host text run := by
  obtain ⟨acts, hacts, heffects⟩ := h.acts
  obtain ⟨hcompile, hexecute, hlog⟩ := hacts.counts
  have hsplit : ∃ logs : List Effect, run.effects = acts ++ logs ∧ logs.countP Effect.isCompile = 0 ∧
      logs.count .execute = 0 ∧ ∀ e ∈ logs, Allowed compiler files host text e := by
    rcases heffects with ⟨-, he⟩ | ⟨r, -, he⟩
    · exact ⟨[], by rw [he, List.append_nil], rfl, rfl, nofun⟩
    · exact ⟨[.log r.diagnostics], he, rfl, rfl, List.forall_mem_singleton.2 trivial⟩
  obtain ⟨logs, he, hcompile', hexecute', hallowed⟩ := hsplit
  refine ⟨?_, ?_, ?_, ?_, ?_, fun r hr output => h.succeeded hr, fun r hr => h.trail hr⟩
  · rw [← h.aborted_iff]
    cases run.outcome with
    | aborted => exact iff_of_false nofun fun hn => hn rfl
    | value r => exact iff_of_true ⟨r, rfl⟩ nofun
  · rw [he, List.countP_append, hcompile']
    exact hcompile
  · rw [he, List.count_append, hexecute']
    exact hexecute
  · rw [he]
    exact List.forall_mem_append.2 ⟨hacts.allowed, hallowed⟩
  · intro r hr
    rcases heffects with ⟨haborted, -⟩ | ⟨r', hr', he'⟩
    · rw [hr] at haborted
      cases haborted
    · obtain rfl := Outcome.value.inj (hr'.symm.trans hr)
      exact ⟨acts, he', List.countP_eq_zero.1 hlog⟩

end

/-- **A failing stage ends a run.** Whatever the template, the host, the compiler and the module are, a
run stops at its first failing stage; and preprocessing stops at the generated unit. -/
theorem process_stopsAtFailure : StopsAtFailure compiler files recycler fresh host text
      (process compiler files recycler host text fresh) ∧
    ∀ className namespace_, ∃ r,
      (preprocess files recycler host text className namespace_).outcome = .value r ∧
        (preprocess files recycler host text className namespace_).effects = [.log r.diagnostics] ∧
        ∀ t, r.value? = some t → ¬ r.diagnostics.hasErrors := by
  refine ⟨(process_ends compiler files recycler fresh host text).stopsAtFailure, ?_⟩
  intro className namespace_
  refine ⟨_, rfl, rfl, fun t ht => ?_⟩
  cases hp : (prepare files host text (.preprocessed className namespace_)).result with
  | error s => simp [RunResult.value?, hp, Except.map] at ht
  | ok p =>
    obtain ⟨hearly, -, hreport⟩ := prepare_of_ok hp
    rw [hreport]
    exact hearly

end

end Engine

end Templating
