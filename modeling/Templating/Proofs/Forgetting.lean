import Templating.Proofs.Recycling
import Templating.Proofs.Targets

/-!
# What a run forgets

A generator is used for one template after the other. Reading a template resets what the run before left,
but a run that ends before it reads one leaves that as it is. What is seen of a run is that of a generator
without a past exactly if the run gets to its template, or there is nothing left to see
(`seen_run_eq_iff`).
-/

namespace Templating

namespace Recycler

/-- No sandbox waits for loads. -/
def Idle (r : Recycler) : Prop :=
  r.current = none

/-- Whether a run is granted a load. -/
def grants (r : Recycler) (fresh : Except FileError Unit) : Except FileError Unit :=
  (r.acquire fresh).1.map fun _ => ()

theorem grants_of_idle {r : Recycler} (h : r.Idle) (fresh : Except FileError Unit) : r.grants fresh = fresh := by
  unfold Idle at h
  unfold grants acquire
  rw [h]
  cases fresh <;> rfl

theorem grants_ok (r : Recycler) : r.grants (.ok ()) = .ok () := by
  unfold grants acquire
  cases r.current <;> rfl

end Recycler

variable {files files' : FileTree} {fresh fresh' : Except FileError Unit} {r r' : Recycler}

/-! ## Sandboxes between two runs -/

namespace Execution

variable {m : CompiledModule} {session : Dictionary} {directory : Option Path} {templateFile : Option String}

theorem maxUses_run (r : Recycler) :
    (run files r fresh m session directory templateFile).2.maxUses = r.maxUses := by
  have hacquired : (r.acquire fresh).2.maxUses = r.maxUses := by
    unfold Recycler.acquire Recycler.reserve
    cases r.current with
    | some s =>
      dsimp only
      split <;> rfl
    | none =>
      cases fresh with
      | error e => rfl
      | ok _ =>
        dsimp only
        split <;> rfl
  unfold run
  generalize r.acquire fresh = acquired at hacquired
  obtain ⟨e | handle, r'⟩ := acquired
  · exact hacquired
  · exact (r'.release_keeps handle.sandbox).1.trans hacquired

/-- A sandbox is released after its only load, so none waits for the next run. -/
theorem idle_run (h : r.Idle) : (run files r fresh m session directory templateFile).2.Idle := by
  unfold Recycler.Idle at h ⊢
  unfold run Recycler.acquire
  rw [h]
  cases fresh with
  | error e => exact h
  | ok _ =>
    dsimp only
    unfold Recycler.reserve
    by_cases hlast : r.maxUses ≤ 1
    · simp [hlast, Recycler.release]
    · simp [hlast, Recycler.release, Recycler.releaseIn, Recycler.dropHandle]

theorem run_of_grants (l : Option String) : (run files r fresh m session directory l).1 =
    match r.grants fresh with
    | .error e => failure (.whole l) ("failed to create execution sandbox: " ++ (Failure.ofFile e).message)
    | .ok _ => execute files m session directory (.whole l) := by
  unfold run Recycler.grants
  generalize r.acquire fresh = acquired
  obtain ⟨_ | _, _⟩ := acquired <;> rfl

end Execution

/-! ## What the engine makes of its sandboxes -/

/-- Two runs of the engine that differ in sandboxes only. -/
structure EngineRun.Alike {α : Type} (run run' : EngineRun α) : Prop where
  outcome : run'.outcome = run.outcome
  effects : run'.effects = run.effects

namespace Engine

variable {compiler : Compiler} {host host' : Host} {text : String}

/-- From the compiler's answer on, only the execution of the module matters. -/
theorem finish_congr (hfile : host'.templateFile = host.templateFile)
    (h : ∀ m, (execution files' r' fresh' host' m).1 = (execution files r fresh host m).1)
    (p : Preparation) (ds : Diagnostics) (effects : List Effect) (answer : Except Failure CompilerResult) :
    EngineRun.Alike (finish files r fresh host p ds effects answer)
      (finish files' r' fresh' host' p ds effects answer) := by
  unfold execution at h
  cases answer with
  | error e =>
    unfold finish
    rw [hfile]
    exact ⟨rfl, rfl⟩
  | ok results =>
    unfold finish
    dsimp only
    rw [hfile] at h ⊢
    split
    · exact ⟨rfl, rfl⟩
    · split
      · exact ⟨rfl, rfl⟩
      · rename_i m _
        split
        · exact ⟨rfl, rfl⟩
        · rw [h]
          split
          · split <;> exact ⟨rfl, rfl⟩
          · exact ⟨rfl, rfl⟩

theorem process_congr (hfile : host'.templateFile = host.templateFile)
    (hprepared : prepare files' host' text .executable = prepare files host text .executable)
    (h : ∀ m, (execution files' r' fresh' host' m).1 = (execution files r fresh host m).1) :
    EngineRun.Alike (process compiler files r host text fresh)
      (process compiler files' r' host' text fresh') := by
  unfold process
  rw [hprepared]
  dsimp only
  split
  · exact ⟨rfl, rfl⟩
  · split
    · exact ⟨rfl, rfl⟩
    · exact finish_congr hfile h ..

theorem process_of_idle (h : r.Idle) (h' : r'.Idle) :
    EngineRun.Alike (process compiler files r host text fresh) (process compiler files r' host text fresh) := by
  apply process_congr rfl rfl
  intro m
  unfold execution
  rw [Execution.run_of_grants, Execution.run_of_grants, Recycler.grants_of_idle h, Recycler.grants_of_idle h']

/-- Of a recycler, a run keeps how often a sandbox is used, and that none waits. -/
theorem process_recycler (compiler : Compiler) (files : FileTree) (r : Recycler) (host : Host) (text : String)
    (fresh : Except FileError Unit) :
    (process compiler files r host text fresh).recycler.maxUses = r.maxUses ∧
      (r.Idle → (process compiler files r host text fresh).recycler.Idle) := by
  have hends := process_ends compiler files r fresh host text
  generalize process compiler files r host text fresh = run at hends ⊢
  cases hends with
  | executed => exact ⟨Execution.maxUses_run r, Execution.idle_run⟩
  | _ => exact ⟨rfl, id⟩

end Engine

/-! ## Generators that differ in sandboxes -/

namespace Generator

def withRecycler (g : Generator) (r : Recycler) : Generator :=
  { g with recycler := r }

/-- The generator as it was configured, without a past. -/
def pristine (g : Generator) : Generator :=
  { recycler := .new g.recycler.maxUses
    includePaths := g.includePaths
    referencePaths := g.referencePaths
    references := g.references
    imports := g.imports
    parameters := g.parameters
    processors := g.processors }

/-- Configured as before, with no sandbox that waits if there was none. -/
structure Keeps (g g' : Generator) : Prop where
  pristine : g'.pristine = g.pristine
  idle : g.recycler.Idle → g'.recycler.Idle

theorem Keeps.refl (g : Generator) : Keeps g g :=
  ⟨rfl, id⟩

theorem Keeps.trans {g g' g'' : Generator} (h : Keeps g g') (h' : Keeps g' g'') : Keeps g g'' :=
  ⟨h'.pristine.trans h.pristine, h'.idle ∘ h.idle⟩

@[simp]
theorem pristine_pristine (g : Generator) : g.pristine.pristine = g.pristine := by
  simp [Generator.pristine, Recycler.new]

theorem foldl_observe_withRecycler (effects : List Effect) (g : Generator) (r : Recycler) :
    effects.foldl observe (g.withRecycler r) = (effects.foldl observe g).withRecycler r := by
  induction effects generalizing g with
  | nil => rfl
  | cons e effects ih =>
    rw [List.foldl_cons, List.foldl_cons, ← ih]
    cases e <;> rfl

theorem keeps_foldl_observe (effects : List Effect) (g : Generator) : Keeps g (effects.foldl observe g) := by
  induction effects generalizing g with
  | nil => exact .refl g
  | cons e effects ih =>
    have hobserved : Keeps g (g.observe e) := by cases e <;> exact ⟨rfl, id⟩
    exact hobserved.trans (ih _)

theorem keeps_withRecycler (g : Generator) (h : r.maxUses = g.recycler.maxUses)
    (hr : g.recycler.Idle → r.Idle) : Keeps g (g.withRecycler r) := by
  refine ⟨?_, hr⟩
  simp only [pristine, withRecycler, h]

end Generator

namespace Generation

variable {w w' : Generation} {base : Generator} {compiler : Compiler}
  {input staging staged template target : Path} {output : Option Path} {o : TemplateOptions}

def withRecycler (w : Generation) (r : Recycler) : Generation :=
  { w with generator := w.generator.withRecycler r }

/-- Two ends that differ in sandboxes only. -/
def Alike {α : Type} (x y : α × Generation) : Prop :=
  ∃ r, y = (x.1, x.2.withRecycler r)

theorem start_withRecycler (w : Generation) (r : Recycler) (input : Path) :
    (w.withRecycler r).start input = ((w.start input).1, (w.start input).2.withRecycler r) := by
  unfold start
  dsimp only [withRecycler]
  split <;> rfl

theorem writeOutput_withRecycler (w : Generation) (r : Recycler) (target : Path) (bytes : ByteArray)
    (fault : Option WriteFault) : (w.withRecycler r).writeOutput target bytes fault =
      ((w.writeOutput target bytes fault).1, (w.writeOutput target bytes fault).2.withRecycler r) := by
  unfold writeOutput
  dsimp only [withRecycler]
  split <;> rfl

theorem deliver_withRecycler (w : Generation) (r : Recycler) (staged target : Path)
    (fault : Option WriteFault) : (w.withRecycler r).deliver staged target fault =
      ((w.deliver staged target fault).1, (w.deliver staged target fault).2.withRecycler r) := by
  obtain ⟨g, files⟩ := w
  show deliver ⟨g.withRecycler r, files⟩ staged target fault = _
  unfold deliver
  by_cases hsame : sameContent files target staged
  · simp only [if_pos hsame]
    rfl
  · simp only [if_neg hsame]
    split
    · rfl
    · split <;> rfl

theorem unstage_withRecycler (w : Generation) (r : Recycler) (staging : Path) :
    (w.withRecycler r).unstage staging = (w.unstage staging).withRecycler r := by
  unfold unstage
  dsimp only [withRecycler]
  split <;> rfl

theorem absorb_withRecycler {α : Type} (w : Generation) (r : Recycler) {run run' : EngineRun α}
    (h : run.Alike run') : (w.withRecycler r).absorb run' =
      ((w.absorb run).1, (w.absorb run).2.withRecycler run'.recycler) := by
  unfold absorb
  rw [h.outcome, h.effects]
  have hfold := Generator.foldl_observe_withRecycler run.effects
    { w.generator with recycler := run.recycler } run'.recycler
  dsimp only [withRecycler, Generator.withRecycler] at hfold ⊢
  rw [hfold]
  split <;> rfl

theorem Alike.settle {x y : Outcome (Option String) × Generation} (h : Alike x y) (input : Path)
    (output : Option Path) (fault : Option WriteFault) :
    Alike (settle input output x fault) (settle input output y fault) := by
  obtain ⟨r, rfl⟩ := h
  obtain ⟨(_ | text) | _, w⟩ := x
  · exact ⟨r, rfl⟩
  · have htarget : outputPath? (w.withRecycler r).generator input output =
        outputPath? w.generator input output := rfl
    unfold Generation.settle
    dsimp only
    rw [htarget]
    split
    · exact ⟨r, rfl⟩
    · rw [writeOutput_withRecycler]
      exact ⟨r, rfl⟩
  · exact ⟨r, rfl⟩

/-- The engine's run that makes a module of a template that was read. -/
def moduleRun (w : Generation) (text className namespace_ : String) : EngineRun PreprocessedTemplate :=
  Engine.preprocess w.files w.generator.recycler (w.generator.host w.files) text className namespace_

/-- Writes the module that the engine gave. -/
def settleModule (target : Path) (x : Outcome (Option PreprocessedTemplate) × Generation)
    (fault : Option WriteFault := none) : Outcome Bool × Generation :=
  match x with
  | (.aborted, w) => (.aborted, w)
  | (.value none, w) => (.value false, w)
  | (.value (some t), w) =>
    let (written, w) := w.writeOutput target t.source.toUTF8 fault
    (.value written, w)

theorem preprocess_of_unread {className namespace_ : String} {fault : Option WriteFault}
    (h : (w.start input).1 = none) :
    w.preprocess input className namespace_ output fault = (.value false, (w.start input).2) := by
  unfold preprocess
  generalize w.start input = started at h ⊢
  obtain ⟨read, w₁⟩ := started
  subst h
  rfl

theorem preprocess_of_read {className namespace_ text : String} {fault : Option WriteFault}
    (h : (w.start input).1 = some text) : w.preprocess input className namespace_ output fault =
      settleModule (output.getD (input.withPlainExtension sourceExtension))
        ((w.start input).2.absorb ((w.start input).2.moduleRun text className namespace_)) fault := by
  unfold preprocess
  generalize w.start input = started at h ⊢
  obtain ⟨read, w₁⟩ := started
  subst h
  dsimp only
  unfold moduleRun
  generalize w₁.absorb _ = absorbed
  obtain ⟨_ | _ | _, w₂⟩ := absorbed <;> rfl

theorem Alike.settleModule {x y : Outcome (Option PreprocessedTemplate) × Generation} (h : Alike x y)
    (target : Path) (fault : Option WriteFault) :
    Alike (settleModule target x fault) (settleModule target y fault) := by
  obtain ⟨r, rfl⟩ := h
  obtain ⟨(_ | t) | _, w⟩ := x
  · exact ⟨r, rfl⟩
  · unfold Generation.settleModule
    dsimp only
    rw [writeOutput_withRecycler]
    exact ⟨r, rfl⟩
  · exact ⟨r, rfl⟩

/-! ## What every call keeps -/

theorem keeps_start (w : Generation) (input : Path) : w.generator.Keeps (w.start input).2.generator := by
  unfold start
  dsimp only
  split <;> exact ⟨rfl, id⟩

theorem keeps_writeOutput (w : Generation) (target : Path) (bytes : ByteArray) (fault : Option WriteFault) :
    w.generator.Keeps (w.writeOutput target bytes fault).2.generator := by
  unfold writeOutput
  split <;> exact ⟨rfl, id⟩

theorem keeps_absorb {α : Type} (w : Generation) {run : EngineRun α}
    (h : run.recycler.maxUses = w.generator.recycler.maxUses ∧
      (w.generator.recycler.Idle → run.recycler.Idle)) :
    w.generator.Keeps (w.absorb run).2.generator := by
  have hfold := (w.generator.keeps_withRecycler h.1 h.2).trans (Generator.keeps_foldl_observe run.effects _)
  unfold absorb
  dsimp only
  split <;> exact ⟨hfold.pristine, hfold.idle⟩

theorem keeps_settle (x : Outcome (Option String) × Generation) (input : Path) (output : Option Path)
    (fault : Option WriteFault) : x.2.generator.Keeps (settle input output x fault).2.generator := by
  obtain ⟨(_ | text) | _, w⟩ := x
  · exact .refl _
  · unfold settle
    dsimp only
    split
    · exact .refl _
    · exact keeps_writeOutput ..
  · exact .refl _

theorem keeps_settleModule (x : Outcome (Option PreprocessedTemplate) × Generation) (target : Path)
    (fault : Option WriteFault) : x.2.generator.Keeps (settleModule target x fault).2.generator := by
  obtain ⟨(_ | t) | _, w⟩ := x
  · exact .refl _
  · exact keeps_writeOutput ..
  · exact .refl _

theorem keeps_process (w : Generation) (compiler : Compiler) (input : Path) (output : Option Path)
    (fresh : Except FileError Unit) (fault : Option WriteFault) :
    w.generator.Keeps (w.process compiler input output fresh fault).2.generator := by
  have hstart := keeps_start w input
  cases hread : (w.start input).1 with
  | none =>
    rw [process_of_unread hread]
    exact hstart
  | some text =>
    rw [process_of_read hread]
    refine (hstart.trans (keeps_absorb _ ?_)).trans (keeps_settle ..)
    apply Engine.process_recycler

theorem keeps_preprocess (w : Generation) (input : Path) (className namespace_ : String)
    (output : Option Path) (fault : Option WriteFault) :
    w.generator.Keeps (w.preprocess input className namespace_ output fault).2.generator := by
  have hstart := keeps_start w input
  cases hread : (w.start input).1 with
  | none =>
    rw [preprocess_of_unread hread]
    exact hstart
  | some text =>
    rw [preprocess_of_read hread]
    refine (hstart.trans (keeps_absorb _ ?_)).trans (keeps_settleModule ..)
    exact ⟨rfl, id⟩

theorem keeps_deliver (w : Generation) (staged target : Path) (fault : Option WriteFault) :
    w.generator.Keeps (w.deliver staged target fault).2.generator := by
  unfold deliver
  dsimp only
  split
  · exact ⟨rfl, id⟩
  · split
    · exact ⟨rfl, id⟩
    · split <;> exact ⟨rfl, id⟩

theorem keeps_runStaged (w : Generation) (compiler : Compiler) (staging template : Path)
    (o : TemplateOptions) (fresh : Except FileError Unit) (faults : RunFaults) :
    w.generator.Keeps (w.runStaged compiler staging template o fresh faults).2.generator := by
  unfold runStaged
  split
  · exact .refl _
  · have hprocess := keeps_process w compiler template (some (staging.join ⟨stagedStem template⟩)) fresh
      faults.staged
    unfold runText
    generalize w.process _ _ _ _ _ = processed at hprocess
    obtain ⟨(_ | _) | _, w₁⟩ := processed
    · exact hprocess
    · dsimp only
      split
      · exact hprocess
      · exact hprocess.trans (keeps_deliver ..)
    · exact hprocess
  · have hpreprocess := keeps_preprocess w template (ClassName.ofTemplate template) ""
      (some (staging.join ⟨stagedStem template ++ "." ++ sourceExtension⟩)) faults.staged
    unfold runTextGenerator
    dsimp only
    generalize w.preprocess _ _ _ _ _ = preprocessed at hpreprocess
    obtain ⟨(_ | _) | _, w₁⟩ := preprocessed
    · exact hpreprocess
    · exact hpreprocess.trans (keeps_deliver ..)
    · exact hpreprocess

theorem keeps_run (w : Generation) (compiler : Compiler) (staging template : Path)
    (fresh : Except FileError Unit) (faults : RunFaults) :
    w.generator.Keeps (w.run compiler staging template fresh faults).2.generator := by
  unfold run
  dsimp only
  split
  · exact ⟨rfl, id⟩
  · rename_i files _
    rw [generator_unstage]
    exact keeps_runStaged ⟨w.generator, files⟩ ..

/-! ## A run of two generators -/

theorem process_withRecycler (hw : w.generator.recycler.Idle) (hr : r.Idle) (compiler : Compiler)
    (input : Path) (output : Option Path) (fresh : Except FileError Unit) (fault : Option WriteFault) :
    Alike (w.process compiler input output fresh fault)
      ((w.withRecycler r).process compiler input output fresh fault) := by
  have hstart := start_withRecycler w r input
  cases hread : (w.start input).1 with
  | none =>
    have hread' : ((w.withRecycler r).start input).1 = none := by rw [hstart, hread]
    rw [process_of_unread hread, process_of_unread hread', hstart]
    exact ⟨r, rfl⟩
  | some text =>
    have hread' : ((w.withRecycler r).start input).1 = some text := by rw [hstart, hread]
    rw [process_of_read hread, process_of_read hread', hstart]
    apply Alike.settle
    exact ⟨_, absorb_withRecycler _ r (Engine.process_of_idle ((keeps_start w input).idle hw) hr)⟩

theorem preprocess_withRecycler (w : Generation) (r : Recycler) (input : Path)
    (className namespace_ : String) (output : Option Path) (fault : Option WriteFault) :
    Alike (w.preprocess input className namespace_ output fault)
      ((w.withRecycler r).preprocess input className namespace_ output fault) := by
  have hstart := start_withRecycler w r input
  cases hread : (w.start input).1 with
  | none =>
    have hread' : ((w.withRecycler r).start input).1 = none := by rw [hstart, hread]
    rw [preprocess_of_unread hread, preprocess_of_unread hread', hstart]
    exact ⟨r, rfl⟩
  | some text =>
    have hread' : ((w.withRecycler r).start input).1 = some text := by rw [hstart, hread]
    rw [preprocess_of_read hread, preprocess_of_read hread', hstart]
    apply Alike.settleModule
    exact ⟨_, absorb_withRecycler _ r ⟨rfl, rfl⟩⟩

theorem runStaged_withRecycler (hw : w.generator.recycler.Idle) (hr : r.Idle) (compiler : Compiler)
    (staging template : Path) (o : TemplateOptions) (fresh : Except FileError Unit) (faults : RunFaults) :
    Alike (w.runStaged compiler staging template o fresh faults)
      ((w.withRecycler r).runStaged compiler staging template o fresh faults) := by
  unfold runStaged
  split
  · exact ⟨r, rfl⟩
  · obtain ⟨r', hprocess⟩ := process_withRecycler hw hr compiler template
      (some (staging.join ⟨stagedStem template⟩)) fresh faults.staged
    unfold runText
    rw [hprocess]
    generalize w.process _ _ _ _ _ = processed
    obtain ⟨(_ | _) | _, w₁⟩ := processed
    · exact ⟨r', rfl⟩
    · have hfile : (w₁.withRecycler r').generator.outputFile = w₁.generator.outputFile := rfl
      dsimp only
      rw [hfile]
      split
      · exact ⟨r', rfl⟩
      · rw [deliver_withRecycler]
        exact ⟨r', rfl⟩
    · exact ⟨r', rfl⟩
  · obtain ⟨r', hpreprocess⟩ := preprocess_withRecycler w r template (ClassName.ofTemplate template) ""
      (some (staging.join ⟨stagedStem template ++ "." ++ sourceExtension⟩)) faults.staged
    unfold runTextGenerator
    dsimp only
    rw [hpreprocess]
    generalize w.preprocess _ _ _ _ _ = preprocessed
    obtain ⟨(_ | _) | _, w₁⟩ := preprocessed
    · exact ⟨r', rfl⟩
    · dsimp only
      rw [deliver_withRecycler]
      exact ⟨r', rfl⟩
    · exact ⟨r', rfl⟩

/-- Beyond its options, a run takes from a generator only what reading the template leaves of it. -/
theorem runStaged_of_start (hkind : o.outputKind ≠ .unknown) (h : w.start template = w'.start template)
    (compiler : Compiler) (staging : Path) (fresh : Except FileError Unit) (faults : RunFaults) :
    w.runStaged compiler staging template o fresh faults =
      w'.runStaged compiler staging template o fresh faults := by
  unfold runStaged
  split
  · exact absurd ‹_› hkind
  · unfold runText process
    rw [h]
  · unfold runTextGenerator preprocess
    rw [h]

theorem start_pristine (g : Generator) (files : FileTree) (input : Path) :
    start ⟨g, files⟩ input = start ⟨g.pristine.withRecycler g.recycler, files⟩ input :=
  rfl

end Generation

/-! ## Histories -/

/-- What a generator is called for. -/
inductive Task
  | process (input : Path) (output : Option Path)
  | preprocess (input : Path) (className namespace_ : String) (output : Option Path)
  | run (staging template : Path)

/-- A call of a generator, with all that it meets. -/
structure Request where
  task : Task
  files : FileTree
  compiler : Compiler
  fresh : Except FileError Unit
  faults : RunFaults

/-- What a call leaves of the generator. -/
def Generator.after (g : Generator) (c : Request) : Generator :=
  let w : Generation := ⟨g, c.files⟩
  match c.task with
  | .process input output => (w.process c.compiler input output c.fresh c.faults.target).2.generator
  | .preprocess input className namespace_ output =>
    (w.preprocess input className namespace_ output c.faults.target).2.generator
  | .run staging template => (w.run c.compiler staging template c.fresh c.faults).2.generator

theorem Generator.keeps_after (g : Generator) (c : Request) : g.Keeps (g.after c) := by
  unfold Generator.after
  dsimp only
  split
  · apply Generation.keeps_process ⟨g, c.files⟩
  · apply Generation.keeps_preprocess ⟨g, c.files⟩
  · apply Generation.keeps_run ⟨g, c.files⟩

theorem Generator.keeps_history (g : Generator) (history : List Request) :
    g.Keeps (history.foldl Generator.after g) := by
  induction history generalizing g with
  | nil => exact .refl g
  | cons c history ih => exact (g.keeps_after c).trans (ih _)

namespace Generation

/-- What is seen of a run. -/
structure Seen where
  outcome : Outcome RunStatus
  errors : Diagnostics
  outputFile : Option Path
  encoding : Encoding

def seen (x : Outcome RunStatus × Generation) : Seen :=
  ⟨x.1, x.2.generator.errors, x.2.generator.outputFile, x.2.generator.encoding⟩

/-- Whether a run gets to its template: it has a directory to work in, and a known kind of output. -/
def Begins (files : FileTree) (staging template : Path) : Prop :=
  (files.makeDirectory staging).isOk ∧
    (TemplateOptions.loadOrDefault files template).outputKind ≠ .unknown

theorem run_of_begins {base g : Generator} (h : base.Keeps g) (hbase : base.pristine = base)
    (hbegins : Begins files staging template) (compiler : Compiler) (fresh : Except FileError Unit)
    (faults : RunFaults) : Alike (run ⟨base, files⟩ compiler staging template fresh faults)
      (run ⟨g, files⟩ compiler staging template fresh faults) := by
  obtain ⟨hmade, hkind⟩ := hbegins
  have hidle : base.recycler.Idle := by
    rw [← hbase]
    rfl
  unfold run
  dsimp only
  split
  · rename_i e he
    rw [he] at hmade
    cases hmade
  · rename_i made _
    have hstart : start ⟨g, made⟩ template = start ⟨base.withRecycler g.recycler, made⟩ template := by
      rw [start_pristine, h.pristine, hbase]
    rw [runStaged_of_start hkind hstart]
    have hw : (Generation.mk base made).generator.recycler.Idle := hidle
    obtain ⟨r, hran⟩ := runStaged_withRecycler hw (h.idle hidle) compiler staging template
      (TemplateOptions.loadOrDefault files template) fresh faults
    refine ⟨r, ?_⟩
    have hran' : runStaged ⟨base.withRecycler g.recycler, made⟩ compiler staging template
      (TemplateOptions.loadOrDefault files template) fresh faults = _ := hran
    rw [hran']
    dsimp only
    rw [unstage_withRecycler]

/-- A run that does not get to its template adds its errors to what it found. -/
theorem run_of_not_begins (h : ¬ Begins files staging template) (compiler : Compiler)
    (fresh : Except FileError Unit) (faults : RunFaults) :
    ∃ status new files', ∀ g, run ⟨g, files⟩ compiler staging template fresh faults =
      (.value status, ⟨g.log new, files'⟩) := by
  unfold run
  dsimp only
  cases hmade : files.makeDirectory staging with
  | error e => exact ⟨.processingError, _, files, fun g => rfl⟩
  | ok made =>
    have hkind : (TemplateOptions.loadOrDefault files template).outputKind = .unknown := by
      by_contra hkind
      exact h ⟨by rw [hmade]; rfl, hkind⟩
    have hunstaged : ∀ g, unstage ⟨g, made⟩ staging = ⟨g, (unstage ⟨{}, made⟩ staging).files⟩ := by
      intro g
      unfold unstage
      dsimp only
      split <;> rfl
    refine ⟨.unknownOutputType, [], (unstage ⟨{}, made⟩ staging).files, fun g => ?_⟩
    unfold runStaged
    simp only [hkind, hunstaged g, Generator.log, List.append_nil]

/-- **What a run forgets.** After any calls, a run ends as that of a generator without a past does, and
leaves the same files. Its errors, its output file and its encoding are the same as well exactly if the run
gets to its template, or there is nothing left to see of the calls before. Otherwise the run before shows,
and the errors are those of both. -/
theorem seen_run_eq_iff (g : Generator) (history : List Request) (files : FileTree) (compiler : Compiler)
    (staging template : Path) (fresh : Except FileError Unit) (faults : RunFaults) :
    let past := history.foldl Generator.after g.pristine
    let ran := run ⟨past, files⟩ compiler staging template fresh faults
    let first := run ⟨g.pristine, files⟩ compiler staging template fresh faults
    (ran.1 = first.1 ∧ ran.2.files = first.2.files) ∧
    (seen ran = seen first ↔ Begins files staging template ∨
      past.errors = [] ∧ past.outputFile = none ∧ past.encoding = .utf8) ∧
    (¬ Begins files staging template → seen ran =
      ⟨first.1, past.errors ++ first.2.generator.errors, past.outputFile, past.encoding⟩) := by
  intro past ran first
  have hkeeps : g.pristine.Keeps past := g.pristine.keeps_history history
  by_cases hbegins : Begins files staging template
  · obtain ⟨r, hran⟩ := run_of_begins hkeeps g.pristine_pristine hbegins compiler fresh faults
    have hran' : ran = (first.1, first.2.withRecycler r) := hran
    refine ⟨?_, iff_of_true ?_ (.inl hbegins), fun h => absurd hbegins h⟩
    · rw [hran']
      exact ⟨rfl, rfl⟩
    · rw [hran']
      rfl
  · obtain ⟨status, new, files', hrun⟩ := run_of_not_begins hbegins compiler fresh faults
    have hran : ran = (.value status, ⟨past.log new, files'⟩) := hrun past
    have hfirst : first = (.value status, ⟨g.pristine.log new, files'⟩) := hrun g.pristine
    have hnew : (g.pristine.log new).errors = new := List.nil_append new
    rw [hran, hfirst]
    refine ⟨⟨rfl, rfl⟩, ?_, fun _ => ?_⟩
    · constructor
      · intro hseen
        obtain ⟨-, herrors, hfile, hencoding⟩ := Seen.mk.inj hseen
        have herrors' : past.errors ++ new = new := herrors.trans hnew
        exact .inr ⟨List.append_left_eq_self.1 herrors', hfile, hencoding⟩
      · rintro (h | ⟨herrors, hfile, hencoding⟩)
        · exact absurd h hbegins
        · simp only [seen, Generator.log, herrors, hfile, hencoding]
          rfl
    · simp only [seen, hnew]
      rfl

/-- The fault of the template before is reported again. -/
example : (seen (run ⟨({} : Generator).after ⟨.process ⟨"/a.tt"⟩ none, {}, .writing, .ok (), {}⟩, {}⟩
    .writing ⟨"/"⟩ ⟨"/b.tt"⟩)).errors.map (·.code) = ["TT5001", "TT5002"] := by
  cbv

end Generation

end Templating
