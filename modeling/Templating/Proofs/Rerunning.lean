import Templating.Proofs.Delivering
import Templating.Proofs.Lookups

/-!
# Running again

What a run leaves of the files, by the way in which it ends (`run_delivers`). A run that is done again on what
the first one left finds its output at the target, if it finds all that it looks up as the first one did.
-/

namespace Templating

/-! ## The engine on two trees -/

namespace Engine

variable {files files' : FileTree} {host host' : Host} {compiler : Compiler} {text out : String}
  {ds : Diagnostics} {r r' : Recycler} {fresh fresh' : Except FileError Unit}

theorem grants_of_ok (h : (process compiler files r host text fresh).outcome = .value ⟨.ok out, ds⟩) :
    r.grants fresh = .ok () := by
  have hends := process_ends compiler files r fresh host text
  generalize process compiler files r host text fresh = run at h hends
  cases hends with
  | executed =>
    have hresult := congrArg RunResult.result (Outcome.value.inj h)
    unfold execution executionResult at hresult
    rw [Execution.run_of_grants] at hresult
    cases hgrants : r.grants fresh with
    | ok _ => rfl
    | error e =>
      rw [hgrants] at hresult
      cases hresult
  | _ => cases h

/-- In the directory of the template a module starts on both trees, or on neither. -/
theorem execution_congr (hfile : host'.templateFile = host.templateFile)
    (hsession : host'.session = host.session) (hgrants : r'.grants fresh' = r.grants fresh)
    (hdir : ∀ dir ∈ host.templateFile.bind fun f => (Path.mk f).parent?, files.SameWay files' dir)
    (m : CompiledModule) :
    (execution files' r' fresh' host' m).1 = (execution files r fresh host m).1 := by
  have hdirectory : workingDirectory files' host.templateFile = workingDirectory files host.templateFile ∧
      ∀ b, Execution.startError? files' (workingDirectory files host.templateFile) b =
        Execution.startError? files (workingDirectory files host.templateFile) b := by
    unfold workingDirectory Execution.startError?
    cases hparent : host.templateFile.bind fun f => (Path.mk f).parent? with
    | none => exact ⟨rfl, fun b => rfl⟩
    | some dir =>
      have hsame := hdir dir hparent
      rw [Option.filter_some, Option.filter_some, hsame.isDirectory]
      refine ⟨rfl, fun b => ?_⟩
      split
      · rw [Option.bind_some, Option.bind_some, hsame.enterError?]
      · rfl
  unfold execution
  rw [Execution.run_of_grants, Execution.run_of_grants, hgrants, hfile, hsession, hdirectory.1]
  unfold Execution.execute
  simp only [hdirectory.2]

end Engine

namespace Generation

variable {w w' : Generation} {g g' : Generator} {files files' : FileTree} {compiler : Compiler}
  {staging template goal : Path} {fresh fresh' : Except FileError Unit} {bytes : ByteArray}
  {kind : OutputKind} {o : TemplateOptions}

/-! ## What a run looks up -/

/-- The paths that a run follows to what it reads, found or not. -/
inductive Consults (w : Generation) (template : Path) : Path → Prop
  | template : Consults w template template
  | directory {dir : Path} : dir ∈ (w.start template).2.generator.templateDirectory → Consults w template dir
  | included {text : String} {q : Option String × String} {p : Path} : (w.start template).1 = some text →
      Template.Requests w.files ((w.start template).2.generator.includes w.files)
        (w.start template).2.generator.templateFile text q →
      p ∈ Generator.besides q.1 q.2 ++
        (w.start template).2.generator.includeLookups w.files (Template.request w.files q.1 q.2) →
      Consults w template p
  | reference {text name : String} {p : Path} : (w.start template).1 = some text →
      name ∈ Engine.referenceNames w.files ((w.start template).2.generator.host w.files) text →
      p ∈ (w.start template).2.generator.referenceLookups name → Consults w template p

theorem host_withRecycler (g : Generator) (r : Recycler) (files : FileTree) :
    (g.withRecycler r).host files = g.host files := by
  cases g
  rfl

theorem resolveReference_host (g : Generator) (files : FileTree) :
    (g.host files).resolveReference = g.resolveReference files := by
  rw [Generator.host]

theorem start_congr (hg : g'.pristine = g.pristine) (h : files.SameWay files' template) :
    start ⟨g', files'⟩ template = ((start ⟨g, files⟩ template).1,
      ⟨(start ⟨g, files⟩ template).2.generator.withRecycler g'.recycler, files'⟩) := by
  have hstart : start ⟨g', files'⟩ template = start ⟨g.withRecycler g'.recycler, files'⟩ template := by
    rw [start_pristine, hg]
    rfl
  rw [hstart]
  unfold start
  dsimp only
  rw [h.canonicalOr, h.readTemplate]
  split <;> rfl

section
variable (hg : g'.pristine = g.pristine)
  (h : ∀ p, Consults ⟨g, files⟩ template p → files.SameWay files' p)
  {text : String} (hread : (start ⟨g, files⟩ template).1 = some text)
include h hread

theorem prepare_again (r : Recycler) (kind : UnitKind) :
    Engine.prepare files' (((start ⟨g, files⟩ template).2.generator.withRecycler r).host files') text kind =
      Engine.prepare files ((start ⟨g, files⟩ template).2.generator.host files) text kind := by
  rw [host_withRecycler]
  apply Engine.prepare_congr
  · exact ⟨rfl, rfl, rfl, rfl, rfl, rfl⟩
  · intro q hq
    have hlookups := fun p hp => h p (.included hread hq hp)
    have hrequest := Generator.request_congr fun p hp => hlookups p (List.mem_append_left _ hp)
    have hload := Generator.loadInclude_congr fun p hp => hlookups p (List.mem_append_right _ hp)
    rw [hrequest]
    exact hload
  · intro name hname
    rw [resolveReference_host, resolveReference_host]
    exact Generator.resolveReference_congr fun p hp => h p (.reference hread hname hp)

theorem moduleRun_again (r : Recycler) (className namespace_ : String) :
    EngineRun.Alike ((start ⟨g, files⟩ template).2.moduleRun text className namespace_)
      (moduleRun ⟨(start ⟨g, files⟩ template).2.generator.withRecycler r, files'⟩ text className
        namespace_) := by
  unfold moduleRun Engine.preprocess
  dsimp only
  rw [prepare_again h hread, files_start]
  exact ⟨rfl, rfl⟩

theorem engineRun_again {r : Recycler}
    (hgrants : r.grants fresh' = (start ⟨g, files⟩ template).2.generator.recycler.grants fresh) :
    EngineRun.Alike ((start ⟨g, files⟩ template).2.engineRun compiler fresh text)
      (engineRun ⟨(start ⟨g, files⟩ template).2.generator.withRecycler r, files'⟩ compiler fresh' text) := by
  unfold engineRun
  rw [files_start]
  apply Engine.process_congr
  · rfl
  · exact prepare_again h hread r .executable
  · apply Engine.execution_congr
    · rfl
    · rfl
    · exact hgrants
    · exact fun dir hdir => h dir (.directory hdir)

end

theorem absorb_files {α : Type} (g : Generator) (files files' : FileTree) (run : EngineRun α) :
    absorb ⟨g, files'⟩ run = ((absorb ⟨g, files⟩ run).1, ⟨(absorb ⟨g, files⟩ run).2.generator, files'⟩) := by
  unfold absorb
  dsimp only
  split <;> rfl

theorem Gives.again {α : Type} {run run' : EngineRun α} {a : α} {g₁ : Generator} (h : Gives w run a g₁)
    (r : Recycler) (files' : FileTree) (halike : run.Alike run') :
    Gives ⟨w.generator.withRecycler r, files'⟩ run' a (g₁.withRecycler run'.recycler) := by
  obtain ⟨ds, hds⟩ := h.outcome
  refine ⟨⟨ds, halike.outcome.trans hds⟩, ?_⟩
  have habsorbed : absorb ⟨w.generator.withRecycler r, w.files⟩ run' = _ := absorb_withRecycler w r halike
  rw [h.absorbed] at habsorbed
  rw [absorb_files _ w.files, habsorbed]
  rfl

/-- A run that finds all that it looks up as another one did makes the same. -/
theorem Output.again {g₁ : Generator} (hout : Output ⟨g, files⟩ compiler fresh template kind g₁ bytes)
    (hg : g'.pristine = g.pristine) (h : ∀ p, Consults ⟨g, files⟩ template p → files.SameWay files' p) :
    ∃ r, Output ⟨g', files'⟩ compiler (.ok ()) template kind (g₁.withRecycler r) bytes := by
  have hstart := start_congr hg (h template .template)
  have hstarted : (start ⟨g', files'⟩ template).2 = ⟨_, files'⟩ := congrArg Prod.snd hstart
  cases hout with
  | @text text out _ hread hgives hplain =>
    obtain ⟨ds, hds⟩ := hgives.outcome
    have hgrants : g'.recycler.grants (.ok ()) =
        (start ⟨g, files⟩ template).2.generator.recycler.grants fresh :=
      (Recycler.grants_ok _).trans (Engine.grants_of_ok hds).symm
    have hagain := hgives.again g'.recycler files' (engineRun_again h hread hgrants)
    rw [← hstarted] at hagain
    refine ⟨((start ⟨g', files'⟩ template).2.engineRun compiler (.ok ()) text).recycler, ?_⟩
    exact .text ((congrArg Prod.fst hstart).trans hread) hagain hplain
  | source hread hgives =>
    have hagain := hgives.again g'.recycler files' (moduleRun_again h hread g'.recycler _ _)
    rw [← hstarted] at hagain
    exact ⟨_, .source ((congrArg Prod.fst hstart).trans hread) hagain⟩

/-! ## The second run -/

/-- What a run makes, it delivers, if it can stage it. -/
theorem runStaged_of_output {g₁ : Generator} (hout : Output w compiler fresh template o.outputKind g₁ bytes)
    (hwritten : w.files.write (stagedPath o g₁.extension staging template) bytes = .ok files) :
    w.runStaged compiler staging template o fresh =
      (.value (deliver ⟨{ g₁ with outputFile := some (stagedPath o g₁.extension staging template) }, files⟩
          (stagedPath o g₁.extension staging template) (destination o g₁.extension staging template)).1,
        (deliver ⟨{ g₁ with outputFile := some (stagedPath o g₁.extension staging template) }, files⟩
          (stagedPath o g₁.extension staging template) (destination o g₁.extension staging template)).2) := by
  have hfiles := files_start w template
  unfold runStaged
  generalize hkind : o.outputKind = kind at hout
  cases hout with
  | text hread hgives hplain =>
    rw [stagedPath_text hkind] at hwritten ⊢
    rw [destination_text hkind]
    have hpath : outputPath? g₁ template (some (staging.join ⟨stagedStem template⟩)) =
        some (stagedText staging template g₁.extension) := outputPath?_staging_iff.2 ⟨hplain, rfl⟩
    have hprocess : w.process compiler template (some (staging.join ⟨stagedStem template⟩)) fresh =
        (.value true, ⟨{ g₁ with outputFile := some (stagedText staging template g₁.extension) }, files⟩) := by
      rw [process_of_read hread, hgives.absorbed, hfiles]
      unfold settle
      dsimp only
      rw [hpath]
      dsimp only
      unfold writeOutput
      rw [hwritten]
    unfold runText
    dsimp only
    rw [hprocess]
  | source hread hgives =>
    rw [stagedPath_source _ _ _ hkind] at hwritten ⊢
    rw [destination_source _ _ _ hkind]
    have hpreprocess : w.preprocess template (ClassName.ofTemplate template) ""
        (some (staging.join ⟨stagedStem template ++ "." ++ sourceExtension⟩)) =
        (.value true, ⟨{ g₁ with
          outputFile := some (staging.join ⟨stagedStem template ++ "." ++ sourceExtension⟩) }, files⟩) := by
      rw [preprocess_of_read hread, hgives.absorbed, hfiles, Option.getD_some]
      unfold settleModule
      dsimp only
      unfold writeOutput
      rw [hwritten]
    unfold runTextGenerator
    dsimp only
    rw [hpreprocess]

theorem run_of_output {made : FileTree} {g₁ : Generator} (hmade : w.files.makeDirectory staging = .ok made)
    (ho : TemplateOptions.loadOrDefault w.files template = o)
    (hout : Output ⟨w.generator, made⟩ compiler fresh template o.outputKind g₁ bytes)
    (hwritten : made.write (stagedPath o g₁.extension staging template) bytes = .ok files) :
    w.run compiler staging template fresh =
      (.value (deliver ⟨{ g₁ with outputFile := some (stagedPath o g₁.extension staging template) }, files⟩
          (stagedPath o g₁.extension staging template) (destination o g₁.extension staging template)).1,
        (deliver ⟨{ g₁ with outputFile := some (stagedPath o g₁.extension staging template) }, files⟩
          (stagedPath o g₁.extension staging template)
          (destination o g₁.extension staging template)).2.unstage staging) := by
  have hstaged := runStaged_of_output hout hwritten
  unfold run
  dsimp only
  rw [hmade, ho]
  dsimp only
  rw [hstaged]

/-- A second run that can be made as the first: it finds all that the first looked up as that one did, it
can stage its output, and what leads to the target does not lead through where they stage. If that is under
the name of the staging directory, there is no dot in the name. -/
structure Again (w : Generation) (staging template : Path) (w' : Generation) (staging' : Path) : Prop where
  options : w.files.SameWay w'.files (TemplateOptions.sidecar template)
  reading : ∀ made made', w.files.makeDirectory staging = .ok made →
    w'.files.makeDirectory staging' = .ok made' →
    ∀ p, Consults ⟨w.generator, made⟩ template p → made.SameWay made' p
  room : ∃ made', w'.files.makeDirectory staging' = .ok made' ∧ ∀ bytes, ∃ files,
    made'.write (stagedPath (TemplateOptions.loadOrDefault w.files template) w'.generator.extension staging'
      template) bytes = .ok files
  named : (TemplateOptions.loadOrDefault w.files template).outputKind = .text → stagedStem template = "." →
    ∀ dir ∈ [staging, staging'], ∀ name ∈ dir.name?, '.' ∉ name.toList
  target : ∀ goal ∈ w'.generator.outputFile,
    w.Apart staging template w'.generator.extension w'.files goal ∧
      w'.Apart staging' template w'.generator.extension w'.files goal

theorem loadOrDefault_congr (h : files.SameWay files' (TemplateOptions.sidecar template)) :
    TemplateOptions.loadOrDefault files' template = TemplateOptions.loadOrDefault files template := by
  unfold TemplateOptions.loadOrDefault TemplateOptions.load
  dsimp only
  rw [h.isFile, h.readText]

theorem deliver_of_sameContent {staged : Path} (h : sameContent w.files goal staged) :
    (w.deliver staged goal).1 = .noChanges := by
  unfold deliver
  rw [if_pos h]

theorem Brings.again {staging' : Path} {old : ByteArray}
    (hbrings : Brings w compiler fresh staging template w' goal bytes) (hagain : Again w staging template w' staging')
    (hkeeps : w'.generator.pristine = w.generator.pristine) (hread : w'.files.read goal = .ok old)
    (hdigest : Digest.ofBytes old = Digest.ofBytes bytes) :
    (w'.run compiler staging' template).1 = .value .noChanges := by
  obtain ⟨made, before, g, hmade, hout, hstaged, hg⟩ := hbrings.output
  obtain ⟨made', hmade', hroom⟩ := hagain.room
  obtain ⟨r, hout'⟩ := hout.again hkeeps (hagain.reading made made' hmade hmade')
  obtain ⟨files, hwritten⟩ := hroom bytes
  have hext : w'.generator.extension = g.extension := by
    rw [hg]
  have ho := loadOrDefault_congr hagain.options
  have htarget := hagain.target goal hbrings.outputFile
  have hgoal := hbrings.goal
  rw [hext] at hwritten htarget hgoal
  have hdestination : destination (TemplateOptions.loadOrDefault w.files template) g.extension staging' template =
      goal := by
    rw [hgoal, destination_of_staged hout.noSlash (fun hkind hdot => hagain.named hkind hdot _ (by simp)) hwritten,
      destination_of_staged hout.noSlash (fun hkind hdot => hagain.named hkind hdot _ (by simp)) hstaged]
  obtain ⟨s, hs, rfl⟩ := FileTree.makeDirectory_eq_ok hmade'
  obtain ⟨k, hw⟩ := FileTree.writes_of_write hwritten
  have hplace : s.isPrefixOf k ∨ w'.Strays staging' template g.extension k := by
    rw [← ho] at hw hout
    exact staged_place hs hout.noSlash hw
  have hsame : w'.files.SameWay files goal :=
    ⟨hw.workingDirectory, fun n hn => lookup_of_outside hs hw hplace (htarget.2 n hn)⟩
  have hcontent : sameContent files goal
      (stagedPath (TemplateOptions.loadOrDefault w.files template) g.extension staging' template) :=
    sameContent_iff.2 ⟨old, bytes, hsame.read.trans hread, FileTree.read_of_resolve hw.resolve, hdigest⟩
  have hkept : (g.withRecycler r).extension = g.extension := rfl
  rw [run_of_output hmade' ho hout' hwritten, hkept, hdestination]
  exact congrArg Outcome.value (deliver_of_sameContent hcontent)

/-- **What a run changes.** Outside what it stages, a run that does not succeed leaves every file as it was,
and makes none, but at its target if the copying there is broken off. One that finds no changes leaves all as
it was, with the output at the target if the digest tells the two apart. One that succeeds has put the output
at the target, and has changed nothing else. Directories may have been made. After either, a second run that
finds all that the first one looked up as it was then finds no changes. -/
theorem run_delivers (w : Generation) (compiler : Compiler) (fresh : Except FileError Unit) (faults : RunFaults)
    (staging template : Path) :
    let o := TemplateOptions.loadOrDefault w.files template
    let x := w.run compiler staging template fresh faults
    ((∀ status, x.1 = .value status → ¬ status.succeeded) →
      (∀ n, w.Outside staging template x.2.generator.extension n → w.files.Keeps x.2.files n) ∨
      x.1 = .value .processingError ∧ (∃ f ∈ faults.target, f.written.isSome) ∧
        let goal := destination o x.2.generator.extension staging template
        ∃ m, (∀ n, n ≠ m → w.Outside staging template x.2.generator.extension n → w.files.Keeps x.2.files n) ∧
          (w.Apart staging template x.2.generator.extension x.2.files goal →
            ∃ bytes stamp, x.2.files.resolve goal = .ok (.entry m (.file bytes stamp)))) ∧
    (x.1 = .value .noChanges → ∃ goal old bytes, Brings w compiler fresh staging template x.2 goal bytes ∧
      (∀ n, w.Outside staging template x.2.generator.extension n → x.2.files.lookup n = w.files.lookup n) ∧
      (w.Apart staging template x.2.generator.extension x.2.files goal →
        w.files.read goal = .ok old ∧ x.2.files.read goal = .ok old) ∧
      ((Digest.ofBytes old = Digest.ofBytes bytes → old = bytes) → old = bytes)) ∧
    (x.1 = .value .success → ∃ goal bytes m, Brings w compiler fresh staging template x.2 goal bytes ∧
      (∀ n, n ≠ m → w.Outside staging template x.2.generator.extension n → w.files.Keeps x.2.files n) ∧
      (w.Apart staging template x.2.generator.extension x.2.files goal →
        ∃ stamp, x.2.files.resolve goal = .ok (.entry m (.file bytes stamp)))) ∧
    ∀ status staging', x.1 = .value status → status.succeeded → Again w staging template x.2 staging' →
      (x.2.run compiler staging' template).1 = .value .noChanges := by
  intro o x
  have hkeeps := (keeps_run w compiler staging template fresh faults).pristine
  have hends := run_runEnds w compiler fresh faults staging template
  change RunEnds w compiler fresh faults staging template x at hends
  change x.2.generator.pristine = w.generator.pristine at hkeeps
  generalize x = x at hends hkeeps
  cases hends with
  | failed hfailed hsame =>
    refine ⟨fun _ => .inl hsame, fun he => ?_, fun he => ?_, fun status staging' he hs => ?_⟩
    · exact absurd rfl (hfailed _ he)
    · exact absurd rfl (hfailed _ he)
    · exact absurd hs (hfailed _ he)
  | @broken w' goal m hwhere hbroken hsame hfound =>
    refine ⟨fun _ => .inr ⟨rfl, hbroken, m, hsame, ?_⟩, nofun, nofun, fun status staging' he hs => ?_⟩
    · rwa [← hwhere]
    · obtain rfl := Outcome.value.inj he
      cases hs
  | @unchanged w' goal old bytes hbrings hsame hdigest hread =>
    refine ⟨fun hfailed => ?_, fun _ => ?_, nofun, fun status staging' _ _ hagain => ?_⟩
    · exact absurd rfl (hfailed _ rfl)
    · exact ⟨goal, old, bytes, hbrings, hsame, hread, fun h => h hdigest⟩
    · have hgoal := (hagain.target goal hbrings.outputFile).1
      exact hbrings.again hagain hkeeps (hread hgoal).2 hdigest
  | @written w' goal bytes m hbrings hsame hfound =>
    refine ⟨fun hfailed => ?_, nofun, fun _ => ?_, fun status staging' _ _ hagain => ?_⟩
    · exact absurd rfl (hfailed _ rfl)
    · exact ⟨goal, bytes, m, hbrings, hsame, hfound⟩
    · obtain ⟨stamp, hresolve⟩ := hfound (hagain.target goal hbrings.outputFile).1
      exact hbrings.again hagain hkeeps (FileTree.read_of_resolve hresolve) rfl

/-! ### A template whose stem has a dot -/

theorem stem_dotted : stagedStem ⟨"/a.b.tt"⟩ ≠ "." := by
  have hstem : stagedStem ⟨"/a.b.tt"⟩ = "a.b" := rfl
  rw [hstem]
  decide

theorem items_plain (file : Option String) : Item.ofTokens none (Scanner.ofText file "x").stream.tokens =
    [.segment (.text ⟨.content, "x", ⟨file, 1, 1⟩, ⟨file, 1, 1⟩, ⟨file, 1, 1⟩⟩)] := by
  cbv

/-- A text without directives has its run follow its own path only, and enter its directory. -/
theorem consults_plain {p : Path} (hread : w.files.readTemplate template = .ok "x")
    (hreferences : w.generator.references = []) (h : Consults w template p) :
    p = template ∨ p ∈ (Path.mk (w.files.canonicalOr template).text).parent? := by
  have hstart := start_of_read hread
  cases h with
  | template => exact .inl rfl
  | directory hdir =>
    rw [hstart] at hdir
    exact .inr hdir
  | included htext hq =>
    rw [hstart] at htext
    obtain rfl := Option.some.inj htext
    refine absurd hq (Template.not_requested ?_ _)
    simp [items_plain]
  | reference htext hname =>
    rw [hstart] at htext hname
    obtain rfl := Option.some.inj htext
    have hnone : ∀ host : Host, host.standardReferences = [] → Engine.referenceNames w.files host "x" = [] := by
      intro host hhost
      unfold Engine.referenceNames
      rw [hhost]
      cbv
    rw [hnone _ hreferences] at hname
    cases hname

theorem apart_of_way {ns : List (List String)} {s : List String} {asked : Option String}
    (hdot : stagedStem template ≠ ".") (hs : w.files.resolve staging = .ok (.vacant s)) (hway : files'.way goal = ns)
    (h : ∀ n ∈ ns, ¬ s.isPrefixOf n) : w.Apart staging template asked files' goal := by
  intro n hn
  rw [hway] at hn
  exact (outside_iff hs).2 ⟨h n hn, fun hstrays => hdot hstrays.2.1⟩

theorem run_delivers_dotted : ∃ x, dotted.run .writing ⟨"/s"⟩ ⟨"/a.b.tt"⟩ = x ∧ x.1 = .value .success ∧
    (∃ stamp, x.2.files.resolve ⟨"/a.b.b"⟩ = .ok (.entry ["a.b.b"] (.file (Encoding.utf8.encode "x") stamp))) ∧
    (x.2.run .writing ⟨"/s"⟩ ⟨"/a.b.tt"⟩).1 = .value .noChanges := by
  obtain ⟨g, hrun, hfile, hext⟩ := run_dotted
  have hoptions : TemplateOptions.loadOrDefault dotted.files ⟨"/a.b.tt"⟩ = {} :=
    loadOrDefault_of_no_sidecar rfl
  obtain ⟨-, -, -, hagain⟩ := run_delivers dotted .writing (.ok ()) {} ⟨"/s"⟩ ⟨"/a.b.tt"⟩
  refine ⟨_, hrun, rfl, ⟨1, rfl⟩, ?_⟩
  rw [hrun] at hagain
  apply hagain .success ⟨"/s"⟩ rfl rfl
  constructor
  · have hway : dotted.files.way (TemplateOptions.sidecar ⟨"/a.b.tt"⟩) = [["a.b.tt.settings.json"]] := rfl
    refine ⟨rfl, fun n hn => ?_⟩
    rw [hway, List.mem_singleton] at hn
    subst hn
    rfl
  · intro made made' hmade hmade' p hp
    obtain rfl : dottedStaging = made := Except.ok.inj hmade
    obtain rfl := Except.ok.inj hmade'
    have hread : dottedStaging.readTemplate ⟨"/a.b.tt"⟩ = .ok "x" := by cbv
    have hways : dottedStaging.way ⟨"/a.b.tt"⟩ = [["a.b.tt"]] ∧ dottedStaging.way ⟨"/"⟩ = [] := ⟨rfl, rfl⟩
    refine ⟨rfl, fun n hn => ?_⟩
    rcases consults_plain hread rfl hp with rfl | hdir
    · rw [hways.1, List.mem_singleton] at hn
      subst hn
      rfl
    · obtain rfl : ⟨"/"⟩ = p := Option.some.inj hdir
      rw [hways.2] at hn
      cases hn
  · refine ⟨_, rfl, fun bytes => ?_⟩
    rw [hoptions, stagedPath_text rfl, hext]
    exact ⟨_, rfl⟩
  · exact fun _ hdot => absurd hdot stem_dotted
  · intro goal hgoal
    obtain rfl := Option.some.inj (hfile.symm.trans hgoal)
    have hway : (dottedAfter (Encoding.utf8.encode "x")).way ⟨"/a.b.b"⟩ = [["a.b.b"]] := rfl
    have hbefore : dotted.files.resolve ⟨"/s"⟩ = .ok (.vacant ["s"]) := rfl
    have hafter : (dottedAfter (Encoding.utf8.encode "x")).resolve ⟨"/s"⟩ = .ok (.vacant ["s"]) := rfl
    exact ⟨apart_of_way stem_dotted hbefore hway (by decide), apart_of_way stem_dotted hafter hway (by decide)⟩

/-! ### A run that meets what it has made -/

/-- A run does not come by these names when it reads. -/
def Overlooks (w : Generation) (staging template : Path) (n : List String) : Prop :=
  ∀ made, w.files.makeDirectory staging = .ok made → ∀ p, Consults ⟨w.generator, made⟩ template p → n ∉ made.way p

/-- What the run of a text that is a single include follows. -/
theorem consults_include {text f : String} {d : Directive} {i : Include} {p : Path}
    (hstart : start ⟨g', files⟩ template = (some text, ⟨g, files⟩))
    (hitems : Item.ofTokens none (Scanner.ofText g.templateFile text).stream.tokens = [.segment (.directive d)])
    (hf : d.attribute? "file" = some f)
    (hload : (g.includes files).load (Template.request files g.templateFile f) = some i)
    (hinner : ∀ e, .segment (.directive e) ∉
      Item.ofTokens none (Scanner.ofText (some i.name) i.content).stream.tokens)
    (hnames : Engine.referenceNames files (g.host files) text = []) (h : Consults ⟨g', files⟩ template p) :
    p ∈ template :: g.templateDirectory.toList ++ (Generator.besides g.templateFile f ++
      g.includeLookups files (Template.request files g.templateFile f)) := by
  cases h with
  | template => exact List.mem_cons_self
  | directory hdir =>
    rw [hstart] at hdir
    exact List.mem_append_left _ (List.mem_cons_of_mem _ (Option.mem_toList.2 hdir))
  | included htext hq hp =>
    rw [hstart] at htext hq hp
    obtain rfl := Option.some.inj htext
    obtain rfl := Template.eq_of_requests hitems hf hload hinner hq
    exact List.mem_append_right _ hp
  | reference htext hname =>
    rw [hstart] at htext hname
    obtain rfl := Option.some.inj htext
    rw [hnames] at hname
    cases hname

/-- A text that comes to a template without references, by a generator without any, asks for none. -/
theorem referenceNames_of_parsed {t : Template} {text : String}
    (hparsed : Engine.parsed files (g.host files) text = t) (hreferences : g.references = [])
    (hsettings : (TemplateSettings.ofTemplate t).1.references = [])
    (hrouting : (Routing.ofTemplate (g.host files) t).1.references = []) :
    Engine.referenceNames files (g.host files) text = [] := by
  unfold Engine.parsed at hparsed
  unfold Engine.referenceNames
  rw [hparsed]
  dsimp only
  rw [hsettings, hrouting, Generator.host, hreferences]
  rfl

theorem not_mem_way_of_mem {ps : List Path} {ways : List (List (List String))} {p : Path} {n : List String}
    (hp : p ∈ ps) (hways : ps.map files.way = ways) (h : ∀ ns ∈ ways, n ∉ ns) : n ∉ files.way p := by
  apply h
  rw [← hways]
  exact List.mem_map_of_mem hp

def aroundText : String :=
  "<#@ include file='out/../inc.txt' #>"

/-- A template that includes a text by way of a directory, which is there only for the second one of the
places where the text is looked for. -/
def aroundFiles (more : List (List String × FileTree.Entry)) (clock : Nat) : FileTree :=
  { entries := [(["a.tt"], .file aroundText.toUTF8 0),
      (["a.tt.settings.json"], .file "\x7b\"outputPath\":\"out/a.txt\"\x7d".toUTF8 0),
      (["inc.txt"], .file "<# x".toUTF8 0), (["lib"], .directory),
      (["lib", "inc.txt"], .file "x".toUTF8 0), (["lib", "out"], .directory)] ++ more
    clock }

def around : Generation :=
  { generator := { includePaths := [⟨"/lib"⟩] }, files := aroundFiles [] 0 }

def aroundDirective : Directive :=
  { name := "include"
    attributes := [("file", "out/../inc.txt")]
    start := ⟨some "/a.tt", 1, 5⟩
    tagStart := ⟨some "/a.tt", 1, 1⟩
    ending := ⟨some "/a.tt", 1, 37⟩ }

theorem items_around : Item.ofTokens none (Scanner.ofText (some "/a.tt") aroundText).stream.tokens =
      [.segment (.directive aroundDirective)] ∧
    (Scanner.ofText (some "/a.tt") aroundText).stream.fault? = none := by
  constructor <;> cbv

theorem readTemplate_around (more : List (List String × FileTree.Entry)) (clock : Nat) :
    (aroundFiles more clock).readTemplate ⟨"/a.tt"⟩ = .ok aroundText :=
  FileTree.readTemplate_of_read rfl rfl

theorem start_around (g : Generator) (more : List (List String × FileTree.Entry)) (clock : Nat) :
    ∃ g', start ⟨g, aroundFiles more clock⟩ ⟨"/a.tt"⟩ = (some aroundText, ⟨g', aroundFiles more clock⟩) ∧
      g'.templateFile = some "/a.tt" ∧ g'.includePaths = g.includePaths ∧ g'.references = g.references :=
  ⟨_, start_of_read (readTemplate_around more clock), rfl, rfl, rfl⟩

theorem options_around (more : List (List String × FileTree.Entry)) (clock : Nat) :
    TemplateOptions.loadOrDefault (aroundFiles more clock) ⟨"/a.tt"⟩ = { outputPath := some ⟨"out/a.txt"⟩ } := by
  have hread : (aroundFiles more clock).read ⟨"/a.tt.settings.json"⟩ =
    .ok "\x7b\"outputPath\":\"out/a.txt\"\x7d".toUTF8 := rfl
  have hdocument : (Document.Json.read? "\x7b\"outputPath\":\"out/a.txt\"\x7d").bind
    TemplateOptions.ofDocument? = some { outputPath := some ⟨"out/a.txt"⟩ } := by cbv
  have hsidecar : TemplateOptions.sidecar ⟨"/a.tt"⟩ = ⟨"/a.tt.settings.json"⟩ := rfl
  have hfile : (aroundFiles more clock).isFile ⟨"/a.tt.settings.json"⟩ = true := rfl
  unfold TemplateOptions.loadOrDefault TemplateOptions.load FileTree.readText
  dsimp only
  rw [hsidecar, if_pos hfile, hread]
  dsimp only
  rw [Text.decode_toUTF8]
  dsimp only
  rw [hdocument]

/-- The tree in which the first run works. -/
def aroundStaging : FileTree :=
  aroundFiles [(["s"], .directory)] 0

section
variable (hpaths : g.includePaths = [⟨"/lib"⟩]) (hfile : g.templateFile = some "/a.tt")
include hpaths hfile

theorem load_around : (g.includes aroundStaging).load "out/../inc.txt" = some ⟨"x", "/lib/inc.txt"⟩ := by
  have hcandidates : g.includeCandidates aroundStaging "out/../inc.txt" =
      [⟨"/out/../inc.txt"⟩, ⟨"/lib/out/../inc.txt"⟩] := by
    unfold Generator.includeCandidates Generator.resolvePath Generator.templateDirectory
    rw [hpaths, hfile]
    rfl
  have hmissing : aroundStaging.isFile ⟨"/out/../inc.txt"⟩ = false := rfl
  have hfound : aroundStaging.isFile ⟨"/lib/out/../inc.txt"⟩ = true := rfl
  have hread : aroundStaging.readTemplate ⟨"/lib/out/../inc.txt"⟩ = .ok "x" :=
    FileTree.readTemplate_of_read rfl rfl
  unfold Generator.includes Generator.loadInclude
  simp only [hcandidates, List.find?_cons, hmissing, hfound, hread]
  rfl

theorem parsed_around : Engine.parsed aroundStaging (g.host aroundStaging) aroundText =
    (({ root := some "/a.tt" } : Template).add true (.text ⟨.content, "x", ⟨some "/lib/inc.txt", 1, 1⟩,
      ⟨some "/lib/inc.txt", 1, 1⟩, ⟨some "/lib/inc.txt", 1, 1⟩⟩)).placeHelpers := by
  have hload := load_around hpaths hfile
  have hrequest : Template.request aroundStaging (some "/a.tt") "out/../inc.txt" = "out/../inc.txt" := rfl
  have hplain : (Scanner.ofText (some "/lib/inc.txt") "x").stream.fault? = none := by cbv
  rw [← hrequest] at hload
  unfold Engine.parsed Generator.host
  dsimp only
  rw [hfile, Template.ofText_include items_around.1 (by cbv) hload items_around.2 (by cbv) (by cbv) (by decide)]
  dsimp only
  rw [items_plain, hplain, Template.expand, Template.expand]

theorem clear_around : Engine.earlyReport aroundStaging (g.host aroundStaging) aroundText = [] ∧
    Engine.settingEffects (TemplateSettings.ofTemplate
      (Engine.parsed aroundStaging (g.host aroundStaging) aroundText)).1 = [] := by
  unfold Engine.earlyReport Engine.settingsReport Engine.routingReport
  rw [parsed_around hpaths hfile]
  exact ⟨rfl, rfl⟩

end

def aroundAfter (bytes : ByteArray) : FileTree :=
  aroundFiles [(["out"], .directory), (["out", "a.txt"], .file bytes 1)] 2

theorem delivered_around (g : Generator) (bytes : ByteArray) :
    (deliver ⟨g, aroundFiles [(["s"], .directory), (["s", "a"], .file bytes 0)] 1⟩ ⟨"/s/a"⟩ ⟨"/out/a.txt"⟩).1 =
        .success ∧
      (deliver ⟨g, aroundFiles [(["s"], .directory), (["s", "a"], .file bytes 0)] 1⟩ ⟨"/s/a"⟩
        ⟨"/out/a.txt"⟩).2.unstage ⟨"/s"⟩ =
          ⟨{ g with outputFile := some ⟨"/out/a.txt"⟩ }, aroundAfter bytes⟩ :=
  ⟨rfl, rfl⟩

theorem run_around : ∃ g : Generator, around.run .writing ⟨"/s"⟩ ⟨"/a.tt"⟩ =
    (.value .success, ⟨g, aroundAfter (Encoding.utf8.encode "x")⟩) ∧ g.outputFile = some ⟨"/out/a.txt"⟩ := by
  have hread : aroundStaging.readTemplate ⟨"/a.tt"⟩ = .ok aroundText := readTemplate_around _ _
  have hstaged : outputPath? {} ⟨"/a.tt"⟩ (some ((Path.mk "/s").join ⟨stagedStem ⟨"/a.tt"⟩⟩)) = some ⟨"/s/a"⟩ := rfl
  have hwritten : ∀ bytes, aroundStaging.write ⟨"/s/a"⟩ bytes =
    .ok (aroundFiles [(["s"], .directory), (["s", "a"], .file bytes 0)] 1) := fun _ => rfl
  have hgoal : target { outputPath := some ⟨"out/a.txt"⟩ } ⟨"/a.tt"⟩ (Path.withPlainExtension ⟨"/a.tt"⟩
    ((Path.mk "/s/a").extension?.getD defaultExtension)) = ⟨"/out/a.txt"⟩ := rfl
  obtain ⟨g, -, hrun⟩ := run_writing around (.ok ()) [] none rfl (options_around _ _) rfl hread
    (fun _ hfile hpaths => clear_around hpaths hfile) rfl rfl hstaged (hwritten (Encoding.utf8.encode "x")) hgoal
  obtain ⟨hstatus, hleft⟩ := delivered_around g (Encoding.utf8.encode "x")
  rw [hstatus, hleft] at hrun
  exact ⟨_, hrun, rfl⟩

/-- The tree in which the second run works. -/
def aroundAgain (bytes : ByteArray) : FileTree :=
  aroundFiles [(["out"], .directory), (["out", "a.txt"], .file bytes 1), (["s"], .directory)] 2

theorem request_again (bytes : ByteArray) :
    Template.request (aroundAgain bytes) (some "/a.tt") "out/../inc.txt" = "/inc.txt" :=
  rfl

theorem items_faulty : Item.ofTokens none (Scanner.ofText (some "/inc.txt") "<# x").stream.tokens = [] := by
  cbv

theorem load_again (g : Generator) (bytes : ByteArray) :
    (g.includes (aroundAgain bytes)).load "/inc.txt" = some ⟨"<# x", "/inc.txt"⟩ := by
  have hfound : (aroundAgain bytes).isFile ⟨"/inc.txt"⟩ = true := rfl
  have hread : (aroundAgain bytes).readTemplate ⟨"/inc.txt"⟩ = .ok "<# x" :=
    FileTree.readTemplate_of_read rfl rfl
  have hcandidates : g.includeCandidates (aroundAgain bytes) "/inc.txt" = [⟨"/inc.txt"⟩] := rfl
  unfold Generator.includes Generator.loadInclude
  simp only [hcandidates, List.find?_cons, hfound, hread]
  rfl

theorem parsed_again (bytes : ByteArray) (hfile : g.templateFile = some "/a.tt") :
    Engine.parsed (aroundAgain bytes) (g.host (aroundAgain bytes)) aroundText =
      ({ root := some "/a.tt" } : Template).recordFault ⟨.unexpectedEnd, ⟨some "/inc.txt", 1, 5⟩⟩ := by
  have hload : (g.includes (aroundAgain bytes)).load
      (Template.request (aroundAgain bytes) (some "/a.tt") "out/../inc.txt") = some ⟨"<# x", "/inc.txt"⟩ := by
    rw [request_again]
    exact load_again g bytes
  have hfault : (Scanner.ofText (some "/inc.txt") "<# x").stream.fault? =
    some ⟨.unexpectedEnd, ⟨some "/inc.txt", 1, 5⟩⟩ := by cbv
  unfold Engine.parsed Generator.host
  dsimp only
  rw [hfile, Template.ofText_include items_around.1 (by cbv) hload items_around.2 (by cbv) (by cbv) (by decide)]
  dsimp only
  rw [items_faulty, hfault, Template.expand]

theorem not_noChanges_of_unparsed {made : FileTree} {text : String}
    (hmade : w.files.makeDirectory staging = .ok made)
    (hkind : (TemplateOptions.loadOrDefault w.files template).outputKind = .text)
    (hread : made.readTemplate template = .ok text)
    (herrors : (Engine.parsed made ((start ⟨w.generator, made⟩ template).2.generator.host made)
      text).errors.hasErrors) : (w.run compiler staging template fresh).1 ≠ .value .noChanges := by
  intro hstatus
  have hends := run_runEnds w compiler fresh {} staging template
  generalize w.run compiler staging template fresh = x at hstatus hends
  cases hends with
  | failed hfailed => exact hfailed _ hstatus rfl
  | written => cases hstatus
  | broken => cases hstatus
  | unchanged hbrings =>
    obtain ⟨made', -, g, hmade', hout, -⟩ := hbrings.output
    obtain rfl := Except.ok.inj (hmade.symm.trans hmade')
    have hstart := start_of_read (w := ⟨w.generator, made⟩) hread
    have hfiles := files_start ⟨w.generator, made⟩ template
    generalize (TemplateOptions.loadOrDefault w.files template).outputKind = kind at hout hkind
    cases hout with
    | source => cases hkind
    | text htext hgives _ =>
      obtain ⟨ds, hds⟩ := hgives.outcome
      rw [hstart] at htext
      obtain rfl := Option.some.inj htext
      unfold Engine.parsed at herrors
      unfold engineRun Engine.process Engine.prepare at hds
      rw [hfiles] at hds
      dsimp only at hds
      rw [if_pos herrors] at hds
      cases hds

theorem run_again_around (g : Generator) (bytes : ByteArray) :
    (run ⟨g, aroundAfter bytes⟩ compiler ⟨"/s"⟩ ⟨"/a.tt"⟩).1 ≠ .value .noChanges := by
  have hread : (aroundAgain bytes).readTemplate ⟨"/a.tt"⟩ = .ok aroundText := readTemplate_around _ _
  obtain ⟨g', hstart, hfile, -⟩ := start_around g
    [(["out"], .directory), (["out", "a.txt"], .file bytes 1), (["s"], .directory)] 2
  change start ⟨g, aroundAgain bytes⟩ ⟨"/a.tt"⟩ = (some aroundText, ⟨g', aroundAgain bytes⟩) at hstart
  have hoptions : TemplateOptions.loadOrDefault (aroundAfter bytes) ⟨"/a.tt"⟩ = _ := options_around _ _
  have hmade : (aroundAfter bytes).makeDirectory ⟨"/s"⟩ = .ok (aroundAgain bytes) := rfl
  apply not_noChanges_of_unparsed hmade (by rw [hoptions]) hread
  rw [hstart, parsed_again bytes hfile]
  rfl

section
variable (hfile : g.templateFile = some "/a.tt")
include hfile

theorem directory_around : g.templateDirectory = some ⟨"/"⟩ := by
  unfold Generator.templateDirectory
  rw [hfile]
  rfl

theorem listed_around (hpaths : g.includePaths = [⟨"/lib"⟩]) :
    g.templateDirectory.toList ++ (Generator.besides g.templateFile "out/../inc.txt" ++
      g.includeLookups aroundStaging "out/../inc.txt") =
        [⟨"/"⟩, ⟨"/out/../inc.txt"⟩, ⟨"/out/../inc.txt"⟩, ⟨"/out/../inc.txt"⟩, ⟨"/lib/out/../inc.txt"⟩] := by
  unfold Generator.includeLookups Generator.fromTemplate Generator.includeCandidates Generator.resolvePath
  rw [directory_around hfile, hfile, hpaths]
  rfl

theorem listed_again (bytes : ByteArray) :
    g.templateDirectory.toList ++ (Generator.besides g.templateFile "out/../inc.txt" ++
      g.includeLookups (aroundAgain bytes) "/inc.txt") =
        [⟨"/"⟩, ⟨"/out/../inc.txt"⟩, ⟨"/inc.txt"⟩, ⟨"/inc.txt"⟩] := by
  unfold Generator.includeLookups Generator.fromTemplate Generator.includeCandidates Generator.resolvePath
  rw [directory_around hfile, hfile]
  rfl

end

theorem overlooks_around : Overlooks around ⟨"/s"⟩ ⟨"/a.tt"⟩ ["out", "a.txt"] := by
  intro made hmade p hp
  obtain rfl : aroundStaging = made := Except.ok.inj hmade
  obtain ⟨g, hstart, hfile, hpaths, hreferences⟩ := start_around around.generator [(["s"], .directory)] 0
  change start ⟨around.generator, aroundStaging⟩ ⟨"/a.tt"⟩ = (some aroundText, ⟨g, aroundStaging⟩) at hstart
  have hrequest : Template.request aroundStaging (some "/a.tt") "out/../inc.txt" = "out/../inc.txt" := rfl
  have hlisted := consults_include hstart (by rw [hfile]; exact items_around.1) (by cbv)
    (by rw [hfile, hrequest]; exact load_around hpaths hfile) (by simp [items_plain])
    (referenceNames_of_parsed (parsed_around hpaths hfile) hreferences rfl rfl) hp
  rw [List.cons_append, hfile, hrequest, ← hfile, listed_around hfile hpaths] at hlisted
  have hways : List.map aroundStaging.way [⟨"/a.tt"⟩, ⟨"/"⟩, ⟨"/out/../inc.txt"⟩, ⟨"/out/../inc.txt"⟩,
    ⟨"/out/../inc.txt"⟩, ⟨"/lib/out/../inc.txt"⟩] = [[["a.tt"]], [], [["out"]], [["out"]], [["out"]],
      [["lib"], ["lib", "out"], ["lib", "inc.txt"]]] := rfl
  exact not_mem_way_of_mem hlisted hways (by decide)

theorem overlooks_again (g : Generator) (bytes : ByteArray) (hg : g.references = []) :
    Overlooks ⟨g, aroundAfter bytes⟩ ⟨"/s"⟩ ⟨"/a.tt"⟩ ["out", "a.txt"] := by
  intro made hmade p hp
  obtain rfl : aroundAgain bytes = made := Except.ok.inj hmade
  obtain ⟨g', hstart, hfile, -, hreferences⟩ := start_around g
    [(["out"], .directory), (["out", "a.txt"], .file bytes 1), (["s"], .directory)] 2
  change start ⟨g, aroundAgain bytes⟩ ⟨"/a.tt"⟩ = (some aroundText, ⟨g', aroundAgain bytes⟩) at hstart
  have hlisted := consults_include hstart (by rw [hfile]; exact items_around.1) (by cbv)
    (by rw [hfile, request_again bytes]; exact load_again _ bytes) (by simp [items_faulty])
    (referenceNames_of_parsed (parsed_again bytes hfile) (hreferences.trans hg) rfl rfl) hp
  rw [List.cons_append, hfile, request_again, ← hfile, listed_again hfile] at hlisted
  have hways : List.map (aroundAgain bytes).way [⟨"/a.tt"⟩, ⟨"/"⟩, ⟨"/out/../inc.txt"⟩, ⟨"/inc.txt"⟩,
    ⟨"/inc.txt"⟩] = [[["a.tt"]], [], [["out"], ["inc.txt"]], [["inc.txt"]], [["inc.txt"]]] := rfl
  exact not_mem_way_of_mem hlisted hways (by decide)

/-! ### A template whose stem is a dot -/

def leakingText : String :=
  "<#@ output extension='a' #>x"

def leaking : Generation :=
  { generator := {}, files := { entries := [(["..tt"], .file leakingText.toUTF8 0)] } }

def leakingStaging : FileTree :=
  { entries := [(["..tt"], .file leakingText.toUTF8 0), (["s"], .directory)] }

def leakingStaged (bytes : ByteArray) : FileTree :=
  { entries := [(["..tt"], .file leakingText.toUTF8 0), (["s"], .directory), (["s.a"], .file bytes 0)], clock := 1 }

def leakingAfter (bytes : ByteArray) : FileTree :=
  { entries := [(["..tt"], .file leakingText.toUTF8 0), (["s.a"], .file bytes 0), (["..a"], .file bytes 1)]
    clock := 2 }

theorem delivered_leaking (g : Generator) (bytes : ByteArray) :
    (deliver ⟨g, leakingStaged bytes⟩ ⟨"/s.a"⟩ ⟨"/..a"⟩).1 = .success ∧
      (deliver ⟨g, leakingStaged bytes⟩ ⟨"/s.a"⟩ ⟨"/..a"⟩).2.unstage ⟨"/s"⟩ =
        ⟨{ g with outputFile := some ⟨"/..a"⟩ }, leakingAfter bytes⟩ :=
  ⟨rfl, rfl⟩

theorem run_leaking : ∃ g : Generator, leaking.run .writing ⟨"/s"⟩ ⟨"/..tt"⟩ =
    (.value .success, ⟨g, leakingAfter (Encoding.utf8.encode "x")⟩) ∧ g.outputFile = some ⟨"/..a"⟩ := by
  have hclear : ∀ host, Engine.earlyReport leakingStaging host leakingText = [] ∧
      Engine.settingEffects (TemplateSettings.ofTemplate
        (Engine.parsed leakingStaging host leakingText)).1 = [.setExtension "a"] := by
    intro host
    constructor <;> cbv
  have hread : leakingStaging.readTemplate ⟨"/..tt"⟩ = .ok leakingText := FileTree.readTemplate_of_read rfl rfl
  have hoptions : TemplateOptions.loadOrDefault leaking.files ⟨"/..tt"⟩ = {} := loadOrDefault_of_no_sidecar rfl
  have hstaged : outputPath? (List.foldl Generator.observe {} [.setExtension "a"]) ⟨"/..tt"⟩
    (some ((Path.mk "/s").join ⟨stagedStem ⟨"/..tt"⟩⟩)) = some ⟨"/s.a"⟩ := rfl
  have hwritten : ∀ bytes, leakingStaging.write ⟨"/s.a"⟩ bytes = .ok (leakingStaged bytes) := fun _ => rfl
  have hgoal : target {} ⟨"/..tt"⟩ (Path.withPlainExtension ⟨"/..tt"⟩
    ((Path.mk "/s.a").extension?.getD defaultExtension)) = ⟨"/..a"⟩ := rfl
  obtain ⟨g, -, hrun⟩ := run_writing leaking (.ok ()) [.setExtension "a"] none rfl hoptions rfl hread
    (fun _ _ _ => hclear _) rfl rfl hstaged (hwritten (Encoding.utf8.encode "x")) hgoal
  obtain ⟨hstatus, hleft⟩ := delivered_leaking g (Encoding.utf8.encode "x")
  rw [hstatus, hleft] at hrun
  exact ⟨_, hrun, rfl⟩

/-! ### A copy that is broken off -/

/-- What a full disk reports. -/
def diskFull : WriteFault :=
  { error := .system "No space left on device (os error 28)", written := some 0 }

theorem delivered_broken (g : Generator) (bytes : ByteArray) :
    (deliver ⟨g, dottedStaged bytes⟩ ⟨"/s/a.b"⟩ ⟨"/a.b.b"⟩ (some diskFull)).1 = .processingError ∧
      ((deliver ⟨g, dottedStaged bytes⟩ ⟨"/s/a.b"⟩ ⟨"/a.b.b"⟩ (some diskFull)).2.unstage ⟨"/s"⟩).files.read
        ⟨"/a.b.b"⟩ = .ok (bytes.extract 0 0) :=
  ⟨rfl, rfl⟩

theorem run_broken : ∃ w', dotted.run .writing ⟨"/s"⟩ ⟨"/a.b.tt"⟩ (.ok ()) { target := some diskFull } =
    (.value .processingError, w') ∧ w'.files.read ⟨"/a.b.b"⟩ = .ok .empty := by
  obtain ⟨g, -, hrun⟩ := run_dotted_staged (some diskFull)
  obtain ⟨hstatus, hleft⟩ := delivered_broken g (Encoding.utf8.encode "x")
  rw [hstatus] at hrun
  exact ⟨_, hrun, hleft.trans (congrArg _ ByteArray.extract_same)⟩

/-- The conditions on what a run does are needed. A run can meet the directory that it has made itself when it
is done again, though neither run comes by the target when it reads. A stem that is a dot leaves a staged file
beside the directory that is dropped. And where copying is broken off there is a new file, though the run has
not succeeded. -/
theorem run_delivers_limits :
    (∃ w', around.run .writing ⟨"/s"⟩ ⟨"/a.tt"⟩ = (.value .success, w') ∧
      w'.generator.outputFile = some ⟨"/out/a.txt"⟩ ∧
      Overlooks around ⟨"/s"⟩ ⟨"/a.tt"⟩ ["out", "a.txt"] ∧ Overlooks w' ⟨"/s"⟩ ⟨"/a.tt"⟩ ["out", "a.txt"] ∧
      (w'.run .writing ⟨"/s"⟩ ⟨"/a.tt"⟩).1 ≠ .value .noChanges) ∧
    (∃ w', leaking.run .writing ⟨"/s"⟩ ⟨"/..tt"⟩ = (.value .success, w') ∧
      w'.generator.outputFile = some ⟨"/..a"⟩ ∧ leaking.files.isFile ⟨"/s.a"⟩ = false ∧
      w'.files.isFile ⟨"/s.a"⟩ = true) ∧
    dotted.files.isFile ⟨"/a.b.b"⟩ = false ∧
      ∃ w', dotted.run .writing ⟨"/s"⟩ ⟨"/a.b.tt"⟩ (.ok ()) { target := some diskFull } =
        (.value .processingError, w') ∧ w'.files.read ⟨"/a.b.b"⟩ = .ok .empty := by
  obtain ⟨g, hrun, hfile⟩ := run_around
  obtain ⟨g', hrun', hfile'⟩ := run_leaking
  have hkeeps := (keeps_run around .writing ⟨"/s"⟩ ⟨"/a.tt"⟩ (.ok ()) {}).pristine
  rw [hrun] at hkeeps
  have hreferences : g.references = [] := congrArg Generator.references hkeeps
  exact ⟨⟨_, hrun, hfile, overlooks_around, overlooks_again g _ hreferences, run_again_around _ _⟩,
    ⟨_, hrun', hfile', rfl, rfl⟩, rfl, run_broken⟩

end Generation

end Templating
