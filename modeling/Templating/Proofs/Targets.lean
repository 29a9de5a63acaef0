import Mathlib
import Templating.Proofs.Naming
import Templating.Proofs.Silence

/-!
# Where output goes

Processing puts the output beside its template, under the extension that the template asked for. A run
stages it under the template's stem, reads the extension back from the staged name and puts that on the
template. The two agree exactly if the staged name gives the extension back (`run_target_eq_iff`).
-/

namespace Templating

namespace Path

/-! ## Extensions without a slash -/

theorem noSlash_stem {name : String} (h : '/' ∉ name.toList) : '/' ∉ (cutName name).1.toList :=
  fun hmem => h ((stem_start name).mem hmem)

theorem EndsIn.extension? {p : Path} {front : List Char} {name : String} (h : EndsIn p front name) :
    p.extension? = (cutName name).2 := by
  rw [Path.extension?, h.name?]
  rfl

theorem noSlash_extension? {p : Path} {ext : String} (h : p.extension? = some ext) : '/' ∉ ext.toList := by
  obtain ⟨name, hname, he⟩ := Option.bind_eq_some_iff.1 h
  obtain ⟨front, hp⟩ := endsIn_of_name hname
  have hslash := hp.isName.noSlash
  rcases cutName_cases name with e | ⟨stem, ext', -, -, rfl, e⟩
  · rw [e] at he
    cases he
  · rw [e] at he
    obtain rfl := Option.some.inj he
    simp only [String.toList_append, List.mem_append, not_or] at hslash
    exact hslash.2

theorem noSlash_of_withExtension? {p q : Path} {ext : String} (h : p.withExtension? ext = some q) :
    '/' ∉ ext.toList := by
  intro hslash
  rw [withExtension?, if_pos hslash] at h
  cases h

theorem withExtension?_of_nameless {p : Path} {ext : String} (h : p.name? = none)
    (he : '/' ∉ ext.toList) : p.withExtension? ext = some p := by
  unfold name? at h
  unfold withExtension?
  rw [if_neg he]
  generalize p.marks.getLast? = last at h ⊢
  split at h
  · cases h
  · rfl

/-- Extensions that differ make paths that differ. -/
theorem EndsIn.withExtension?_inj {p : Path} {front : List Char} {name a b : String}
    (h : EndsIn p front name) (ha : '/' ∉ a.toList) (hb : '/' ∉ b.toList) :
    p.withExtension? a = p.withExtension? b ↔ a = b := by
  refine ⟨fun e => ?_, fun e => by rw [e]⟩
  rw [h.withExtension? ha, h.withExtension? hb] at e
  have hsuffix := (String.append_right_inj _).1 (congrArg Path.text (Option.some.inj e))
  by_cases ha' : a = "" <;> by_cases hb' : b = ""
  · rw [ha', hb']
  · rw [if_pos ha', if_neg hb'] at hsuffix
    simp [← String.toList_inj] at hsuffix
  · rw [if_neg ha', if_pos hb'] at hsuffix
    simp [← String.toList_inj] at hsuffix
  · rw [if_neg ha', if_neg hb'] at hsuffix
    exact (String.append_right_inj _).1 hsuffix

theorem isName_or_dots {x : String} (hne : x ≠ "") (hslash : '/' ∉ x.toList) :
    IsName x.toList ∨ x = "." ∨ x = ".." := by
  by_cases hdot : x = "."
  · exact .inr (.inl hdot)
  · by_cases hdots : x = ".."
    · exact .inr (.inr hdots)
    · exact .inl ⟨by simpa using hne, fun e => hdot (String.toList_inj.1 e),
        fun e => hdots (String.toList_inj.1 e), hslash⟩

end Path

namespace Generation

variable {w w' : Generation} {compiler : Compiler} {input staging template staged target : Path}
  {output : Option Path} {fresh : Except FileError Unit} {fault : Option WriteFault} {faults : RunFaults}

/-! ## What success leaves -/

/-- A template that was processed has its output at its target. -/
theorem process_succeeded (h : w.process compiler input output fresh fault = (.value true, w')) :
    ∃ target files bytes, outputPath? w'.generator input output = some target ∧
      w'.generator.outputFile = some target ∧ FileTree.write files target bytes = .ok w'.files := by
  cases hread : (w.start input).1 with
  | none =>
    rw [process_of_unread hread] at h
    cases (Prod.mk.inj h).1
  | some text =>
    rw [process_of_read hread] at h
    generalize (w.start input).2.absorb _ = absorbed at h
    obtain ⟨(_ | produced) | _, w₁⟩ := absorbed
    · cases (Prod.mk.inj h).1
    · unfold settle at h
      dsimp only at h
      split at h
      · cases (Prod.mk.inj h).1
      · rename_i target htarget
        unfold writeOutput at h
        split at h
        · rename_i files hwritten
          obtain rfl := FileTree.fault_of_write hwritten
          obtain ⟨-, rfl⟩ := Prod.mk.inj h
          exact ⟨target, _, _, htarget, rfl, hwritten⟩
        · cases (Prod.mk.inj h).1
    · cases (Prod.mk.inj h).1

theorem deliver_succeeded (hs : (w.deliver staged target fault).1.succeeded) :
    (w.deliver staged target fault).2.generator = { w.generator with outputFile := some target } := by
  generalize hdelivered : w.deliver staged target fault = delivered at hs ⊢
  unfold deliver at hdelivered
  dsimp only at hdelivered
  split at hdelivered
  · rw [← hdelivered]
  · split at hdelivered
    · rw [← hdelivered] at hs
      cases hs
    · split at hdelivered
      · rw [← hdelivered]
      · rw [← hdelivered] at hs
        cases hs

theorem not_succeeded_failureStatus (g : Generator) : ¬ (failureStatus g).succeeded := by
  unfold failureStatus
  split
  · split <;> decide
  · decide

theorem generator_unstage (w : Generation) (staging : Path) :
    (w.unstage staging).generator = w.generator := by
  unfold unstage
  split <;> rfl

/-- A run that succeeded staged its output first, and put the extension of the staged name on the
template. -/
theorem run_succeeded {status : RunStatus}
    (hkind : (TemplateOptions.loadOrDefault w.files template).outputKind = .text)
    (hpath : (TemplateOptions.loadOrDefault w.files template).outputPath = none)
    (h : w.run compiler staging template fresh faults = (.value status, w')) (hs : status.succeeded) :
    ∃ staged files bytes files',
      outputPath? w'.generator template (some (staging.join ⟨stagedStem template⟩)) = some staged ∧
      FileTree.write files staged bytes = .ok files' ∧
      w'.generator.outputFile =
        some (template.withPlainExtension (staged.extension?.getD defaultExtension)) := by
  unfold run at h
  dsimp only at h
  split at h
  · obtain ⟨hstatus, -⟩ := Prod.mk.inj h
    obtain rfl := Outcome.value.inj hstatus
    cases hs
  · rename_i files _
    unfold runStaged at h
    rw [hkind] at h
    unfold runText at h
    dsimp only at h
    generalize hprocessed : ({ w with files } : Generation).process compiler template
      (some (staging.join ⟨stagedStem template⟩)) fresh faults.staged = processed at h
    obtain ⟨(_ | _) | _, w₁⟩ := processed
    · obtain ⟨hstatus, -⟩ := Prod.mk.inj h
      obtain rfl := Outcome.value.inj hstatus
      exact absurd hs (not_succeeded_failureStatus _)
    · obtain ⟨staged, before, bytes, hstaged, hfile, hwritten⟩ := process_succeeded hprocessed
      dsimp only at h
      rw [hfile] at h
      obtain ⟨hstatus, rfl⟩ := Prod.mk.inj h
      obtain rfl := Outcome.value.inj hstatus
      dsimp only
      rw [generator_unstage, deliver_succeeded hs]
      refine ⟨staged, before, bytes, _, hstaged, hwritten, ?_⟩
      rw [target, hpath]
    · cases (Prod.mk.inj h).1

end Generation

/-! ## Reading the extension back -/

/-- What was written to after a front is a name. -/
theorem FileTree.endsIn_of_write {files files' : FileTree} {front : List Char} {x : String}
    {bytes : ByteArray} (hf : Path.IsFront front) (hne : x ≠ "") (hslash : '/' ∉ x.toList)
    (h : files.write ⟨String.ofList front ++ x⟩ bytes = .ok files') :
    Path.EndsIn ⟨String.ofList front ++ x⟩ front x := by
  rcases Path.isName_or_dots hne hslash with hname | hdots
  · exact Path.endsIn_append hf hname
  · obtain ⟨e, he⟩ := files.write_dots hf hdots bytes
    cases he.symm.trans h

namespace Generation

/-- Whether the name that output is staged under gives back the extension that the template asked for:
none, an empty one or another. -/
def ReadsBack (stem : String) : Option String → Prop
  | none => (Path.cutName stem).2 = none ∨ (Path.cutName stem).2 = some defaultExtension
  | some ext => if ext = "" then (Path.cutName (Path.cutName stem).1).2 = some "" else '.' ∉ ext.toList

variable {files files' : FileTree} {bytes : ByteArray} {staging staged : Path} {stem ext : String}

theorem readsBack_none (hne : stem ≠ "") (hslash : '/' ∉ stem.toList)
    (h : files.write (staging.join ⟨stem⟩) bytes = .ok files') :
    (staging.join ⟨stem⟩).extension?.getD defaultExtension = defaultExtension ↔ ReadsBack stem none := by
  obtain ⟨front, hf, hjoin, -⟩ := Path.join_of_relative (p := staging) (q := ⟨stem⟩) hslash
  rw [hjoin] at h ⊢
  rw [(FileTree.endsIn_of_write hf hne hslash h).extension?, ReadsBack]
  cases (Path.cutName stem).2 <;> simp

theorem readsBack_empty (hname : Path.IsName stem.toList)
    (h : (staging.join ⟨stem⟩).withExtension? "" = some staged)
    (hw : files.write staged bytes = .ok files') :
    staged.extension?.getD defaultExtension = "" ↔ ReadsBack stem (some "") := by
  obtain ⟨front, hf, hjoin, -⟩ := Path.join_of_relative (p := staging) (q := ⟨stem⟩) hname.noSlash
  rw [hjoin, (Path.endsIn_append hf hname).withExtension? List.not_mem_nil, if_pos rfl,
    String.append_empty] at h
  obtain rfl := Option.some.inj h
  have hne : (Path.cutName stem).1 ≠ "" := Path.stem_ne_empty (by simpa using hname.ne_nil)
  rw [(FileTree.endsIn_of_write hf hne (Path.noSlash_stem hname.noSlash) hw).extension?, ReadsBack,
    if_pos rfl]
  cases (Path.cutName (Path.cutName stem).1).2 <;> simp [defaultExtension]

theorem readsBack_some (hne : stem ≠ "") (hslash : '/' ∉ stem.toList) (hext : ext ≠ "")
    (h : (staging.join ⟨stem⟩).withExtension? ext = some staged)
    (hw : files.write staged bytes = .ok files') :
    staged.extension?.getD defaultExtension = ext ↔ ReadsBack stem (some ext) := by
  have hext' := Path.noSlash_of_withExtension? h
  cases hbase : (staging.join ⟨stem⟩).name? with
  | none =>
    -- The stem is no name, so the extension is not put anywhere and nothing was written.
    obtain ⟨front, hf, hjoin, -⟩ := Path.join_of_relative (p := staging) (q := ⟨stem⟩) hslash
    rw [Path.withExtension?_of_nameless hbase hext'] at h
    obtain rfl := Option.some.inj h
    rw [hjoin] at hw hbase
    cases hbase.symm.trans (FileTree.endsIn_of_write hf hne hslash hw).name?
  | some n =>
    obtain ⟨front, hn⟩ := Path.endsIn_of_name hbase
    have hstem : (Path.cutName n).1 ≠ "" := Path.stem_ne_empty (by simpa using hn.isName.ne_nil)
    rw [hn.withExtension? hext', if_neg hext, String.append_assoc] at h
    obtain rfl := Option.some.inj h
    have hslash' : '/' ∉ ((Path.cutName n).1 ++ ("." ++ ext)).toList := by
      simpa [hext'] using Path.noSlash_stem hn.isName.noSlash
    obtain ⟨last, hlast, hiff⟩ := Path.extension_append ext
    rw [(FileTree.endsIn_of_write hn.isFront (by simp [hstem]) hslash' hw).extension?,
      ← String.append_assoc, hlast _ hstem, ReadsBack, if_neg hext]
    exact hiff

/-- The extension of the staged name is the one that the template asked for exactly if the name gives it
back. An empty one is only asked of a stem that is a name. -/
theorem staged_extension_iff {g : Generator} {input : Path} (hne : stem ≠ "") (hslash : '/' ∉ stem.toList)
    (hempty : g.extension = some "" → Path.IsName stem.toList)
    (h : outputPath? g input (some (staging.join ⟨stem⟩)) = some staged)
    (hw : files.write staged bytes = .ok files') :
    staged.extension?.getD defaultExtension = g.extension.getD defaultExtension ↔
      ReadsBack stem g.extension := by
  unfold outputPath? at h
  generalize g.extension = asked at h hempty ⊢
  cases asked with
  | none =>
    obtain rfl := Option.some.inj h
    exact readsBack_none hne hslash hw
  | some ext =>
    by_cases hext : ext = ""
    · subst hext
      exact readsBack_empty (hempty rfl) h hw
    · exact readsBack_some hne hslash hext h hw

end Generation

/-! ## A stem with a dot -/

def CompiledModule.writing : CompiledModule :=
  { path := ⟨"/m"⟩, workspace := ⟨"/"⟩
    binary := .program fun _ =>
      { reply := some "@entry initialize\n@entry transform_text\n@output x".toUTF8 } }

def Compiler.writing : Compiler :=
  { compile := fun _ _ => .value (.ok { sourcePath := ⟨"/m.rs"⟩, module? := some .writing }) }

theorem Engine.settings_of_ok {files : FileTree} {host : Host} {text : String} {kind : UnitKind}
    {p : Preparation} (h : (prepare files host text kind).result = .ok p) :
    p.settings = (TemplateSettings.ofTemplate (parsed files host text)).1 := by
  unfold prepare at h
  dsimp only at h
  split at h
  · cases h
  · split at h
    · cases h
    · split at h
      · cases h
      · rw [← Except.ok.inj h]
        rfl

theorem Engine.process_writing {files : FileTree} {recycler : Recycler} {fresh : Except FileError Unit}
    {host : Host} {text : String} (hclear : earlyReport files host text = [])
    (hsandbox : (recycler.acquire fresh).1.isOk)
    (hstarted : (workingDirectory files host.templateFile).bind files.enterError? = none) :
    ∃ p recycler', p.settings = (TemplateSettings.ofTemplate (parsed files host text)).1 ∧
      process .writing files recycler host text fresh =
        ended (.ok "x") [] (requestEffects p ++ [.execute]) recycler' := by
  have hclear' : ¬ (earlyReport files host text).hasErrors := by
    rw [hclear]
    decide
  obtain ⟨p, hp⟩ := prepare_of_clear hclear'
  have hends := process_ends .writing files recycler fresh host text
  generalize process .writing files recycler host text fresh = run at hends ⊢
  cases hends with
  | unprepared he => cases he.symm.trans hp
  | unanswered _ ha => cases ha
  | misplaced ha hall =>
    obtain rfl := Except.ok.inj (Outcome.value.inj ha.answered)
    cases hall
  | uncompiled ha => cases ha.answered
  | moduleless ha _ hstops =>
    obtain rfl := Except.ok.inj (Outcome.value.inj ha.answered)
    rcases hstops with h | h <;> cases h
  | @executed p' results reported m ha htells hm he =>
    obtain rfl := Except.ok.inj (Outcome.value.inj ha.answered)
    obtain rfl := Option.some.inj hm
    cases htells
    obtain ⟨answer, hanswers⟩ : ∃ answer, Execution.Answers files recycler fresh .writing host.session
        (workingDirectory files host.templateFile) answer
        "@entry initialize\n@entry transform_text\n@output x" := by
      refine ⟨_, hsandbox, ⟨_, rfl, rfl⟩, ?_, rfl, Text.decode_toUTF8 _⟩
      unfold Execution.startError?
      rw [hstarted]
      rfl
    have houtcome := Execution.run_of_answers hanswers host.templateFile
    have hreply : Execution.ofReply (.whole host.templateFile)
      (Reply.parse "@entry initialize\n@entry transform_text\n@output x") = ⟨some "x", []⟩ := by cbv
    rw [hreply] at houtcome
    refine ⟨p', (execution files recycler fresh host .writing).2, settings_of_ok ha.prepared, ?_⟩
    rw [hclear, execution, houtcome]
    rfl

namespace Generation

theorem start_of_read {w : Generation} {input : Path} {text : String} (hread : w.files.readTemplate input = .ok text) : w.start input =
    (some text, { w with generator := { w.generator with
      errors := []
      extension := none
      encoding := .utf8
      outputFile := none
      failedStage := none
      templateFile := some (w.files.canonicalOr input).text } }) := by
  unfold start
  rw [hread]

/-- Settings of a template leave the errors and the failed stage as they are. -/
theorem foldl_settingEffects (s : TemplateSettings) (g : Generator) :
    ((Engine.settingEffects s).foldl Generator.observe g).errors = g.errors ∧
      ((Engine.settingEffects s).foldl Generator.observe g).failedStage = g.failedStage := by
  unfold Engine.settingEffects
  cases s.extension? <;> cases s.encoding? <;> exact ⟨rfl, rfl⟩

/-- A template that gives no reason to complain has its module run. -/
theorem absorb_writing (w : Generation) (fresh : Except FileError Unit) (text : String)
    (herrors : w.generator.errors = []) (hstage : w.generator.failedStage = none)
    (hclear : Engine.earlyReport w.files (w.generator.host w.files) text = [])
    (hsandbox : (w.generator.recycler.acquire fresh).1.isOk)
    (hstarted : (Engine.workingDirectory w.files w.generator.templateFile).bind w.files.enterError? = none) :
    ∃ r, w.absorb (w.engineRun .writing fresh text) = (.value (some "x"),
      ⟨(Engine.settingEffects (TemplateSettings.ofTemplate (Engine.parsed w.files
        (w.generator.host w.files) text)).1).foldl Generator.observe { w.generator with recycler := r },
        w.files⟩) := by
  obtain ⟨p, r, hp, hrun⟩ := Engine.process_writing hclear hsandbox hstarted
  refine ⟨r, ?_⟩
  obtain ⟨herrors', hstage'⟩ := foldl_settingEffects p.settings { w.generator with recycler := r }
  unfold engineRun absorb
  dsimp only
  rw [hrun, ← hp]
  unfold Engine.ended Engine.requestEffects
  dsimp only
  rw [List.foldl_append, List.foldl_append, List.foldl_append]
  generalize (Engine.settingEffects p.settings).foldl Generator.observe { w.generator with recycler := r } = g
    at herrors' hstage' ⊢
  have hlogged : List.foldl Generator.observe (List.foldl Generator.observe
      (List.foldl Generator.observe g [.compile (Engine.request p)]) [.execute]) [.log []] = g := by
    simp [Generator.observe, Generator.log]
  have hfree : g.errors = [] := herrors'.trans herrors
  have hdone : g.failedStage = none := hstage'.trans hstage
  rw [hlogged]
  cases g
  subst hfree hdone
  rfl

/-- What effects set does not depend on what else a generator holds. -/
theorem foldl_observe_congr {g g' : Generator} (h : g'.extension = g.extension ∧ g'.encoding = g.encoding)
    (effects : List Effect) :
    (effects.foldl Generator.observe g').extension = (effects.foldl Generator.observe g).extension ∧
      (effects.foldl Generator.observe g').encoding = (effects.foldl Generator.observe g).encoding := by
  induction effects generalizing g g' with
  | nil => exact h
  | cons e effects ih =>
    apply ih
    cases e with
    | setExtension ext => exact ⟨rfl, h.2⟩
    | setEncoding e => exact ⟨h.1, rfl⟩
    | _ => exact h

theorem process_writing (w : Generation) (fresh : Except FileError Unit) (effects : List Effect)
    {input target : Path} {output : Option Path} {files : FileTree} {text : String}
    (hread : w.files.readTemplate input = .ok text)
    (hclear : ∀ g : Generator, g.templateFile = some (w.files.canonicalOr input).text →
      g.includePaths = w.generator.includePaths →
      Engine.earlyReport w.files (g.host w.files) text = [] ∧
        Engine.settingEffects (TemplateSettings.ofTemplate
          (Engine.parsed w.files (g.host w.files) text)).1 = effects)
    (hsandbox : (w.generator.recycler.acquire fresh).1.isOk)
    (hstarted : (Engine.workingDirectory w.files (some (w.files.canonicalOr input).text)).bind
      w.files.enterError? = none)
    (htarget : outputPath? (effects.foldl Generator.observe {}) input output = some target)
    (hwritten : w.files.write target ((effects.foldl Generator.observe {}).encoding.encode "x") = .ok files) :
    ∃ g, w.process .writing input output fresh = (.value true, ⟨g, files⟩) ∧ g.outputFile = some target ∧
      g.extension = (effects.foldl Generator.observe {}).extension := by
  have hstart := start_of_read hread
  rw [process_of_read (by rw [hstart]), hstart]
  dsimp only
  generalize hbegun : ({ w.generator with
      errors := []
      extension := none
      encoding := .utf8
      outputFile := none
      failedStage := none
      templateFile := some (w.files.canonicalOr input).text } : Generator) = begun
  obtain ⟨hearly, hsettings⟩ := hclear begun (by rw [← hbegun]) (by rw [← hbegun])
  obtain ⟨r, habsorbed⟩ := absorb_writing ⟨begun, w.files⟩ fresh text (by rw [← hbegun]) (by rw [← hbegun]) hearly
    (by rw [← hbegun]; exact hsandbox) (by rw [← hbegun]; exact hstarted)
  rw [hsettings] at habsorbed
  rw [habsorbed]
  dsimp only
  have hunset : ({ begun with recycler := r } : Generator).extension = ({} : Generator).extension ∧
      ({ begun with recycler := r } : Generator).encoding = ({} : Generator).encoding := by
    rw [← hbegun]
    exact ⟨rfl, rfl⟩
  generalize ({ begun with recycler := r } : Generator) = g at hunset ⊢
  have hset := foldl_observe_congr hunset effects
  generalize effects.foldl Generator.observe g = g' at hset ⊢
  unfold outputPath? at htarget
  rw [← hset.1] at htarget
  rw [← hset.2] at hwritten
  unfold settle outputPath?
  dsimp only
  rw [htarget]
  dsimp only
  unfold writeOutput
  rw [hwritten]
  exact ⟨_, rfl, rfl, hset.1⟩

theorem plain_clear (files : FileTree) (host : Host) : Engine.earlyReport files host "x" = [] ∧
    Engine.settingEffects (TemplateSettings.ofTemplate (Engine.parsed files host "x")).1 = [] := by
  constructor <;> cbv

/-- A run with the writing module, up to what is left after delivery. -/
theorem run_writing (w : Generation) (fresh : Except FileError Unit) (effects : List Effect)
    (fault : Option WriteFault)
    {staging template staged goal : Path} {made files : FileTree} {o : TemplateOptions} {text : String}
    (hmade : w.files.makeDirectory staging = .ok made)
    (ho : TemplateOptions.loadOrDefault w.files template = o) (hkind : o.outputKind = .text)
    (hread : made.readTemplate template = .ok text)
    (hclear : ∀ g : Generator, g.templateFile = some (made.canonicalOr template).text →
      g.includePaths = w.generator.includePaths →
      Engine.earlyReport made (g.host made) text = [] ∧
        Engine.settingEffects (TemplateSettings.ofTemplate (Engine.parsed made (g.host made) text)).1 = effects)
    (hsandbox : (w.generator.recycler.acquire fresh).1.isOk)
    (hstarted : (Engine.workingDirectory made (some (made.canonicalOr template).text)).bind
      made.enterError? = none)
    (hstaged : outputPath? (effects.foldl Generator.observe {}) template
      (some (staging.join ⟨stagedStem template⟩)) = some staged)
    (hwritten : made.write staged ((effects.foldl Generator.observe {}).encoding.encode "x") = .ok files)
    (hgoal : target o template
      (template.withPlainExtension (staged.extension?.getD defaultExtension)) = goal) :
    ∃ g : Generator, g.extension = (effects.foldl Generator.observe {}).extension ∧
      w.run .writing staging template fresh { target := fault } = (.value (deliver ⟨g, files⟩ staged goal fault).1,
        (deliver ⟨g, files⟩ staged goal fault).2.unstage staging) := by
  obtain ⟨g, hprocess, hfile, hext⟩ := process_writing ⟨w.generator, made⟩ fresh effects hread hclear hsandbox hstarted
    hstaged hwritten
  refine ⟨g, hext, ?_⟩
  unfold run runStaged runText
  rw [hmade, ho]
  dsimp only
  rw [hkind]
  dsimp only
  rw [hprocess]
  dsimp only
  rw [hfile]
  dsimp only
  rw [hgoal]

theorem loadOrDefault_of_no_sidecar {files : FileTree} {template : Path}
    (h : files.isFile (TemplateOptions.sidecar template) = false) :
    TemplateOptions.loadOrDefault files template = {} := by
  simp [TemplateOptions.loadOrDefault, TemplateOptions.load, h]

/-- A template whose stem has a dot. -/
def dotted : Generation :=
  { generator := {}, files := { entries := [(["a.b.tt"], .file "x".toUTF8 0)] } }

def dottedStaging : FileTree :=
  { entries := [(["a.b.tt"], .file "x".toUTF8 0), (["s"], .directory)] }

def dottedStaged (bytes : ByteArray) : FileTree :=
  { entries := [(["a.b.tt"], .file "x".toUTF8 0), (["s"], .directory), (["s", "a.b"], .file bytes 0)]
    clock := 1 }

def dottedAfter (bytes : ByteArray) : FileTree :=
  { entries := [(["a.b.tt"], .file "x".toUTF8 0), (["a.b.b"], .file bytes 1)], clock := 2 }

theorem process_dotted : ∃ w₁, dotted.process .writing ⟨"/a.b.tt"⟩ none = (.value true, w₁) ∧
    w₁.generator.extension = none := by
  obtain ⟨files, hfiles⟩ : ∃ files,
    dotted.files.write ⟨"/a.b.txt"⟩ (Encoding.utf8.encode "x") = .ok files := ⟨_, rfl⟩
  have hread : dotted.files.readTemplate ⟨"/a.b.tt"⟩ = .ok "x" := by cbv
  have htarget : outputPath? {} ⟨"/a.b.tt"⟩ none = some ⟨"/a.b.txt"⟩ := rfl
  obtain ⟨g, hprocess, -, hext⟩ := process_writing dotted (.ok ()) [] hread (fun g _ _ => plain_clear _ _) rfl rfl
    htarget hfiles
  exact ⟨_, hprocess, hext⟩

theorem delivered_dotted (g : Generator) (bytes : ByteArray) :
    (deliver ⟨g, dottedStaged bytes⟩ ⟨"/s/a.b"⟩ ⟨"/a.b.b"⟩).1 = .success ∧
      (deliver ⟨g, dottedStaged bytes⟩ ⟨"/s/a.b"⟩ ⟨"/a.b.b"⟩).2.unstage ⟨"/s"⟩ =
        ⟨{ g with outputFile := some ⟨"/a.b.b"⟩ }, dottedAfter bytes⟩ :=
  ⟨rfl, rfl⟩

theorem run_dotted_staged (fault : Option WriteFault) : ∃ g : Generator, g.extension = none ∧
    dotted.run .writing ⟨"/s"⟩ ⟨"/a.b.tt"⟩ (.ok ()) { target := fault } =
      (.value (deliver ⟨g, dottedStaged (Encoding.utf8.encode "x")⟩ ⟨"/s/a.b"⟩ ⟨"/a.b.b"⟩ fault).1,
        (deliver ⟨g, dottedStaged (Encoding.utf8.encode "x")⟩ ⟨"/s/a.b"⟩ ⟨"/a.b.b"⟩ fault).2.unstage ⟨"/s"⟩) := by
  have hoptions : TemplateOptions.loadOrDefault dotted.files ⟨"/a.b.tt"⟩ = {} :=
    loadOrDefault_of_no_sidecar rfl
  have hread : dottedStaging.readTemplate ⟨"/a.b.tt"⟩ = .ok "x" := by cbv
  have hstaged : outputPath? {} ⟨"/a.b.tt"⟩ (some ((Path.mk "/s").join ⟨stagedStem ⟨"/a.b.tt"⟩⟩)) =
    some ⟨"/s/a.b"⟩ := rfl
  have hwritten : ∀ bytes, dottedStaging.write ⟨"/s/a.b"⟩ bytes = .ok (dottedStaged bytes) := fun _ => rfl
  have hgoal : target {} ⟨"/a.b.tt"⟩ (Path.withPlainExtension ⟨"/a.b.tt"⟩
    ((Path.mk "/s/a.b").extension?.getD defaultExtension)) = ⟨"/a.b.b"⟩ := rfl
  exact run_writing dotted (.ok ()) [] fault rfl hoptions rfl hread (fun g _ _ => plain_clear _ _)
    rfl rfl hstaged (hwritten (Encoding.utf8.encode "x")) hgoal

theorem run_dotted : ∃ g, dotted.run .writing ⟨"/s"⟩ ⟨"/a.b.tt"⟩ =
    (.value .success, ⟨g, dottedAfter (Encoding.utf8.encode "x")⟩) ∧
      g.outputFile = some ⟨"/a.b.b"⟩ ∧ g.extension = none := by
  obtain ⟨g, hext, hrun⟩ := run_dotted_staged none
  obtain ⟨hstatus, hleft⟩ := delivered_dotted g (Encoding.utf8.encode "x")
  rw [hstatus, hleft] at hrun
  exact ⟨_, hrun, rfl, hext⟩

/-! ## Processing and running -/

/-- **Where a run and a processing of a template agree.** For a template whose options ask for text and name
no output path, both have their output at the template's path with another extension. For processing it
is the extension that the template asked for, for a run that of the staged name. So they have the same
target exactly if the template's stem and extension are such that the staged name gives it back. -/
theorem run_target_eq_iff {w w' w₁ w₂ : Generation} {compiler : Compiler} {template : Path}
    {fresh fresh' : Except FileError Unit} {status : RunStatus}
    (hkind : (TemplateOptions.loadOrDefault w'.files template).outputKind = .text)
    (hpath : (TemplateOptions.loadOrDefault w'.files template).outputPath = none)
    (hprocess : w.process compiler template none fresh fault = (.value true, w₁))
    (hrun : w'.run compiler staging template fresh' faults = (.value status, w₂)) (hs : status.succeeded)
    (hsame : w₂.generator.extension = w₁.generator.extension) :
    ∃ target target', w₁.generator.outputFile = some target ∧ w₂.generator.outputFile = some target' ∧
      template.withExtension? (w₁.generator.extension.getD defaultExtension) = some target ∧
      (target' = target ↔
        ∀ name, template.name? = some name → ReadsBack (Path.cutName name).1 w₁.generator.extension) := by
  obtain ⟨target, before, bytes, htarget, hfile, hwritten⟩ := process_succeeded hprocess
  obtain ⟨staged, before', bytes', files', hstaged, hwritten', hfile'⟩ := run_succeeded hkind hpath hrun hs
  have htarget : template.withExtension? (w₁.generator.extension.getD defaultExtension) = some target :=
    htarget
  have hasked := Path.noSlash_of_withExtension? htarget
  have hread : '/' ∉ (staged.extension?.getD defaultExtension).toList := by
    cases he : staged.extension? with
    | none => decide
    | some ext => exact Path.noSlash_extension? he
  refine ⟨target, _, hfile, hfile', htarget, ?_⟩
  rw [Path.withPlainExtension]
  cases hname : template.name? with
  | none =>
    rw [Path.withExtension?_of_nameless hname hasked] at htarget
    rw [Path.withExtension?_of_nameless hname hread]
    exact iff_of_true (Option.some.inj htarget) nofun
  | some name =>
    obtain ⟨front, hends⟩ := Path.endsIn_of_name hname
    have hne : (Path.cutName name).1 ≠ "" := Path.stem_ne_empty (by simpa using hends.isName.ne_nil)
    have hslash := Path.noSlash_stem hends.isName.noSlash
    have hstem : stagedStem template = (Path.cutName name).1 := by
      rw [stagedStem, Path.stem?, hname]
      rfl
    have hempty : w₂.generator.extension = some "" → Path.IsName (Path.cutName name).1.toList := by
      -- Processing wrote to the stem itself then.
      intro he
      rw [← hsame, he, Option.getD_some, hends.withExtension? List.not_mem_nil, if_pos rfl,
        String.append_empty] at htarget
      obtain rfl := Option.some.inj htarget
      exact (FileTree.endsIn_of_write hends.isFront hne hslash hwritten).isName
    rw [hstem] at hstaged
    have hiff := staged_extension_iff hne hslash hempty hstaged hwritten'
    rw [← hends.withExtension?_inj hread (hsame ▸ hasked), hsame, htarget, hends.withExtension? hread,
      Option.some.injEq] at hiff
    rw [hends.withExtension? hread, Option.getD_some, hiff]
    simp

theorem run_target_eq_iff_dotted : ∃ w₁ w₂, dotted.process .writing ⟨"/a.b.tt"⟩ none = (.value true, w₁) ∧
    dotted.run .writing ⟨"/s"⟩ ⟨"/a.b.tt"⟩ = (.value .success, w₂) ∧
    w₂.generator.extension = w₁.generator.extension ∧ w₂.generator.outputFile ≠ w₁.generator.outputFile := by
  obtain ⟨w₁, hprocess, hext⟩ := process_dotted
  obtain ⟨g, hrun, -, hext'⟩ := run_dotted
  have hoptions : TemplateOptions.loadOrDefault dotted.files ⟨"/a.b.tt"⟩ = {} :=
    loadOrDefault_of_no_sidecar (by decide +kernel)
  obtain ⟨target, target', hfile, hfile', -, hiff⟩ := run_target_eq_iff (by rw [hoptions]) (by rw [hoptions])
    hprocess hrun rfl (hext'.trans hext.symm)
  refine ⟨w₁, _, hprocess, hrun, hext'.trans hext.symm, fun e => ?_⟩
  rw [hfile, hfile', Option.some.injEq, hiff, hext] at e
  have hread := e "a.b.tt" (by cbv)
  revert hread
  unfold ReadsBack
  decide +kernel

end Generation

end Templating
