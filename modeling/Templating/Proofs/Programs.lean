import Mathlib
import Templating.Proofs.Executing
import Templating.Proofs.Indentation
import Templating.Proofs.Sessions

/-!
# Programs in processes of their own

A program runs up to its first crash, and what it recorded until then stays. Its process reads the
session as it was written for it, and its reply is read as it was written, so executing a module gives
what its program gives (`execution_eq_run`).
-/

namespace Templating

/-! ## Operations -/

namespace Accumulator

/-- The indent is made up of parts that can be taken back. -/
def Stacked (a : Accumulator) : Prop :=
  ∃ parts, a.HasIndents parts

theorem Stacked.of_eq {a a' : Accumulator} (h : a.Stacked) (hi : a'.indent = a.indent)
    (hs : a'.indentSizes = a.indentSizes) : a'.Stacked := by
  obtain ⟨parts, hparts⟩ := h
  exact ⟨parts, hi.trans hparts.indent, hs.trans hparts.sizes⟩

/-- Only text has changed from one accumulator to the other. -/
structure Writes (a a' : Accumulator) : Prop where
  indent : a'.indent = a.indent
  sizes : a'.indentSizes = a.indentSizes
  messages : a'.messages = a.messages

theorem writes_write (a : Accumulator) (text : String) : Writes a (a.write text) := by
  rw [write_eq]
  exact ⟨rfl, rfl, rfl⟩

theorem writes_foldl (pieces : List String) : ∀ a : Accumulator, Writes a (pieces.foldl write a) := by
  induction pieces with
  | nil => exact fun a => ⟨rfl, rfl, rfl⟩
  | cons piece pieces ih =>
    intro a
    have h := writes_write a piece
    have h' := ih (a.write piece)
    exact ⟨h'.indent.trans h.indent, h'.sizes.trans h.sizes, h'.messages.trans h.messages⟩

theorem parameter_cases (a : Accumulator) (type : ParameterType) (name : String) :
    (a.parameter type name).2 = a ∨ ∃ text, (a.parameter type name).2 = a.error text := by
  unfold parameter
  split
  · exact .inl rfl
  · split
    · exact .inl rfl
    · exact .inr ⟨_, rfl⟩

end Accumulator

namespace Operation
variable {a a' : Accumulator}

/-- What comes of an operation that does not crash. -/
structure Keeps (a a' : Accumulator) : Prop where
  stacked : a'.Stacked
  messages : a.messages <+: a'.messages

theorem keeps_of_writes (h : a.Stacked) (hw : a.Writes a') : Keeps a a' :=
  ⟨h.of_eq hw.indent hw.sizes, by rw [hw.messages]⟩

theorem keeps_parameter (h : a.Stacked) (type : ParameterType) (name : String) :
    Keeps a (a.parameter type name).2 := by
  rcases a.parameter_cases type name with e | ⟨text, e⟩ <;> rw [e]
  · exact ⟨h, List.prefix_rfl⟩
  · exact ⟨h.of_eq rfl rfl, List.prefix_append _ _⟩

/-- Nothing crashes but a crash. -/
theorem run_cases (h : a.Stacked) (op : Operation) :
    (∃ answer a', op.run a = (.ok answer, a') ∧ Keeps a a') ∨ ∃ payload, op = .crash payload := by
  cases op with
  | crash payload => exact .inr ⟨payload, rfl⟩
  | write text => exact .inl ⟨_, _, rfl, keeps_of_writes h (a.writes_write text)⟩
  | writeLine text =>
    have hw := a.writes_write text
    exact .inl ⟨_, _, rfl, keeps_of_writes h ⟨hw.indent, hw.sizes, hw.messages⟩⟩
  | writePieces pieces => exact .inl ⟨_, _, rfl, keeps_of_writes h (a.writes_foldl pieces)⟩
  | writeSession key => exact .inl ⟨_, _, rfl, keeps_of_writes h (a.writes_write _)⟩
  | pushIndent indent =>
    obtain ⟨parts, hparts⟩ := h
    refine .inl ⟨_, _, rfl, ⟨⟨indent :: parts, ?_, ?_⟩, List.prefix_rfl⟩⟩
    · simp [Accumulator.pushIndent, hparts.indent]
    · simp [Accumulator.pushIndent, hparts.sizes]
  | popIndent =>
    obtain ⟨parts, hparts⟩ := h
    refine .inl ⟨_, _, by simp only [run, hparts.popIndent?]; rfl, ?_⟩
    exact ⟨⟨parts.tail, rfl, rfl⟩, List.prefix_rfl⟩
  | clearIndent => exact .inl ⟨_, _, rfl, ⟨[], rfl, rfl⟩, List.prefix_rfl⟩
  | error text => exact .inl ⟨_, _, rfl, h.of_eq rfl rfl, List.prefix_append _ _⟩
  | warning text => exact .inl ⟨_, _, rfl, h.of_eq rfl rfl, List.prefix_append _ _⟩
  | parameter type name => exact .inl ⟨_, _, rfl, keeps_parameter h type name⟩
  | writeParameter type name =>
    have hp := keeps_parameter h type name
    have hw := keeps_of_writes hp.stacked ((a.parameter type name).2.writes_write (a.parameter type name).1)
    exact .inl ⟨_, _, rfl, hw.stacked, hp.messages.trans hw.messages⟩
  | take | session | setSession | sessionValue | setSessionValue | templateFile | setTemplateFile =>
    exact .inl ⟨_, _, rfl, h.of_eq rfl rfl, List.prefix_rfl⟩

/-! ## Runs -/

theorem runAll_append {before : List Operation} (h : runAll a before = (none, a')) (after : List Operation) :
    runAll a (before ++ after) = runAll a' after := by
  induction before generalizing a with
  | nil =>
    obtain rfl := (Prod.mk.inj h).2
    rfl
  | cons op before ih =>
    rw [List.cons_append, runAll]
    rw [runAll] at h
    split at h
    · exact ih h
    · cases (Prod.mk.inj h).1

/-- A run comes to its end, or to its first crash. -/
theorem runAll_cases (h : a.Stacked) (ops : List Operation) :
    (∃ a', runAll a ops = (none, a') ∧ Keeps a a') ∨
      ∃ before payload after a', ops = before ++ .crash payload :: after ∧ runAll a before = (none, a') ∧
        runAll a ops = (some ⟨payload⟩, a') ∧ Keeps a a' := by
  induction ops generalizing a with
  | nil => exact .inl ⟨a, rfl, h, List.prefix_rfl⟩
  | cons op ops ih =>
    rcases run_cases h op with ⟨answer, a₁, hrun, h₁⟩ | ⟨payload, rfl⟩
    · have hcons : ∀ ops', runAll a (op :: ops') = runAll a₁ ops' := by
        intro ops'
        rw [runAll, hrun]
      rcases ih h₁.stacked with ⟨a', hall, h'⟩ | ⟨before, payload, after, a', rfl, hbefore, hall, h'⟩
      · exact .inl ⟨a', (hcons ops).trans hall, h'.stacked, h₁.messages.trans h'.messages⟩
      · exact .inr ⟨op :: before, payload, after, a', rfl, (hcons before).trans hbefore,
          (hcons _).trans hall, h'.stacked, h₁.messages.trans h'.messages⟩
    · exact .inr ⟨[], payload, ops, a, rfl, rfl, rfl, h, List.prefix_rfl⟩

theorem runAll_crash {before : List Operation} (h : runAll a before = (none, a')) (payload : Option String)
    (after : List Operation) : runAll a (before ++ .crash payload :: after) = (some ⟨payload⟩, a') :=
  runAll_append h _

theorem keeps_runAll (h : a.Stacked) {ops : List Operation} (hall : runAll a ops = (none, a')) :
    Keeps a a' := by
  rcases runAll_cases h ops with ⟨a₁, hall', h'⟩ | ⟨_, _, _, a₁, -, -, hall', -⟩
  · obtain rfl := (Prod.mk.inj (hall.symm.trans hall')).2
    exact h'
  · cases (Prod.mk.inj (hall.symm.trans hall')).1

theorem messages_runAll (h : a.Stacked) (ops : List Operation) : a.messages <+: (runAll a ops).2.messages := by
  rcases runAll_cases h ops with ⟨a', hall, h'⟩ | ⟨_, _, _, a', -, -, hall, h'⟩ <;>
    rw [hall] <;> exact h'.messages

end Operation

/-! ## Programs -/

namespace Program
open Operation

variable {p : Program} {session : Dictionary} {entry : String} {payload : Option String} {a : Accumulator}

/-- A run crashes in one of the program's operations, with this accumulator at that point. -/
inductive Crashes (p : Program) (session : Dictionary) : String → Option String → Accumulator → Prop
  | setup {before after : List Operation} {payload : Option String} {a : Accumulator}
      (hsplit : p.setup = before ++ .crash payload :: after) (h : runAll { session } before = (none, a)) :
      Crashes p session Reply.initializeEntry payload a
  | transform {before after : List Operation} {payload : Option String} {a₀ a : Accumulator}
      (hsetup : runAll { session } p.setup = (none, a₀))
      (hsplit : p.transform = before ++ .crash payload :: after) (h : runAll a₀ before = (none, a)) :
      Crashes p session Reply.transformEntry payload a

/-- A run has this accumulator at one of its points. -/
inductive Reaches (p : Program) (session : Dictionary) : Accumulator → Prop
  | setup {before after : List Operation} {a : Accumulator} (hsplit : p.setup = before ++ after)
      (h : runAll { session } before = (none, a)) : Reaches p session a
  | transform {before after : List Operation} {a₀ a : Accumulator}
      (hsetup : runAll { session } p.setup = (none, a₀)) (hsplit : p.transform = before ++ after)
      (h : runAll a₀ before = (none, a)) : Reaches p session a

theorem run_of_crashes (h : p.Crashes session entry payload a) : p.run session =
    { entries := [Reply.initializeEntry, Reply.transformEntry]
      messages := a.messages ++ [⟨false, entry ++ " failed: " ++ Crash.message ⟨payload⟩⟩] } := by
  cases h with
  | @setup before after _ _ hsplit h =>
    have hall := runAll_crash h payload after
    rw [← hsplit] at hall
    simp only [run, hall]
    rfl
  | @transform before after _ _ _ hsetup hsplit h =>
    have hall := runAll_crash h payload after
    rw [← hsplit] at hall
    simp only [run, hsetup, hall]
    rfl

theorem run_of_ended {a₀ : Accumulator} (hsetup : runAll { session } p.setup = (none, a₀))
    (h : runAll a₀ p.transform = (none, a)) : p.run session =
      { entries := [Reply.initializeEntry, Reply.transformEntry]
        messages := a.messages
        output := some a.generated } := by
  simp only [run, hsetup, h]
  rfl

theorem stacked_new (session : Dictionary) : ({ session } : Accumulator).Stacked :=
  ⟨[], rfl, rfl⟩

theorem crashes_or_ends (p : Program) (session : Dictionary) :
    (∃ entry payload a, p.Crashes session entry payload a) ∨
      ∃ a₀ a, runAll { session } p.setup = (none, a₀) ∧ runAll a₀ p.transform = (none, a) := by
  rcases runAll_cases (stacked_new session) p.setup with
    ⟨a₀, hsetup, h₀⟩ | ⟨before, payload, after, a, hsplit, h, -, -⟩
  · rcases runAll_cases h₀.stacked p.transform with
      ⟨a, h, -⟩ | ⟨before, payload, after, a, hsplit, h, -, -⟩
    · exact .inr ⟨a₀, a, hsetup, h⟩
    · exact .inl ⟨_, payload, a, .transform hsetup hsplit h⟩
  · exact .inl ⟨_, payload, a, .setup hsplit h⟩

theorem output_eq_none_iff :
    (p.run session).output = none ↔ ∃ entry payload a, p.Crashes session entry payload a := by
  constructor
  · intro hnone
    rcases crashes_or_ends p session with h | ⟨a₀, a, hsetup, h⟩
    · exact h
    · rw [run_of_ended hsetup h] at hnone
      cases hnone
  · rintro ⟨entry, payload, a, h⟩
    rw [run_of_crashes h]

/-- What is recorded at some point is in the reply. -/
theorem messages_of_reaches (h : p.Reaches session a) : a.messages <+: (p.run session).messages := by
  have htransform : ∀ {a₀}, runAll { session } p.setup = (none, a₀) →
      (runAll a₀ p.transform).2.messages <+: (p.run session).messages := by
    intro a₀ hsetup
    cases hall : runAll a₀ p.transform with
    | mk crash a =>
      cases crash with
      | none => rw [run_of_ended hsetup hall]
      | some c =>
        simp only [run, hsetup, hall]
        exact List.prefix_append _ _
  have hsetup : (runAll { session } p.setup).2.messages <+: (p.run session).messages := by
    cases hall : runAll { session } p.setup with
    | mk crash a₀ =>
      cases crash with
      | none =>
        have hstacked := (keeps_runAll (stacked_new session) hall).stacked
        exact (messages_runAll hstacked p.transform).trans (htransform hall)
      | some c =>
        simp only [run, hall]
        exact List.prefix_append _ _
  cases h with
  | @setup before after _ hsplit h =>
    have hstacked := (keeps_runAll (stacked_new session) h).stacked
    rw [hsplit, runAll_append h] at hsetup
    exact (messages_runAll hstacked after).trans hsetup
  | @transform before after a₀ _ hstart hsplit h =>
    have hstacked₀ := (keeps_runAll (stacked_new session) hstart).stacked
    have hstacked := (keeps_runAll hstacked₀ h).stacked
    have hend := htransform hstart
    rw [hsplit, runAll_append h] at hend
    exact (messages_runAll hstacked after).trans hend

/-! ## The process of a program -/

theorem readSession_render (session : Dictionary) : readSession (Session.render session).toUTF8 = session := by
  rw [readSession, Text.decode_toUTF8]
  show Session.parse (Session.render session) = session
  rw [Session.parse, Session.filterMap_lines_render, Dictionary.ofList_entries]

end Program

namespace Execution
open Program

section
variable {files : FileTree} {recycler : Recycler} {fresh : Except FileError Unit} {m : CompiledModule}
  {session : Dictionary} {directory : Option Path} {p : Program} {written : Nat}

theorem answers_process (hm : m.binary = .program (p.process written))
    (hsandbox : (recycler.acquire fresh).1.isOk) (hstarted : startError? files directory m.binary = none)
    (hwritten : (p.replyText (Session.render session).toUTF8).toUTF8.size ≤ written) :
    Answers files recycler fresh m session directory (p.process written (Session.render session))
      (p.run session).render := by
  refine ⟨hsandbox, ⟨_, hm, rfl⟩, hstarted, rfl, ?_⟩
  rw [p.process_reply _ hwritten, Option.bind_some, Text.decode_toUTF8, replyText, readSession_render]

theorem run_process (hm : m.binary = .program (p.process written))
    (hsandbox : (recycler.acquire fresh).1.isOk) (hstarted : startError? files directory m.binary = none)
    (hwritten : (p.replyText (Session.render session).toUTF8).toUTF8.size ≤ written)
    (templateFile : Option String) : (run files recycler fresh m session directory templateFile).1 =
      ⟨(p.run session).output, (p.run session).messages.map (ofMessage (.whole templateFile))⟩ := by
  rw [run_of_answers (answers_process hm hsandbox hstarted hwritten),
    Reply.parse_render (p.isLine_of_mem_lines session)]
  exact ofReply_of_entries rfl rfl

end

/-- **A program gives the same in a process of its own.** Where its module can be started and its reply
is written as a whole, execution has the output of its run and a diagnostic for each message. There is
no output exactly if the run crashed, and then the crash is the last message, after all that was
recorded before it. -/
theorem execution_eq_run (files : FileTree) (recycler : Recycler) (fresh : Except FileError Unit)
    (m : CompiledModule) (session : Dictionary) (directory : Option Path) (templateFile : Option String)
    (p : Program) (written : Nat) (hm : m.binary = .program (p.process written))
    (hsandbox : (recycler.acquire fresh).1.isOk) (hstarted : startError? files directory m.binary = none)
    (hwritten : (p.replyText (Session.render session).toUTF8).toUTF8.size ≤ written) :
    let outcome := (run files recycler fresh m session directory templateFile).1
    let reply := p.run session
    outcome.output = reply.output ∧
      outcome.diagnostics = reply.messages.map (fun message =>
        if message.isWarning then .warning "TT4004" message.text (.whole templateFile)
        else .error "TT4003" message.text (.whole templateFile)) ∧
      (outcome.output = none ↔ ∃ entry payload a, p.Crashes session entry payload a) ∧
      (∀ entry payload a, p.Crashes session entry payload a →
        reply.messages = a.messages ++ [⟨false, entry ++ " failed: " ++ Crash.message ⟨payload⟩⟩]) ∧
      ∀ a, p.Reaches session a → a.messages <+: reply.messages := by
  intro outcome reply
  have houtcome : outcome = ⟨reply.output, reply.messages.map (ofMessage (.whole templateFile))⟩ :=
    run_process hm hsandbox hstarted hwritten templateFile
  refine ⟨by rw [houtcome], by rw [houtcome]; rfl, ?_, fun entry payload a h => ?_, fun a h =>
    messages_of_reaches h⟩
  · rw [houtcome]
    exact output_eq_none_iff
  · show (p.run session).messages = _
    rw [run_of_crashes h]

end Execution

/-- Writes what its session holds, complains and crashes. -/
def Program.faltering : Program :=
  { setup := [.warning "slow"], transform := [.writeSession "a=b", .error "c\nd", .crash (some "boom")] }

theorem Execution.execution_eq_run_faltering :
    let session := Dictionary.ofList [("a=b", "x\\")]
    let m : CompiledModule :=
      { path := ⟨"/m"⟩, workspace := ⟨"/"⟩, binary := .program (Program.faltering.process 200) }
    startError? {} none m.binary = none ∧ ((Recycler.new 20).acquire (.ok ())).1.isOk ∧
      (Program.faltering.replyText (Session.render session).toUTF8).toUTF8.size ≤ 200 ∧
      (run {} (.new 20) (.ok ()) m session none (some "/t.tt")).1.output = none ∧
      (run {} (.new 20) (.ok ()) m session none (some "/t.tt")).1.diagnostics =
        [.warning "TT4004" "slow" (.whole (some "/t.tt")), .error "TT4003" "c\nd" (.whole (some "/t.tt")),
          .error "TT4003" "transform_text failed: boom" (.whole (some "/t.tt"))] := by
  intro session m
  have htext : Program.faltering.replyText (Session.render session).toUTF8 =
      "@entry initialize\n@entry transform_text\n@warning slow\n@error c\\nd\n" ++
        "@error transform_text failed: boom\n" := by cbv
  have hreply : (Program.faltering.replyText (Session.render session).toUTF8).toUTF8.size ≤ 200 := by
    rw [htext]
    decide +kernel
  obtain ⟨houtput, hdiagnostics, -⟩ := execution_eq_run {} (.new 20) (.ok ()) m session none (some "/t.tt")
    .faltering 200 rfl rfl rfl hreply
  refine ⟨rfl, rfl, hreply, ?_, ?_⟩
  · rw [houtput]
    cbv
  · rw [hdiagnostics]
    cbv

end Templating
