import Mathlib
import Templating.Execution
import Templating.Proofs.Replies

/-!
# Executing modules

An execution is free of errors exactly if the module's process could be started and left a reply of a
program that recorded no error (`run_hasErrors_iff`). The output is then that of the reply, however the
process ended, so a reply that was cut in its output counts (`run_succeeded_iff`).
-/

namespace Templating

theorem Diagnostics.hasErrors_append (a b : Diagnostics) :
    Diagnostics.hasErrors (a ++ b) = (Diagnostics.hasErrors a || Diagnostics.hasErrors b) :=
  List.any_append

theorem Diagnostics.hasErrors_iff {ds : Diagnostics} :
    Diagnostics.hasErrors ds ↔ ∃ d ∈ ds, d.severity = .error := by
  simp [hasErrors, Diagnostic.isError]

/-- The process of a program of whose reply so many bytes can be written. If some are missing, it exits
with 1. -/
def Program.process (p : Program) (written : Nat) (session : String) : ModuleRun :=
  let reply := (p.replyText session.toUTF8).toUTF8
  { reply := some (reply.extract 0 written)
    status := .exited (if reply.size ≤ written then 0 else 1) }

namespace Execution

/-! ## What a reply amounts to -/

theorem ofMessage_severity (l : Location) (m : Message) :
    (ofMessage l m).severity = if m.isWarning then .warning else .error := by
  unfold ofMessage
  split <;> rfl

theorem missingEntries_eq_nil {l : Location} {r : Reply} :
    missingEntries l r = [] ↔ r.hasEntry Reply.initializeEntry ∧ r.hasEntry Reply.transformEntry := by
  simp [missingEntries, List.filter_eq_nil_iff]

theorem hasErrors_missingEntries {l : Location} {r : Reply} (h : missingEntries l r ≠ []) :
    Diagnostics.hasErrors (missingEntries l r) := by
  obtain ⟨d, hd⟩ := List.exists_mem_of_ne_nil _ h
  obtain ⟨e, -, rfl⟩ := List.mem_map.1 hd
  exact Diagnostics.hasErrors_iff.2 ⟨_, hd, rfl⟩

theorem hasErrors_messages {l : Location} {ms : List Message} :
    Diagnostics.hasErrors (ms.map (ofMessage l)) ↔ ∃ m ∈ ms, ¬ m.isWarning := by
  simp only [Diagnostics.hasErrors_iff, List.mem_map, exists_exists_and_eq_and, ofMessage_severity]
  refine exists_congr fun m => and_congr_right fun _ => ?_
  cases m.isWarning <;> simp

theorem ofReply_of_entries {l : Location} {r : Reply} (hs : r.hasEntry Reply.initializeEntry)
    (ht : r.hasEntry Reply.transformEntry) : ofReply l r = ⟨r.output, r.messages.map (ofMessage l)⟩ := by
  have hm : missingEntries l r = [] := missingEntries_eq_nil.2 ⟨hs, ht⟩
  rw [ofReply, hm]
  rfl

theorem ofReply_of_clean {l : Location} {r : Reply} (h : r.Clean) :
    ofReply l r = ⟨r.output, r.messages.map (ofMessage l)⟩ :=
  ofReply_of_entries h.setup h.transform

theorem ofReply_hasErrors_iff {l : Location} {r : Reply} :
    (ofReply l r).diagnostics.hasErrors ↔ ¬ r.Clean := by
  by_cases hm : missingEntries l r = []
  · obtain ⟨hs, ht⟩ := missingEntries_eq_nil.1 hm
    have he : (ofReply l r).diagnostics = r.messages.map (ofMessage l) := by
      rw [ofReply_of_entries hs ht]
    rw [he, hasErrors_messages]
    constructor
    · rintro ⟨m, hmem, hw⟩ hclean
      exact hw (hclean.onlyWarnings m hmem)
    · intro hclean
      by_contra hall
      refine hclean ⟨hs, ht, fun m hmem => ?_⟩
      by_contra hw
      exact hall ⟨m, hmem, hw⟩
  · have he : (ofReply l r).diagnostics = missingEntries l r := by
      rw [ofReply, if_neg (by simpa using hm)]
    rw [he]
    exact iff_of_true (hasErrors_missingEntries hm) fun h =>
      hm (missingEntries_eq_nil.2 ⟨h.setup, h.transform⟩)

/-! ## What a process leaves -/

/-- A module's process runs in a sandbox and leaves a text in place of its reply. -/
structure Answers (files : FileTree) (recycler : Recycler) (fresh : Except FileError Unit)
    (m : CompiledModule) (session : Dictionary) (directory : Option Path) (process : ModuleRun)
    (text : String) : Prop where
  sandbox : (recycler.acquire fresh).1.isOk
  program : ∃ p, m.binary = .program p ∧ p (Session.render session) = process
  started : startError? files directory m.binary = none
  ended : process.fault = none
  reply : process.reply.bind Text.decode? = some text

section
variable {files : FileTree} {recycler : Recycler} {fresh : Except FileError Unit} {m : CompiledModule}
  {session : Dictionary} {directory : Option Path} {process process' : ModuleRun} {text text' : String}

theorem Answers.eq_text (h : Answers files recycler fresh m session directory process text)
    (h' : Answers files recycler fresh m session directory process' text') : text = text' := by
  obtain ⟨p, hp, rfl⟩ := h.program
  obtain ⟨p', hp', rfl⟩ := h'.program
  obtain rfl := Binary.program.inj (hp.symm.trans hp')
  exact Option.some.inj (h.reply.symm.trans h'.reply)

theorem run_of_answers (h : Answers files recycler fresh m session directory process text)
    (templateFile : Option String) :
    (run files recycler fresh m session directory templateFile).1 =
      ofReply (.whole templateFile) (Reply.parse text) := by
  obtain ⟨hsandbox, ⟨p, hp, rfl⟩, hstarted, hended, hreply⟩ := h
  have hexecute : execute files m session directory (.whole templateFile) =
      ofReply (.whole templateFile) (Reply.parse text) := by
    rw [hp] at hstarted
    simp only [execute, hp, hstarted, ofRun, hended, hreply]
  unfold run
  split
  · rename_i e r hacquire
    rw [hacquire] at hsandbox
    cases hsandbox
  · exact hexecute

/-- Whatever keeps a process from leaving a reply becomes an error. -/
theorem hasErrors_or_answers (templateFile : Option String) :
    (run files recycler fresh m session directory templateFile).1.diagnostics.hasErrors ∨
      ∃ process text, Answers files recycler fresh m session directory process text := by
  unfold run
  split
  · exact .inl rfl
  · rename_i handle r hacquire
    have hsandbox : (recycler.acquire fresh).1.isOk := by rw [hacquire]; rfl
    show (execute files m session directory (.whole templateFile)).diagnostics.hasErrors ∨ _
    unfold execute
    cases hb : m.binary with
    | missing => exact .inl rfl
    | notExecutable =>
      left
      dsimp only
      split <;> rfl
    | program p =>
      dsimp only
      split
      · exact .inl rfl
      · rename_i hstarted
        unfold ofRun
        split
        · exact .inl rfl
        · rename_i hended
          split
          · rename_i text hreply
            exact .inr ⟨_, text, hsandbox, ⟨p, hb, rfl⟩, hb ▸ hstarted, hended, hreply⟩
          · exact .inl rfl

theorem run_hasErrors_iff (templateFile : Option String) :
    (run files recycler fresh m session directory templateFile).1.diagnostics.hasErrors ↔
      ¬ ∃ process text, Answers files recycler fresh m session directory process text ∧
        (Reply.parse text).Clean := by
  constructor
  · rintro he ⟨process, text, ha, hclean⟩
    rw [run_of_answers ha] at he
    exact ofReply_hasErrors_iff.1 he hclean
  · intro hall
    rcases hasErrors_or_answers templateFile with he | ⟨process, text, ha⟩
    · exact he
    · rw [run_of_answers ha]
      exact ofReply_hasErrors_iff.2 fun hclean => hall ⟨process, text, ha, hclean⟩

theorem run_output (h : Answers files recycler fresh m session directory process text)
    (hclean : (Reply.parse text).Clean) (templateFile : Option String) :
    (run files recycler fresh m session directory templateFile).1.output = (Reply.parse text).output := by
  rw [run_of_answers h, ofReply_of_clean hclean]

theorem succeeds_iff (templateFile : Option String) (output : String) :
    ((run files recycler fresh m session directory templateFile).1.succeeded ∧
        (run files recycler fresh m session directory templateFile).1.output = some output) ↔
      ∃ process text, Answers files recycler fresh m session directory process text ∧
        (Reply.parse text).Clean ∧ (Reply.parse text).output = some output := by
  unfold ExecutionOutcome.succeeded
  rw [Bool.and_eq_true, Bool.not_eq_true', ← Bool.not_eq_true, run_hasErrors_iff, not_not]
  constructor
  · rintro ⟨⟨-, process, text, ha, hclean⟩, hout⟩
    exact ⟨process, text, ha, hclean, (run_output ha hclean templateFile).symm.trans hout⟩
  · rintro ⟨process, text, ha, hclean, hout⟩
    have hrun := (run_output ha hclean templateFile).trans hout
    exact ⟨⟨by rw [hrun]; rfl, process, text, ha, hclean⟩, hrun⟩

end

end Execution

/-! ## Programs that are cut off -/

theorem Program.isLine_of_mem_lines (p : Program) (session : Dictionary) :
    ∀ l ∈ (p.run session).lines, Text.IsLine l := by
  refine Reply.isLine_of_mem_lines fun e he => ?_
  have hentries : (p.run session).entries = [Reply.initializeEntry, Reply.transformEntry] := rfl
  rw [hentries, List.mem_cons, List.mem_singleton] at he
  rcases he with rfl | rfl <;> exact ⟨by decide, by decide⟩

section
variable {p : Program} {written : Nat} {session text : String}

theorem Program.prefix_of_process (h : (p.process written session).reply.bind Text.decode? = some text) :
    text.toList <+: (p.replyText session.toUTF8).toList := by
  let bytes := (p.replyText session.toUTF8).toUTF8
  have hlost : bytes.extract 0 written ++ bytes.extract written bytes.size = bytes := by
    ext1
    simp
  exact Text.prefix_of_decode h hlost

theorem Program.process_reply (p : Program) {written : Nat} (session : String)
    (h : (p.replyText session.toUTF8).toUTF8.size ≤ written) :
    (p.process written session).reply = some (p.replyText session.toUTF8).toUTF8 := by
  have hwhole : (p.replyText session.toUTF8).toUTF8.extract 0 written = (p.replyText session.toUTF8).toUTF8 := by
    ext1
    rw [ByteArray.data_extract]
    exact Array.extract_eq_self_of_le h
  rw [process, hwhole]

theorem Program.succeeded_process_iff (h : (p.process written session).reply.bind Text.decode? = some text) :
    (p.process written session).status.succeeded ↔ text = p.replyText session.toUTF8 := by
  have hbytes : text.toUTF8 = (p.replyText session.toUTF8).toUTF8.extract 0 written := Text.toUTF8_of_decode h
  have hstatus : (p.process written session).status.succeeded ↔
      (p.replyText session.toUTF8).toUTF8.size ≤ written := by
    by_cases hsize : (p.replyText session.toUTF8).toUTF8.size ≤ written
    · exact iff_of_true (by simp only [process, if_pos hsize]; rfl) hsize
    · exact iff_of_false (by simp only [process, if_neg hsize]; decide) hsize
  rw [hstatus]
  constructor
  · intro hsize
    exact String.toByteArray_inj.1 (hbytes.trans (Option.some.inj (p.process_reply session hsize)))
  · intro he
    have hsize := congrArg ByteArray.size hbytes
    rw [he, ByteArray.size_extract] at hsize
    omega

end

/-- Writes more than its process gets written. -/
def Program.cutOff : Program := { transform := [.write "cut off"] }

def CompiledModule.cutOff : CompiledModule :=
  { path := ⟨"/m"⟩, workspace := ⟨"/"⟩, binary := .program (Program.cutOff.process 51) }

theorem Program.reply_cutOff {written : Nat} {text : String}
    (h : "@entry initialize\n@entry transform_text\n@output cut off\n".toUTF8.extract 0 written =
      text.toUTF8) :
    (cutOff.process written (Session.render {})).reply.bind Text.decode? = some text := by
  have htext : cutOff.replyText (Session.render {}).toUTF8 =
      "@entry initialize\n@entry transform_text\n@output cut off\n" := by cbv
  show Text.decode? ((cutOff.replyText (Session.render {}).toUTF8).toUTF8.extract 0 written) = _
  rw [htext, h, Text.decode_toUTF8]

theorem Execution.answers_cutOff : Answers {} (.new 20) (.ok ()) .cutOff {} none
    (Program.cutOff.process 51 (Session.render {}))
    "@entry initialize\n@entry transform_text\n@output cut" :=
  ⟨rfl, ⟨_, rfl, rfl⟩, rfl, rfl, Program.reply_cutOff (by decide +kernel)⟩

/-- **What passes for a success.** An execution succeeds exactly if the module's process left a reply in
which no error is recorded and an output is, however it ended. For the process of a program, this is
its reply if it was written as a whole, and else each part of it that reaches into the output. -/
theorem Execution.run_succeeded_iff (files : FileTree) (recycler : Recycler) (fresh : Except FileError Unit)
    (m : CompiledModule) (session : Dictionary) (directory : Option Path) (templateFile : Option String) :
    (∀ output, ((run files recycler fresh m session directory templateFile).1.succeeded ∧
        (run files recycler fresh m session directory templateFile).1.output = some output) ↔
      ∃ process text, Answers files recycler fresh m session directory process text ∧
        (Reply.parse text).Clean ∧ (Reply.parse text).output = some output) ∧
    ∀ (p : Program) (written : Nat), m.binary = .program (p.process written) → ∀ process text,
      Answers files recycler fresh m session directory process text →
        let r := p.run (Program.readSession (Session.render session).toUTF8)
        (process.status.succeeded ↔ text = r.render) ∧
          ∀ output, ((run files recycler fresh m session directory templateFile).1.succeeded ∧
              (run files recycler fresh m session directory templateFile).1.output = some output) ↔
            r.Clean ∧ ((∃ o q, r.output = some o ∧ q <+: Text.escapeChars o.toList ∧
                text.toList = r.cut q ∧ output = String.ofList (Text.unescapeChars q)) ∨
              text = r.render ∧ r.output = some output) := by
  refine ⟨succeeds_iff templateFile, fun p written hm process text ha => ?_⟩
  obtain ⟨p', hp, rfl⟩ := ha.program
  obtain rfl := Binary.program.inj (hm.symm.trans hp)
  have hreply := ha.reply
  refine ⟨Program.succeeded_process_iff hreply, fun output => ?_⟩
  rw [succeeds_iff, ← Reply.parse_of_prefix_iff (p.isLine_of_mem_lines _) (Program.prefix_of_process hreply)]
  constructor
  · rintro ⟨process, text', ha', hclean, hout⟩
    obtain rfl := ha'.eq_text ha
    exact ⟨hclean, hout⟩
  · rintro ⟨hclean, hout⟩
    exact ⟨_, text, ha, hclean, hout⟩

/-- The process exits with 1, and what it got written of its output is taken for the output. -/
theorem Execution.run_succeeded_iff_cutOff :
    (Program.cutOff.process 51 (Session.render {})).status = .exited 1 ∧
      (run {} (.new 20) (.ok ()) .cutOff {} none none).1.succeeded ∧
      (run {} (.new 20) (.ok ()) .cutOff {} none none).1.output = some "cut" := by
  obtain ⟨-, hcut⟩ := run_succeeded_iff {} (.new 20) (.ok ()) .cutOff {} none none
  obtain ⟨-, houtput⟩ := hcut .cutOff 51 rfl _ _ answers_cutOff
  refine ⟨by cbv, (houtput "cut").2 ⟨⟨rfl, rfl, nofun⟩, .inl ⟨"cut off", "cut".toList, ?_, ?_, ?_, ?_⟩⟩⟩
  · cbv
  · decide
  · cbv
  · rfl

end Templating
