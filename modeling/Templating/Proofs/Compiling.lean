import Mathlib
import Templating.ProcessCompiler
import Templating.Proofs.Decoding
import Templating.Proofs.Lines

/-!
# What is heard of a compiler

A compiler reports in lines, on two streams. The lines of a stream are messages one by one, whatever
bytes stand in the others (`reported_append`); but a stream is heard as a whole or not at all, so one
byte that is no text takes all messages of its stream with it. A compilation gives all that was
reported just when neither stream is lost so (`compile_result`). A failure is an error in any case, and a
module comes of a success alone.
-/

namespace Templating.ProcessCompiler

/-! ## What a stream reports -/

/-- The messages in the lines of a stream, with replacement characters for what is no text. -/
def reported (bytes : ByteArray) : List CompilerMessage :=
  (Text.lines (Text.decodeLossy bytes)).filterMap CompilerMessage.ofLine?

theorem dropEndWhile_chomp (l : List Char) :
    Text.dropEndWhile Text.isBlank (Text.chomp l) = Text.dropEndWhile Text.isBlank l := by
  unfold Text.chomp
  split
  · rename_i r hr
    have hblank : Text.isBlank '\r' = true := by decide
    simp [Text.dropEndWhile, hr, hblank]
  · rfl

theorem ofLine?_chomp (l : List Char) : CompilerMessage.ofLine? (String.ofList (Text.chomp l)) =
    CompilerMessage.ofLine? (String.ofList l) := by
  simp only [CompilerMessage.ofLine?, Text.trimEnd, String.toList_ofList, dropEndWhile_chomp]

/-- What the lines of a text report does not depend on how they end. -/
theorem filterMap_lines (s : String) : (Text.lines s).filterMap CompilerMessage.ofLine? =
    (Text.pieces '\n' s.toList).filterMap fun l => CompilerMessage.ofLine? (String.ofList l) := by
  obtain ⟨ls, q, hpieces⟩ : ∃ ls q, Text.pieces '\n' s.toList = ls ++ [q] := by
    obtain ⟨ls, q, h⟩ :=
      (List.eq_nil_or_concat (Text.pieces '\n' s.toList)).resolve_left (Text.pieces_ne_nil _ _)
    exact ⟨ls, q, by rw [h, List.concat_eq_append]⟩
  have hnone : CompilerMessage.ofLine? "" = none := by decide
  have hlast : ((if q = [] then [] else [q]).map String.ofList).filterMap CompilerMessage.ofLine? =
      [q].filterMap fun l => CompilerMessage.ofLine? (String.ofList l) := by
    by_cases hq : q = [] <;> simp [hq, hnone, List.filterMap_cons]
  rw [Text.lines, hpieces, Text.chomped_concat, List.map_append, List.filterMap_append, hlast,
    List.filterMap_append, List.map_map, List.filterMap_map]
  simp only [Function.comp_def, ofLine?_chomp]

theorem reported_append (a b : ByteArray) :
    reported (a ++ "\n".toUTF8 ++ b) = reported a ++ reported b := by
  have hlines : (Text.decodeLossy a ++ "\n" ++ Text.decodeLossy b).toList =
      (Text.decodeLossy a).toList ++ '\n' :: (Text.decodeLossy b).toList := by simp
  simp only [reported, Text.decodeLossy_append, filterMap_lines, hlines, Text.pieces_append,
    List.filterMap_append]

/-! ## What is heard of it -/

/-- The messages that a compilation takes from a stream. -/
def heard (bytes : ByteArray) : List CompilerMessage :=
  (printedLines bytes).filterMap CompilerMessage.ofLine?

/-- A stream of which nothing is lost. -/
def Kept (bytes : ByteArray) : Prop :=
  bytes.IsValidUTF8 ∨ reported bytes = []

theorem heard_of_valid {bytes : ByteArray} (h : bytes.IsValidUTF8) : heard bytes = reported bytes := by
  have hdecode : Text.decode? bytes = some (String.fromUTF8 bytes h) := dif_pos h
  simp [heard, printedLines, reported, hdecode, Text.decodeLossy_of_decode hdecode]

theorem heard_of_not_valid {bytes : ByteArray} (h : ¬ bytes.IsValidUTF8) : heard bytes = [] := by
  have hdecode : Text.decode? bytes = none := dif_neg h
  simp only [heard, printedLines, hdecode]
  decide

theorem heard_eq_iff (bytes : ByteArray) : heard bytes = reported bytes ↔ Kept bytes := by
  by_cases h : bytes.IsValidUTF8
  · simp [Kept, h, heard_of_valid h]
  · rw [heard_of_not_valid h, Kept, or_iff_right h]
    exact eq_comm

theorem length_heard_le (bytes : ByteArray) : (heard bytes).length ≤ (reported bytes).length := by
  by_cases h : bytes.IsValidUTF8
  · rw [heard_of_valid h]
  · simp [heard_of_not_valid h]

/-- What one stream lost the other cannot make good. -/
theorem heard_append_iff (a b : ByteArray) :
    heard a ++ heard b = reported a ++ reported b ↔ Kept a ∧ Kept b := by
  rw [← heard_eq_iff, ← heard_eq_iff]
  constructor
  · intro h
    have hlength := congrArg List.length h
    simp only [List.length_append] at hlength
    have ha := length_heard_le a
    have hb := length_heard_le b
    exact List.append_inj h (by omega)
  · rintro ⟨ha, hb⟩
    rw [ha, hb]

/-! ## What comes of a run -/

section Run

variable {o : CompilerOptions} {tools : Toolchain} {files : FileTree} {source : String}
  {ps : CompilerParameters} {run : ToolRun} {workspace : Path}

/-- Whether the wait is over before the compiler is. -/
def cutsShort (o : CompilerOptions) (run : ToolRun) : Bool :=
  o.timeout.any fun seconds => seconds * 1000 ≤ run.delay

/-- What the streams hold when the wait is over. -/
def left (o : CompilerOptions) (run : ToolRun) : Printed :=
  if cutsShort o run then run.soFar (o.timeout.getD 0 * 1000) else ⟨run.stderr, run.stdout⟩

def answer (o : CompilerOptions) (workspace : Path) (files : FileTree) (ps : CompilerParameters)
    (run : ToolRun) : CompilerResult :=
  if cutsShort o run then timedOut (sourcePath workspace) (o.timeout.getD 0) run
  else finished workspace files ps run

theorem messages_readOutput (sourcePath : Path) (printed : Printed) :
    (readOutput sourcePath printed).messages = heard printed.stderr ++ heard printed.stdout :=
  List.filterMap_append

/-- What a compilation may add to what it heard: an error of its own, without a place. -/
def IsVerdict (added : List CompilerMessage) : Prop :=
  added = [] ∨ ∃ m, added = [m] ∧ m.isWarning = false ∧ m.file = none

theorem isVerdict_error (code text : String) : IsVerdict [.error code text] :=
  .inr ⟨_, rfl, rfl, rfl⟩

def HoldsError (ms : List CompilerMessage) : Prop :=
  ∃ m ∈ ms, m.isWarning = false

theorem hasErrors_iff (r : CompilerResult) : r.hasErrors ↔ HoldsError r.messages := by
  simp [CompilerResult.hasErrors, HoldsError]

theorem IsVerdict.holdsError {added : List CompilerMessage} (h : IsVerdict added) (hne : added ≠ []) :
    HoldsError added := by
  obtain ⟨m, rfl, hm, -⟩ := h.resolve_left hne
  exact ⟨m, List.mem_singleton_self m, hm⟩

theorem messages_timedOut (sourcePath : Path) (seconds : Nat) (run : ToolRun) :
    ∃ added, IsVerdict added ∧ added ≠ [] ∧ (timedOut sourcePath seconds run).messages =
      heard (run.soFar (seconds * 1000)).stderr ++ heard (run.soFar (seconds * 1000)).stdout ++
        added := by
  have hread := messages_readOutput sourcePath (run.soFar (seconds * 1000))
  simp only [timedOut, hread]
  exact ⟨_, isVerdict_error _ _, List.cons_ne_nil _ _, rfl⟩

theorem messages_finished (workspace : Path) (files : FileTree) (ps : CompilerParameters)
    (run : ToolRun) : ∃ added, IsVerdict added ∧
      (added = [] ↔ run.status.succeeded ∨ HoldsError (heard run.stderr ++ heard run.stdout)) ∧
      (finished workspace files ps run).messages = heard run.stderr ++ heard run.stdout ++ added := by
  obtain ⟨read, hread⟩ : ∃ read, read = readOutput (sourcePath workspace) ⟨run.stderr, run.stdout⟩ :=
    ⟨_, rfl⟩
  have hmessages : read.messages = heard run.stderr ++ heard run.stdout := by
    rw [hread, messages_readOutput]
  have herrors := hasErrors_iff read
  rw [hmessages] at herrors
  simp only [finished, ← hread, hmessages]
  by_cases hfailed : !run.status.succeeded ∧ !read.hasErrors
  · refine ⟨[_], isVerdict_error _ _, ?_, by rw [if_pos hfailed]⟩
    simp_all
  · refine ⟨[], .inl rfl, ?_, by rw [if_neg hfailed, List.append_nil]⟩
    rw [← herrors]
    simpa [or_iff_not_imp_left] using hfailed

theorem messages_answer (o : CompilerOptions) (workspace : Path) (files : FileTree)
    (ps : CompilerParameters) (run : ToolRun) : ∃ added, IsVerdict added ∧
      (added = [] ↔ cutsShort o run = false ∧
        (run.status.succeeded ∨ HoldsError (heard (left o run).stderr ++ heard (left o run).stdout))) ∧
      (answer o workspace files ps run).messages =
        heard (left o run).stderr ++ heard (left o run).stdout ++ added := by
  by_cases hcut : cutsShort o run
  · obtain ⟨added, hverdict, hne, h⟩ :=
      messages_timedOut (sourcePath workspace) (o.timeout.getD 0) run
    exact ⟨added, hverdict, by simp [hne, hcut], by simpa [answer, left, hcut] using h⟩
  · obtain ⟨added, hverdict, hnil, h⟩ := messages_finished workspace files ps run
    exact ⟨added, hverdict, by simpa [left, hcut] using hnil, by simpa [answer, left, hcut] using h⟩

/-- A failure is an error, whatever was printed. -/
theorem hasErrors_answer (h : cutsShort o run ∨ run.status.succeeded = false) :
    (answer o workspace files ps run).hasErrors := by
  obtain ⟨added, hverdict, hnil, hmessages⟩ := messages_answer o workspace files ps run
  rw [hasErrors_iff, hmessages]
  by_cases hadded : added = []
  · obtain ⟨hcut, hstatus⟩ := hnil.1 hadded
    have hfailed : run.status.succeeded = false := h.resolve_left (by simp [hcut])
    obtain ⟨m, hm, herror⟩ := hstatus.resolve_left (by simp [hfailed])
    exact ⟨m, List.mem_append_left _ hm, herror⟩
  · obtain ⟨m, hm, herror⟩ := hverdict.holdsError hadded
    exact ⟨m, List.mem_append_right _ hm, herror⟩

theorem module_answer : (answer o workspace files ps run).module?.isSome ↔
    cutsShort o run = false ∧ run.status.succeeded ∧
      (filesAfter files workspace (outputPath workspace ps) run).exists? (outputPath workspace ps) := by
  by_cases hcut : cutsShort o run
  · simp [answer, hcut, timedOut, readOutput]
  · simp only [answer, hcut, finished]
    split <;> simp_all

/-- The files when the compiler starts. -/
def before (o : CompilerOptions) (tools : Toolchain) (files : FileTree) (source : String)
    (ps : CompilerParameters) : FileTree :=
  staged files tools.workspace source
    (responseFile (arguments o (sourcePath tools.workspace) (outputPath tools.workspace ps) ps))

def started (o : CompilerOptions) (tools : Toolchain) (files : FileTree) (source : String)
    (ps : CompilerParameters) : Except FileError ToolRun :=
  start tools (before o tools files source ps) o.program
    (responseFile (arguments o (sourcePath tools.workspace) (outputPath tools.workspace ps) ps))

theorem compile_of_started (h : started o tools files source ps = .ok run) :
    (∃ seconds ∈ o.timeout, endOfTime ≤ tools.clock + seconds) ∧
        compile o tools files source ps = .aborted ∨
      compile o tools files source ps =
        .value (.ok (answer o tools.workspace (before o tools files source ps) ps run)) := by
  unfold started before at h
  simp only [compile, before, answer, cutsShort, h]
  rcases Option.eq_none_or_eq_some o.timeout with hwait | ⟨seconds, hwait⟩
  · simp [hwait]
  · by_cases hclock : endOfTime ≤ tools.clock + seconds
    · simp [hwait, hclock]
    · by_cases hdelay : seconds * 1000 ≤ run.delay <;> simp [hwait, hclock, hdelay]

/-- **What comes of a compilation.** A stream reports line by line, whatever bytes the other lines hold. If
the compiler starts, then unless the clock cannot show the end of the wait there is an answer. Its messages
are what was heard of both streams, and after it an error of the compilation's own, just if the wait was over
or a failure was heard of without an error. What was heard is all that was reported, each message once and
in order, if and only if each stream is text or reports nothing. A status other than success, or the end of
the wait, makes an error; a module is there just if the compiler succeeded in time and its file exists. -/
theorem compile_result (h : started o tools files source ps = .ok run) :
    (∀ a b, reported (a ++ "\n".toUTF8 ++ b) = reported a ++ reported b) ∧
    ((∃ seconds ∈ o.timeout, endOfTime ≤ tools.clock + seconds) ∧
        compile o tools files source ps = .aborted ∨
      ∃ r added, compile o tools files source ps = .value (.ok r) ∧
        r.messages = heard (left o run).stderr ++ heard (left o run).stdout ++ added ∧
        IsVerdict added ∧
        (added = [] ↔ cutsShort o run = false ∧ (run.status.succeeded ∨
          HoldsError (heard (left o run).stderr ++ heard (left o run).stdout))) ∧
        (heard (left o run).stderr ++ heard (left o run).stdout =
          reported (left o run).stderr ++ reported (left o run).stdout ↔
            Kept (left o run).stderr ∧ Kept (left o run).stdout) ∧
        (cutsShort o run ∨ run.status.succeeded = false → r.hasErrors) ∧
        (r.module?.isSome ↔ cutsShort o run = false ∧ run.status.succeeded ∧
          (filesAfter (before o tools files source ps) tools.workspace
            (outputPath tools.workspace ps) run).exists? (outputPath tools.workspace ps))) := by
  refine ⟨reported_append, ?_⟩
  rcases compile_of_started h with haborted | hvalue
  · exact .inl haborted
  · obtain ⟨added, hverdict, hnil, hmessages⟩ :=
      messages_answer o tools.workspace (before o tools files source ps) ps run
    exact .inr ⟨_, added, hvalue, hmessages, hverdict, hnil, heard_append_iff .., hasErrors_answer,
      module_answer⟩

end Run

/-! ## A stream lost -/

/-- Two errors, and a byte that is no text. -/
def oddBytes : ByteArray :=
  "error: a\nerror: b".toUTF8 ++ "\n".toUTF8 ++ ⟨#[0xFF]⟩

def oddRun : ToolRun where
  stderr := oddBytes
  status := .exited 1

/-- The compiler is found under its bare name, in a place that the files do not show. -/
def oddTools : Toolchain where
  workspace := ⟨"/w"⟩
  search := fun name => if name = "rustc" then .ok ["bin", "rustc"] else .error .notFound
  run? := fun p _ => if p = ["bin", "rustc"] then some oddRun else none

theorem started_odd : started {} oddTools {} "" {} = .ok oddRun := by
  have hhere : (Text.split oddTools.workspace.text '/').filter (· ≠ "") = ["w"] := by decide
  have hprogram : ({ before {} oddTools {} "" {} with workingDirectory := ["w"] } : FileTree).program ⟨"rustc"⟩
      oddTools.search = .ok ["bin", "rustc"] := by
    decide +kernel
  simp only [started, start, hhere, hprogram]
  rfl

/-- The errors are reported, and not heard. -/
theorem compile_result_odd : started {} oddTools {} "" {} = .ok oddRun ∧
      reported oddRun.stderr = [.error "" "a", .error "" "b"] ∧
      ∃ r, compile {} oddTools {} "" {} = .value (.ok r) ∧
        ¬ reported oddRun.stderr <+: r.messages := by
  have hreported : reported oddRun.stderr = [.error "" "a", .error "" "b"] := by decide +kernel
  have hinvalid : ¬ oddRun.stderr.IsValidUTF8 := by decide +kernel
  refine ⟨started_odd, hreported, ?_⟩
  rcases (compile_result started_odd).2 with
    ⟨⟨seconds, hmem, -⟩, -⟩ | ⟨r, added, hr, hmessages, hverdict, -⟩
  · cases hmem
  · refine ⟨r, hr, fun hprefix => ?_⟩
    have hheard : r.messages = added := by
      rw [hmessages]
      show heard oddRun.stderr ++ heard .empty ++ added = added
      rw [heard_of_not_valid hinvalid]
      rfl
    have hlength := hprefix.length_le
    rw [hheard, hreported] at hlength
    rcases hverdict with rfl | ⟨m, rfl, -⟩
    · exact absurd hlength (by decide)
    · exact absurd hlength (by simp)

end Templating.ProcessCompiler
