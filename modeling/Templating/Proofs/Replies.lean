import Mathlib.Data.List.Basic
import Templating.Program
import Templating.Proofs.Escaping

/-!
# Replies read back

A reply is written as lines that are read back one by one (`parse_render`), whatever other lines stand
between them (`parse_interspersed`). It has no end mark, so a reply that is cut short reads as one
without output, unless the cut lies in the output itself: then it reads as a reply with a shorter
output (`parse_of_prefix`).
-/

namespace Templating

namespace Text

/-! ## Cutting a line -/

theorem cutChars_append {sep : Char} : ∀ {a : List Char}, sep ∉ a → ∀ b,
    cutChars sep (a ++ sep :: b) = some (a, b)
  | [], _, b => by simp [cutChars]
  | c :: a, h, b => by
    rw [List.mem_cons, not_or] at h
    rw [List.cons_append, cutChars, if_neg (Ne.symm h.1), cutChars_append h.2]
    rfl

theorem cutChars_of_not_mem {sep : Char} : ∀ {cs : List Char}, sep ∉ cs → cutChars sep cs = none
  | [], _ => rfl
  | c :: cs, h => by
    rw [List.mem_cons, not_or] at h
    rw [cutChars, if_neg (Ne.symm h.1), cutChars_of_not_mem h.2]
    rfl

theorem eq_of_cutChars {sep : Char} : ∀ {cs a b : List Char}, cutChars sep cs = some (a, b) →
    cs = a ++ sep :: b
  | [], _, _, h => by cases h
  | c :: cs, a, b, h => by
    rw [cutChars] at h
    split at h
    · rename_i hc
      obtain ⟨rfl, rfl⟩ := Prod.mk.inj (Option.some.inj h)
      rw [hc]
      rfl
    · obtain ⟨⟨a', b'⟩, h', e⟩ := Option.map_eq_some_iff.1 h
      obtain ⟨rfl, rfl⟩ := Prod.mk.inj e
      rw [eq_of_cutChars h']
      rfl

theorem takeWhile_of_cutChars {sep : Char} (rest : List Char) : ∀ {cs a b : List Char},
    cutChars sep cs = some (a, b) → (cs ++ rest).takeWhile (· ≠ sep) = a
  | [], _, _, h => by cases h
  | c :: cs, a, b, h => by
    rw [cutChars] at h
    split at h
    · rename_i hc
      obtain ⟨rfl, rfl⟩ := Prod.mk.inj (Option.some.inj h)
      simp [hc]
    · rename_i hc
      obtain ⟨⟨a', b'⟩, h', e⟩ := Option.map_eq_some_iff.1 h
      obtain ⟨rfl, rfl⟩ := Prod.mk.inj e
      rw [List.cons_append, List.takeWhile_cons_of_pos (by simpa using hc), takeWhile_of_cutChars rest h']

/-! ## Cut bytes -/

theorem toUTF8_of_decode {bytes : ByteArray} {s : String} (h : decode? bytes = some s) :
    s.toUTF8 = bytes := by
  unfold decode? String.fromUTF8? at h
  split at h
  · rw [← Option.some.inj h]
    rfl
  · cases h

theorem decode_toUTF8 (s : String) : decode? s.toUTF8 = some s :=
  dif_pos s.isValidUTF8

/-- Where the bytes of a text are cut and what is left is text again, no character is cut. -/
theorem prefix_of_decode {bytes lost : ByteArray} {s text : String} (h : decode? bytes = some s)
    (hb : bytes ++ lost = text.toUTF8) : s.toList <+: text.toList := by
  refine List.isPrefix_of_utf8Encode_append_eq_utf8Encode lost ?_
  rw [String.utf8Encode_toList, String.utf8Encode_toList]
  exact (congrArg (· ++ lost) (toUTF8_of_decode h)).trans hb

end Text

/-! ## The lines of a reply -/

namespace Reply

def lineChars (tag : String) (payload : List Char) : List Char :=
  tag.toList ++ ' ' :: payload

def messageLine (m : Message) : List Char :=
  lineChars (messageTag m) (Text.escapeChars m.text.toList)

/-- All but the output. -/
def headLines (r : Reply) : List (List Char) :=
  r.entries.map (fun e => lineChars "@entry" e.toList) ++ r.messages.map messageLine

def outputLine (output : String) : List Char :=
  lineChars "@output" (Text.escapeChars output.toList)

def lines (r : Reply) : List (List Char) :=
  r.headLines ++ (r.output.map outputLine).toList

theorem line_toList (tag payload : String) :
    (line tag payload).toList = lineChars tag payload.toList ++ ['\n'] := by
  simp [line, lineChars]

theorem render_toList (r : Reply) : r.render.toList = Text.unlines r.lines := by
  have hmessage : ∀ m : Message,
      (line (messageTag m) (Text.escape m.text)).toList = messageLine m ++ ['\n'] := by
    intro m
    rw [line_toList, Text.escape, String.toList_ofList]
    rfl
  have houtput : ∀ o : String, (line "@output" (Text.escape o)).toList = outputLine o ++ ['\n'] := by
    intro o
    rw [line_toList, Text.escape, String.toList_ofList]
    rfl
  unfold render lines headLines Text.unlines
  cases r.output <;>
    simp [String.toList_join, List.flatMap_map, List.flatMap_append, line_toList, hmessage, houtput]

theorem isLine_lineChars {tag : String} {payload : List Char} (ht : '\n' ∉ tag.toList)
    (hp : Text.IsLine payload) : Text.IsLine (lineChars tag payload) := by
  refine ⟨?_, ?_⟩
  · simp [lineChars, ht, hp.oneLine]
  · intro h
    rw [lineChars, List.getLast?_append, List.getLast?_cons] at h
    cases hl : payload.getLast? with
    | none => simp [hl] at h
    | some c => exact hp.plainEnd (by simpa [hl] using h)

theorem isLine_of_mem_lines {r : Reply} (he : ∀ e ∈ r.entries, Text.IsLine e.toList) :
    ∀ l ∈ r.lines, Text.IsLine l := by
  intro l hl
  rcases List.mem_append.1 hl with hl | hl
  · rcases List.mem_append.1 hl with hl | hl
    · obtain ⟨e, hm, rfl⟩ := List.mem_map.1 hl
      exact isLine_lineChars (by decide) (he e hm)
    · obtain ⟨m, -, rfl⟩ := List.mem_map.1 hl
      have htag : '\n' ∉ (messageTag m).toList := by
        unfold messageTag
        split <;> decide
      exact isLine_lineChars htag (Text.isLine_escapeChars _)
  · obtain ⟨o, -, rfl⟩ := Option.map_eq_some_iff.1 (Option.mem_toList.1 hl)
    exact isLine_lineChars (by decide) (Text.isLine_escapeChars _)

/-! ## Taking lines -/

theorem takeLine_lineChars (r : Reply) {tag : String} (h : ' ' ∉ tag.toList) (payload : List Char) :
    r.takeLine (String.ofList (lineChars tag payload)) =
      if tag = "@entry" then { r with entries := r.entries ++ [String.ofList payload] }
      else if tag = "@error" then
        { r with messages := r.messages ++ [⟨false, String.ofList (Text.unescapeChars payload)⟩] }
      else if tag = "@warning" then
        { r with messages := r.messages ++ [⟨true, String.ofList (Text.unescapeChars payload)⟩] }
      else if tag = "@output" then { r with output := some (String.ofList (Text.unescapeChars payload)) }
      else r := by
  have hcut : Text.cut (String.ofList (lineChars tag payload)) ' ' = some (tag, String.ofList payload) := by
    rw [Text.cut, String.toList_ofList, lineChars, Text.cutChars_append h, Option.map_some,
      String.ofList_toList]
  simp only [takeLine, hcut, Text.unescape, String.toList_ofList]

theorem takeLine_entry (r : Reply) (e : String) :
    r.takeLine (String.ofList (lineChars "@entry" e.toList)) = { r with entries := r.entries ++ [e] } := by
  rw [takeLine_lineChars r (by decide), if_pos rfl, String.ofList_toList]

theorem takeLine_message (r : Reply) (m : Message) :
    r.takeLine (String.ofList (messageLine m)) = { r with messages := r.messages ++ [m] } := by
  obtain ⟨isWarning, text⟩ := m
  cases isWarning <;>
    simp [messageLine, messageTag, takeLine_lineChars, Text.unescapeChars_escapeChars]

theorem takeLine_output (r : Reply) (payload : List Char) :
    r.takeLine (String.ofList (lineChars "@output" payload)) =
      { r with output := some (String.ofList (Text.unescapeChars payload)) } := by
  simp [takeLine_lineChars]

theorem takeLine_nil (r : Reply) : r.takeLine (String.ofList []) = r := by
  simp [takeLine, Text.cut, Text.cutChars]

/-- Only a line with its tag and a payload sets the output. -/
theorem takeLine_of_not_output (r : Reply) {l : List Char} (h : ¬ lineChars "@output" [] <+: l) :
    (r.takeLine (String.ofList l)).output = r.output := by
  unfold takeLine
  split
  · rfl
  · rename_i tag payload hcut
    rw [Text.cut, String.toList_ofList] at hcut
    obtain ⟨⟨a, b⟩, hab, hp⟩ := Option.map_eq_some_iff.1 hcut
    obtain ⟨rfl, rfl⟩ := Prod.mk.inj hp
    have hne : String.ofList a ≠ "@output" := by
      intro ha
      refine h ⟨b, ?_⟩
      have ha' : a = "@output".toList := by rw [← ha, String.toList_ofList]
      rw [Text.eq_of_cutChars hab, ha']
      simp [lineChars]
    rw [if_neg hne]
    split_ifs <;> rfl

def takeLines (r : Reply) (ls : List (List Char)) : Reply :=
  ls.foldl (fun r l => r.takeLine (String.ofList l)) r

theorem takeLines_append (r : Reply) (a b : List (List Char)) :
    r.takeLines (a ++ b) = (r.takeLines a).takeLines b :=
  List.foldl_append

theorem takeLines_entries (r : Reply) (es : List String) :
    r.takeLines (es.map fun e => lineChars "@entry" e.toList) = { r with entries := r.entries ++ es } := by
  induction es generalizing r with
  | nil => simp [takeLines]
  | cons e es ih =>
    rw [List.map_cons, takeLines, List.foldl_cons, takeLine_entry]
    exact (ih _).trans (by simp)

theorem takeLines_messages (r : Reply) (ms : List Message) :
    r.takeLines (ms.map messageLine) = { r with messages := r.messages ++ ms } := by
  induction ms generalizing r with
  | nil => simp [takeLines]
  | cons m ms ih =>
    rw [List.map_cons, takeLines, List.foldl_cons, takeLine_message]
    exact (ih _).trans (by simp)

theorem takeLines_headLines (r : Reply) :
    ({} : Reply).takeLines r.headLines = { r with output := none } := by
  rw [headLines, takeLines_append, takeLines_entries, takeLines_messages]
  simp

theorem takeLines_of_no_output (r : Reply) {ls : List (List Char)}
    (h : ∀ l ∈ ls, ¬ lineChars "@output" [] <+: l) : (r.takeLines ls).output = r.output := by
  induction ls generalizing r with
  | nil => rfl
  | cons l ls ih =>
    obtain ⟨hl, hls⟩ := List.forall_mem_cons.1 h
    rw [takeLines, List.foldl_cons]
    exact (ih _ hls).trans (takeLine_of_not_output r hl)

theorem not_output_of_mem_headLines {r : Reply} : ∀ l ∈ r.headLines, ¬ lineChars "@output" [] <+: l := by
  intro l hl
  rcases List.mem_append.1 hl with hl | hl
  · obtain ⟨e, -, rfl⟩ := List.mem_map.1 hl
    simp [lineChars]
  · obtain ⟨m, -, rfl⟩ := List.mem_map.1 hl
    unfold messageLine messageTag
    split <;> simp [lineChars]

/-! ## Reading replies -/

/-- The lines that are complete, then what is left of the last one. -/
theorem parse_unlines_append {ls : List (List Char)} (hl : ∀ l ∈ ls, '\n' ∉ l) {q : List Char}
    (hq : '\n' ∉ q) : parse (String.ofList (Text.unlines ls ++ q)) =
      (({} : Reply).takeLines (ls.map Text.chomp)).takeLine (String.ofList q) := by
  rw [parse, Text.lines_unlines_append hl hq, List.foldl_map, List.foldl_append]
  by_cases h : q = []
  · rw [if_pos h, h, takeLine_nil]
    rfl
  · rw [if_neg h]
    rfl

theorem parse_lines_append {ls : List (List Char)} (hl : ∀ l ∈ ls, Text.IsLine l) {q : List Char}
    (hq : '\n' ∉ q) : parse (String.ofList (Text.unlines ls ++ q)) =
      (({} : Reply).takeLines ls).takeLine (String.ofList q) := by
  rw [parse_unlines_append (fun l h => (hl l h).oneLine) hq, Text.map_chomp hl]

/-- A reply up to some part of its output. -/
def cut (r : Reply) (q : List Char) : List Char :=
  Text.unlines r.headLines ++ lineChars "@output" q

variable {r : Reply}

theorem parse_cut (hl : ∀ l ∈ r.lines, Text.IsLine l) {q : List Char} (hq : '\n' ∉ q) :
    parse (String.ofList (r.cut q)) = { r with output := some (String.ofList (Text.unescapeChars q)) } := by
  have hhead : ∀ l ∈ r.headLines, Text.IsLine l := fun l h => hl l (List.mem_append_left _ h)
  have htag : '\n' ∉ lineChars "@output" q := by simp [lineChars, hq]
  rw [cut, parse_lines_append hhead htag, takeLines_headLines, takeLine_output]

theorem parse_unlines {ls : List (List Char)} (hl : ∀ l ∈ ls, '\n' ∉ l) :
    parse (String.ofList (Text.unlines ls)) = ({} : Reply).takeLines (ls.map Text.chomp) := by
  have h := parse_unlines_append hl List.not_mem_nil
  rwa [List.append_nil, takeLine_nil] at h

theorem parse_render (hl : ∀ l ∈ r.lines, Text.IsLine l) : parse r.render = r := by
  rw [← String.ofList_toList (s := r.render), render_toList, parse_unlines fun l h => (hl l h).oneLine,
    Text.map_chomp hl, lines, takeLines_append, takeLines_headLines]
  obtain ⟨entries, messages, _ | o⟩ := r
  · rfl
  · rw [Option.map_some, Option.toList_some, takeLines, List.foldl_cons, List.foldl_nil, outputLine,
      takeLine_output, Text.unescapeChars_escapeChars, String.ofList_toList]

/-! ## Lines that do not count -/

/-- The first words of the lines that count. -/
def tags : List String :=
  ["@entry", "@error", "@warning", "@output"]

structure Foreign (l : List Char) : Prop where
  oneLine : '\n' ∉ l
  word : String.ofList (l.takeWhile (· ≠ ' ')) ∉ tags

theorem takeLine_foreign (r : Reply) {l : List Char} (h : Foreign l) :
    r.takeLine (String.ofList (Text.chomp l)) = r := by
  unfold takeLine
  split
  · rfl
  · rename_i tag payload hcut
    rw [Text.cut, String.toList_ofList] at hcut
    obtain ⟨⟨a, b⟩, hab, hp⟩ := Option.map_eq_some_iff.1 hcut
    obtain ⟨rfl, -⟩ := Prod.mk.inj hp
    -- A carriage return that the line loses stands after its first blank.
    obtain ⟨lost, hlost⟩ := Text.chomp_prefix l
    have hword := Text.takeWhile_of_cutChars lost hab
    rw [hlost] at hword
    have htag := h.word
    rw [hword] at htag
    simp only [tags, List.mem_cons, List.not_mem_nil, or_false, not_or] at htag
    obtain ⟨hentry, herror, hwarning, houtput⟩ := htag
    rw [if_neg hentry, if_neg herror, if_neg hwarning, if_neg houtput]

/-- The lines of a text, and these lines with extra ones before, between and after them. -/
inductive Interspersed (extra : List Char → Prop) : List (List Char) → List (List Char) → Prop
  | nil : Interspersed extra [] []
  | keep (l : List Char) {ls ls' : List (List Char)} (h : Interspersed extra ls ls') :
      Interspersed extra (l :: ls) (l :: ls')
  | insert {l : List Char} (hl : extra l) {ls ls' : List (List Char)} (h : Interspersed extra ls ls') :
      Interspersed extra ls (l :: ls')

section
variable {ls ls' : List (List Char)}

theorem Interspersed.oneLine (h : Interspersed Foreign ls ls') (hls : ∀ l ∈ ls, '\n' ∉ l) :
    ∀ l ∈ ls', '\n' ∉ l := by
  induction h with
  | nil => exact hls
  | keep l _ ih =>
    obtain ⟨hl, hls⟩ := List.forall_mem_cons.1 hls
    exact List.forall_mem_cons.2 ⟨hl, ih hls⟩
  | insert hl _ ih => exact List.forall_mem_cons.2 ⟨hl.oneLine, ih hls⟩

theorem Interspersed.takeLines (h : Interspersed Foreign ls ls') (r : Reply) :
    r.takeLines (ls'.map Text.chomp) = r.takeLines (ls.map Text.chomp) := by
  induction h generalizing r with
  | nil => rfl
  | keep l _ ih => exact ih _
  | insert hl _ ih =>
    rw [List.map_cons, Reply.takeLines, List.foldl_cons, takeLine_foreign r hl]
    exact ih r

end

/-- **Replies read back.** A reply whose entries are lines is read as it was written, also with lines
between its own whose first word is no tag. -/
theorem parse_interspersed (r : Reply) (he : ∀ e ∈ r.entries, Text.IsLine e.toList) :
    parse r.render = r ∧ ∀ ls ls' : List (List Char), r.render.toList = Text.unlines ls →
      (∀ l ∈ ls, '\n' ∉ l) → Interspersed Foreign ls ls' → parse (String.ofList (Text.unlines ls')) = r := by
  have hl := isLine_of_mem_lines he
  have hlines : ∀ l ∈ r.lines, '\n' ∉ l := fun l h => (hl l h).oneLine
  refine ⟨parse_render hl, fun ls ls' htext hls h => ?_⟩
  obtain rfl : ls = r.lines := Text.unlines_inj hls hlines (htext.symm.trans r.render_toList)
  calc parse (String.ofList (Text.unlines ls'))
      = ({} : Reply).takeLines (ls'.map Text.chomp) := parse_unlines (h.oneLine hlines)
    _ = ({} : Reply).takeLines (r.lines.map Text.chomp) := h.takeLines {}
    _ = parse (String.ofList (Text.unlines r.lines)) := (parse_unlines hlines).symm
    _ = parse r.render := by rw [← render_toList, String.ofList_toList]
    _ = r := parse_render hl

/-- Texts that hold what parts lines, tags and payloads. -/
def tangled : Reply :=
  { entries := [" @output"], messages := [⟨true, "a\\\nb"⟩, ⟨false, ""⟩], output := some "@output x\r" }

theorem parse_interspersed_tangled :
    (∀ e ∈ tangled.entries, Text.IsLine e.toList) ∧ parse tangled.render = tangled ∧
      parse "@entry  @output\n\n@warning a\\\\\\nb\n@error \n@outputs y\r\n@output @output x\\r\n" = tangled := by
  have he : ∀ e ∈ tangled.entries, Text.IsLine e.toList := by
    intro e he
    obtain rfl := List.mem_singleton.1 he
    exact ⟨by decide, by decide⟩
  obtain ⟨hparse, hextra⟩ := parse_interspersed tangled he
  let own := ["@entry  @output", "@warning a\\\\\\nb", "@error ", "@output @output x\\r"]
  let all := ["@entry  @output", "", "@warning a\\\\\\nb", "@error ", "@outputs y\r", "@output @output x\\r"]
  have hrender : tangled.render.toList = Text.unlines (own.map String.toList) := by decide +kernel
  have hinterspersed : Interspersed Foreign (own.map String.toList) (all.map String.toList) :=
    .keep _ (.insert ⟨by decide, by decide⟩ (.keep _ (.keep _ (.insert ⟨by decide, by decide⟩ (.keep _ .nil)))))
  have hall : String.ofList (Text.unlines (all.map String.toList)) =
      "@entry  @output\n\n@warning a\\\\\\nb\n@error \n@outputs y\r\n@output @output x\\r\n" := by
    decide +kernel
  rw [← hall]
  exact ⟨he, hparse, hextra _ _ hrender (by decide) hinterspersed⟩

/-! ## Replies cut short -/

theorem lines_eq_append_cons {done rest : List (List Char)} {l : List Char}
    (h : r.lines = done ++ l :: rest) :
    (∀ l' ∈ done, l' ∈ r.headLines) ∧
      (l ∈ r.headLines ∨ done = r.headLines ∧ ∃ o, r.output = some o ∧ l = outputLine o) := by
  have hlast : ∀ {a}, (r.output.map outputLine).toList = a ++ l :: rest →
      a = [] ∧ ∃ o, r.output = some o ∧ l = outputLine o := by
    intro a ha
    cases ho : r.output with
    | none => simp [ho] at ha
    | some o =>
      have ha' : [outputLine o] = a ++ l :: rest := by simpa [ho] using ha
      obtain ⟨rfl, rfl, -⟩ : a = [] ∧ outputLine o = l ∧ _ := by
        cases a with
        | nil => exact ⟨rfl, (List.cons.inj ha').1, (List.cons.inj ha').2⟩
        | cons x a => simp at ha'
      exact ⟨rfl, o, rfl, rfl⟩
  rcases List.append_eq_append_iff.1 h with ⟨a, rfl, ha⟩ | ⟨c, hc, hl⟩
  · obtain ⟨rfl, ho⟩ := hlast ha
    rw [List.append_nil]
    exact ⟨fun _ => id, .inr ⟨rfl, ho⟩⟩
  · refine ⟨fun l' hm => hc ▸ List.mem_append_left _ hm, ?_⟩
    cases c with
    | nil =>
      obtain ⟨-, ho⟩ := hlast (a := []) hl.symm
      exact .inr ⟨by rw [hc, List.append_nil], ho⟩
    | cons x c =>
      obtain ⟨rfl, -⟩ := List.cons.inj hl
      exact .inl (by rw [hc]; simp)

/-- A reply that is cut short has no output, or it is cut in its output. -/
theorem parse_of_prefix (hl : ∀ l ∈ r.lines, Text.IsLine l) {cs : List Char} (h : cs <+: r.render.toList) :
    (parse (String.ofList cs)).output = none ∨
      (∃ o q, r.output = some o ∧ q <+: Text.escapeChars o.toList ∧ cs = r.cut q) ∨
        cs = r.render.toList := by
  rw [render_toList] at h ⊢
  obtain ⟨done, q, rest, hsplit, rfl, hq⟩ := Text.prefix_unlines h
  have hdone : ∀ l ∈ done, Text.IsLine l := fun l hm => hl l (hsplit ▸ List.mem_append_left _ hm)
  -- Only the last line can be one of output, so the cut decides by where it lies.
  cases rest with
  | nil =>
    obtain rfl := List.prefix_nil.1 hq
    rw [List.append_nil] at hsplit
    exact .inr (.inr (by rw [hsplit, List.append_nil]))
  | cons l rest =>
    have hq : q <+: l := hq
    have hline : Text.IsLine l := hl l (by rw [hsplit]; simp)
    have hqn : '\n' ∉ q := fun hn => hline.oneLine (hq.subset hn)
    obtain ⟨hhead, hl'⟩ := lines_eq_append_cons hsplit
    by_cases htag : lineChars "@output" [] <+: q
    · have hlast : l ∉ r.headLines := fun hm => not_output_of_mem_headLines l hm (htag.trans hq)
      obtain ⟨rfl, o, ho, rfl⟩ := hl'.resolve_left hlast
      obtain ⟨q', rfl⟩ := htag
      have hcut : lineChars "@output" [] ++ q' = lineChars "@output" q' := by simp [lineChars]
      have hq' : q' <+: Text.escapeChars o.toList := by
        have hout : outputLine o = lineChars "@output" [] ++ Text.escapeChars o.toList := by
          simp [outputLine, lineChars]
        rw [hout] at hq
        exact (List.prefix_append_right_inj _).1 hq
      exact .inr (.inl ⟨o, q', ho, hq', by rw [cut, hcut]⟩)
    · left
      rw [parse_lines_append hdone hqn, takeLine_of_not_output _ htag]
      exact takeLines_of_no_output {} fun l' hm => not_output_of_mem_headLines l' (hhead l' hm)

/-- A reply of a program that has both operations and recorded no error. -/
structure Clean (r : Reply) : Prop where
  setup : r.hasEntry initializeEntry
  transform : r.hasEntry transformEntry
  onlyWarnings : ∀ m ∈ r.messages, m.isWarning

theorem clean_output (o : Option String) : { r with output := o : Reply }.Clean ↔ r.Clean :=
  ⟨fun h => ⟨h.setup, h.transform, h.onlyWarnings⟩, fun h => ⟨h.setup, h.transform, h.onlyWarnings⟩⟩

/-- What passes for the whole reply of a program that came to its end: the reply itself, and whatever
of it goes beyond the tag of its output. -/
theorem parse_of_prefix_iff (hl : ∀ l ∈ r.lines, Text.IsLine l) {text : String}
    (h : text.toList <+: r.render.toList) (output : String) :
    ((parse text).Clean ∧ (parse text).output = some output) ↔ r.Clean ∧
      ((∃ o q, r.output = some o ∧ q <+: Text.escapeChars o.toList ∧ text.toList = r.cut q ∧
          output = String.ofList (Text.unescapeChars q)) ∨
        text = r.render ∧ r.output = some output) := by
  have hparse : ∀ {o : String} {q : List Char}, q <+: Text.escapeChars o.toList → text.toList = r.cut q →
      parse text = { r with output := some (String.ofList (Text.unescapeChars q)) } := by
    intro o q hq ht
    rw [← parse_cut hl fun hn => (Text.escapeChars_plain _).1 (hq.subset hn), ← ht, String.ofList_toList]
  constructor
  · rintro ⟨hclean, hout⟩
    rcases parse_of_prefix hl h with hnone | ⟨o, q, ho, hq, ht⟩ | ht
    · rw [String.ofList_toList, hout] at hnone
      cases hnone
    · rw [hparse hq ht] at hclean hout
      exact ⟨(clean_output _).1 hclean, .inl ⟨o, q, ho, hq, ht, (Option.some.inj hout).symm⟩⟩
    · obtain rfl := String.toList_inj.1 ht
      rw [parse_render hl] at hclean hout
      exact ⟨hclean, .inr ⟨rfl, hout⟩⟩
  · rintro ⟨hclean, ⟨o, q, -, hq, ht, rfl⟩ | ⟨rfl, hout⟩⟩
    · rw [hparse hq ht]
      exact ⟨(clean_output _).2 hclean, rfl⟩
    · rw [parse_render hl]
      exact ⟨hclean, hout⟩

end Reply

end Templating
