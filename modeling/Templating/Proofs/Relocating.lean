import Templating.Engine
import Templating.Proofs.Writing

/-!
# Messages moved into the template

A message about the unit's source belongs to the template line that the line map gives, every other
message to the template as a whole. The engine tells the source by its last name alone. So a message is
treated as it should be unless it is about another file of that name, or its place leaves 32 bits
(`attributed_iff`).
-/

namespace Templating

theorem Path.name?_of_same {p q : Path} (h : p.same q) : p.name? = q.name? := by
  have hlast : p.marks.getLast?.map (·.1) = q.marks.getLast?.map (·.1) := by
    rw [← List.getLast?_map, ← List.getLast?_map]
    exact congrArg List.getLast? (eq_of_beq h)
  unfold name?
  generalize p.marks.getLast? = a at hlast ⊢
  generalize q.marks.getLast? = b at hlast ⊢
  cases a with
  | none =>
    cases b with
    | none => rfl
    | some _ => cases hlast
  | some x =>
    cases b with
    | none => cases hlast
    | some y =>
      obtain ⟨c, n⟩ := x
      obtain ⟨c', n'⟩ := y
      have hc : c = c' := Option.some.inj hlast
      subst hc
      cases c <;> rfl

namespace Engine

variable {source : Path} {unit : GeneratedUnit} {root : Option String} {m : CompilerMessage}

/-! ## Which file a message is about -/

def AboutSource (source : Path) (m : CompilerMessage) : Prop :=
  ∃ f ∈ m.file, (Path.mk f).same source

theorem concernsUnit_iff : concernsUnit m source ↔
    ∃ f ∈ m.file, ∃ name, (Path.mk f).name? = some name ∧ source.name? = some name := by
  unfold concernsUnit
  cases m.file with
  | none => simp
  | some f => cases h : (Path.mk f).name? <;> simp [h]

theorem AboutSource.concernsUnit {name : String} (h : AboutSource source m) (hname : source.name? = some name) :
    concernsUnit m source := by
  obtain ⟨f, hf, hsame⟩ := h
  exact concernsUnit_iff.2 ⟨f, hf, name, (Path.name?_of_same hsame).trans hname, hname⟩

/-! ## What becomes of it -/

def severityOf (m : CompilerMessage) : Severity :=
  if m.isWarning then .warning else .error

def codeOf (m : CompilerMessage) : String :=
  if m.code.isEmpty then "TT3000" else m.code

def told (m : CompilerMessage) (text : String) (l : Location) : Diagnostic :=
  ⟨severityOf m, codeOf m, text, some l⟩

def entry? (unit : GeneratedUnit) (m : CompilerMessage) : Option LineMapEntry :=
  unit.lineMap.find? (·.covers m.line)

theorem ofCompilerMessage_elsewhere (h : ¬ (concernsUnit m source ∧ 0 < m.line)) :
    ofCompilerMessage source unit root m = .value (told m m.text (.whole root)) := by
  have hout : (concernsUnit m source && decide (0 < m.line)) = false := by simpa using h
  simp [ofCompilerMessage, hout, Outcome.map, told, severityOf, codeOf]

theorem locate_of_entry {e : LineMapEntry} (he : entry? unit m = some e) :
    unit.lineMap.locate m.line m.column = (e.locate m.line m.column).map some := by
  rw [LineMap.locate, ← entry?, he]

section
variable (h : concernsUnit m source) (hline : 0 < m.line)
include h hline

theorem ofCompilerMessage_unmapped (he : entry? unit m = none) : ofCompilerMessage source unit root m =
    .value (told m (m.text ++ " (generated line " ++ toString m.line ++ ")") (.whole root)) := by
  have hplace : unit.lineMap.locate m.line m.column = .value none := by
    rw [LineMap.locate, ← entry?, he]
  simp [ofCompilerMessage, h, hline, hplace, Outcome.map, told, severityOf, codeOf]

theorem ofCompilerMessage_moved {e : LineMapEntry} (he : entry? unit m = some e)
    (hrange : e.InRange m.line m.column) : ofCompilerMessage source unit root m =
    .value (told m m.text ((e.place m.line m.column).orIn root)) := by
  have hplace := locate_of_entry he
  rw [LineMapEntry.locate_of_inRange hrange] at hplace
  simp [ofCompilerMessage, h, hline, hplace, Outcome.map, told, severityOf, codeOf]

theorem ofCompilerMessage_aborted {e : LineMapEntry} (he : entry? unit m = some e)
    (hrange : ¬ e.InRange m.line m.column) : ofCompilerMessage source unit root m = .aborted := by
  have hplace := locate_of_entry he
  rw [LineMapEntry.locate_of_not_inRange hrange] at hplace
  simp [ofCompilerMessage, h, hline, hplace, Outcome.map]

end

/-- A message gives no diagnostic just if it is taken for one of the unit's and its place has numbers of
more than 32 bits. -/
theorem ofCompilerMessage_eq_aborted_iff : ofCompilerMessage source unit root m = .aborted ↔
    concernsUnit m source ∧ 0 < m.line ∧ ∃ e ∈ entry? unit m, ¬ e.InRange m.line m.column := by
  constructor
  · intro haborted
    by_cases h : concernsUnit m source ∧ 0 < m.line
    · refine ⟨h.1, h.2, ?_⟩
      cases he : entry? unit m with
      | none => cases haborted.symm.trans (ofCompilerMessage_unmapped h.1 h.2 he)
      | some e =>
        refine ⟨e, rfl, fun hrange => ?_⟩
        cases haborted.symm.trans (ofCompilerMessage_moved h.1 h.2 he hrange)
    · cases haborted.symm.trans (ofCompilerMessage_elsewhere h)
  · rintro ⟨h, hline, e, he, hrange⟩
    exact ofCompilerMessage_aborted h hline he hrange

theorem told_of_value {d : Diagnostic} (h : ofCompilerMessage source unit root m = .value d) :
    ∃ text l, d = told m text l := by
  by_cases hin : concernsUnit m source ∧ 0 < m.line
  · cases he : entry? unit m with
    | none => exact ⟨_, _, Outcome.value.inj (h.symm.trans (ofCompilerMessage_unmapped hin.1 hin.2 he))⟩
    | some e =>
      by_cases hrange : e.InRange m.line m.column
      · exact ⟨_, _, Outcome.value.inj (h.symm.trans (ofCompilerMessage_moved hin.1 hin.2 he hrange))⟩
      · cases h.symm.trans (ofCompilerMessage_aborted hin.1 hin.2 he hrange)
  · exact ⟨_, _, Outcome.value.inj (h.symm.trans (ofCompilerMessage_elsewhere hin))⟩

/-! ## What ought to become of it -/

/-- A diagnostic is at a place of the template only for a message about the source, and one in a line that
the line map has. What is about another file is left to the template as a whole, word for word. -/
structure Attributed (source : Path) (unit : GeneratedUnit) (root : Option String) (m : CompilerMessage)
    (d : Diagnostic) : Prop where
  severity : d.severity = severityOf m
  code : d.code = codeOf m
  place : d.location = some (.whole root) ∨ AboutSource source m ∧
    ∃ e ∈ unit.lineMap, e.covers m.line ∧ d.location = some ((e.place m.line m.column).orIn root)
  foreign : ¬ AboutSource source m → d.location = some (.whole root) ∧ d.message = m.text

theorem attributed_whole : Attributed source unit root m (told m m.text (.whole root)) where
  severity := rfl
  code := rfl
  place := .inl rfl
  foreign _ := ⟨rfl, rfl⟩

theorem attributed_unmapped_iff (text : String) :
    Attributed source unit root m (told m text (.whole root)) ↔ AboutSource source m ∨ text = m.text := by
  constructor
  · intro h
    by_cases habout : AboutSource source m
    · exact .inl habout
    · exact .inr (h.foreign habout).2
  · rintro (habout | rfl)
    · exact ⟨rfl, rfl, .inl rfl, fun h => absurd habout h⟩
    · exact attributed_whole

theorem attributed_moved_iff {e : LineMapEntry} (he : entry? unit m = some e) :
    Attributed source unit root m (told m m.text ((e.place m.line m.column).orIn root)) ↔
      AboutSource source m ∨ (e.place m.line m.column).orIn root = .whole root := by
  constructor
  · intro h
    by_cases habout : AboutSource source m
    · exact .inl habout
    · exact .inr (Option.some.inj (h.foreign habout).1)
  · rintro (habout | hwhole)
    · exact ⟨rfl, rfl, .inr ⟨habout, e, List.mem_of_find?_eq_some he, LineMap.covers_of_find he, rfl⟩,
        fun h => absurd habout h⟩
    · rw [hwhole]
      exact attributed_whole

theorem generated_line_ne (text line : String) : text ++ " (generated line " ++ line ++ ")" ≠ text := by
  intro h
  have hlength := congrArg String.length h
  simp only [String.length_append] at hlength
  have hnote : " (generated line ".length = 17 := by decide
  omega

/-- **Only messages about the unit are moved into the template.** A diagnostic has its message's severity
and code. One about the source itself, at a line of the line map and with a place of 32 bits, is at that
place. And every message is told as it ought to be, unless the engine takes it for one of the unit's and
its place has more than 32 bits, or it is about a namesake of the source and the line map does not leave it
to the template as a whole. -/
theorem attributed_iff (source : Path) (unit : GeneratedUnit) (root : Option String) (m : CompilerMessage) :
    (∀ d, ofCompilerMessage source unit root m = .value d →
      d.severity = severityOf m ∧ d.code = codeOf m) ∧
    (AboutSource source m → source.name?.isSome → 0 < m.line → ∀ e ∈ entry? unit m,
      e.InRange m.line m.column → ofCompilerMessage source unit root m =
        .value (told m m.text ((e.place m.line m.column).orIn root))) ∧
    ((∃ d, ofCompilerMessage source unit root m = .value d ∧ Attributed source unit root m d) ↔
      (concernsUnit m source → 0 < m.line →
        (∀ e ∈ entry? unit m, e.InRange m.line m.column) ∧
        (¬ AboutSource source m →
          ∃ e ∈ entry? unit m, (e.place m.line m.column).orIn root = .whole root))) := by
  refine ⟨fun d hd => ?_, fun habout hname hline e he hrange => ?_, ?_⟩
  · obtain ⟨text, l, rfl⟩ := told_of_value hd
    exact ⟨rfl, rfl⟩
  · obtain ⟨name, hname⟩ := Option.isSome_iff_exists.1 hname
    exact ofCompilerMessage_moved (habout.concernsUnit hname) hline he hrange
  by_cases hin : concernsUnit m source ∧ 0 < m.line
  · obtain ⟨h, hline⟩ := hin
    simp only [h, hline, forall_const]
    cases he : entry? unit m with
    | none =>
      simp [ofCompilerMessage_unmapped h hline he, attributed_unmapped_iff, generated_line_ne]
    | some e =>
      by_cases hrange : e.InRange m.line m.column
      · simp [ofCompilerMessage_moved h hline he hrange, attributed_moved_iff he, hrange,
          or_iff_not_imp_left]
      · simp [ofCompilerMessage_aborted h hline he hrange, hrange]
  · refine iff_of_true ⟨_, ofCompilerMessage_elsewhere hin, attributed_whole⟩ fun h hline => ?_
    exact absurd ⟨h, hline⟩ hin

/-- An error in a library's file of the same name is shown in the template. -/
example : ofCompilerMessage ⟨"/x/unit.rs"⟩ ⟨"", [⟨1, 3, ⟨none, 1, 3⟩, true⟩], ""⟩ (some "t.tt")
    ⟨some "/lib/unit.rs", 2, 5, false, "", "oops"⟩ =
      .value ⟨.error, "TT3000", "oops", some ⟨some "t.tt", 2, 5⟩⟩ := by
  decide

end Engine

end Templating
