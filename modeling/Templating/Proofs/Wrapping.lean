import Mathlib
import Templating.Proofs.Messages
import Templating.Proofs.Places
import Templating.Proofs.Relocating

/-!
# Look-ups within 32 bits

A compiler tells lines and columns without a sign, a template has them with one. A look-up casts the former and
adds them to the latter, so it may give up, or end before the first line or column. It does neither just if each
sum that it forms stays below 2 ^ 31, or its cast wraps and yet it is large enough (`lookup_safe_iff`). Every line
of code has a column for which this fails.
-/

namespace Templating

/-! ## Casts -/

theorem signed32_of_wraps {n : Nat} (h : 2 ^ 31 ≤ n) (hn : n < 2 ^ 32) : signed32 n = n - 2 ^ 32 := by
  unfold signed32
  rw [Int.bmod_def]
  omega

theorem signed32_eq_zero_iff {n : Nat} (hn : n < 2 ^ 32) : signed32 n = 0 ↔ n = 0 := by
  unfold signed32
  rw [Int.bmod_def]
  omega

/-- A sum, one part of which is cast from 32 bits without a sign: it has 32 bits with a sign, or the cast takes
2 ^ 32 from it and leaves at least `least`. -/
def Survives (least sum : Int) : Prop :=
  sum < 2 ^ 31 ∨ 2 ^ 32 + least ≤ sum

theorem survives_iff {a least : Int} {n : Nat} (hn : n < 2 ^ 32) (ha : 0 < a) (ha' : a < 2 ^ 31)
    (hpos : 0 ≤ least) (hleast : least ≤ a + n) :
    least ≤ a + signed32 n ∧ a + signed32 n < 2 ^ 31 ↔ Survives least (a + n) := by
  unfold Survives
  by_cases hw : n < 2 ^ 31
  · rw [(signed32_eq_iff n).2 hw]
    omega
  · rw [signed32_of_wraps (by omega) hn]
    omega

namespace Location

/-- The line and the column count from 1. -/
def Counted (l : Location) : Prop :=
  1 ≤ l.line ∧ 1 ≤ l.column

/-- The line and the column count from 1 and have 32 bits. -/
structure Ordinary (l : Location) : Prop where
  line : 1 ≤ l.line ∧ l.line < 2 ^ 31
  column : 1 ≤ l.column ∧ l.column < 2 ^ 31

theorem Ordinary.counted {l : Location} (h : l.Ordinary) : l.Counted :=
  ⟨h.line.1, h.column.1⟩

theorem counted_orIn_iff (root : Option String) (l : Location) : (l.orIn root).Counted ↔ l.Counted := by
  unfold orIn
  split <;> exact Iff.rfl

end Location

/-! ## Entries -/

namespace LineMapEntry

variable {e : LineMapEntry} {line column : Nat}

/-- The look-up gives a place, and the place counts from 1. -/
def Safe (e : LineMapEntry) (line column : Nat) : Prop :=
  ∃ l, e.locate line column = .value l ∧ l.Counted

/-- What a position in code must be like for its place to be formed: the column and, on later lines, the line. -/
def Reaches (e : LineMapEntry) (line column : Nat) : Prop :=
  if line = e.first then Survives 2 (e.location.column + (max column 1 : Nat))
  else column < 2 ^ 31 ∧ Survives 1 (e.location.line + (line - e.first : Nat))

theorem safe_iff : e.Safe line column ↔ e.InRange line column ∧ (e.place line column).Counted := by
  unfold Safe
  by_cases hr : e.InRange line column
  · simp [locate_of_inRange hr, hr]
  · simp [locate_of_not_inRange hr, hr]

theorem one_le_columnOf_iff (hcolumn : column < 2 ^ 32) : 1 ≤ columnOf column ↔ column < 2 ^ 31 := by
  unfold columnOf
  by_cases hw : max column 1 < 2 ^ 31
  · rw [(signed32_eq_iff _).2 hw]
    omega
  · rw [signed32_of_wraps (by omega) (by omega)]
    omega

theorem safe_of_not_verbatim (hv : ¬ e.verbatim) (hl : e.location.Counted) : e.Safe line column := by
  refine safe_iff.2 ⟨fun h => absurd h hv, ?_⟩
  rw [place, if_neg hv]
  exact hl

section
variable (hv : e.verbatim)
include hv

theorem safe_iff_of_sameLine (h0 : e.offset line = 0) : e.Safe line column ↔ 1 ≤ e.location.line ∧
    2 ≤ e.location.column + columnOf column ∧ e.location.column + columnOf column < 2 ^ 31 := by
  have hcounted : (e.place line column).Counted ↔
      1 ≤ e.location.line ∧ 1 ≤ e.location.column + columnOf column - 1 := by
    rw [place, if_pos hv, if_pos h0]
    exact Iff.rfl
  rw [safe_iff, hcounted]
  constructor
  · rintro ⟨hr, hline, hcolumn⟩
    exact ⟨hline, by omega, ((hr hv).1 h0).2⟩
  · rintro ⟨hline, hlow, hhigh⟩
    exact ⟨fun _ => ⟨fun _ => ⟨by omega, hhigh⟩, fun h => absurd h0 h⟩, hline, by omega⟩

theorem safe_iff_of_otherLine (h0 : e.offset line ≠ 0) : e.Safe line column ↔ 1 ≤ columnOf column ∧
    1 ≤ e.location.line + e.offset line ∧ e.location.line + e.offset line < 2 ^ 31 := by
  have hcounted : (e.place line column).Counted ↔ 1 ≤ e.location.line + e.offset line ∧ 1 ≤ columnOf column := by
    simp only [Location.Counted, place, hv, h0, if_true, if_false]
  rw [safe_iff, hcounted]
  constructor
  · rintro ⟨hr, hline, hcolumn⟩
    exact ⟨hcolumn, hline, ((hr hv).2 h0).2⟩
  · rintro ⟨hcolumn, hlow, hhigh⟩
    exact ⟨fun _ => ⟨fun h => absurd h h0, fun _ => ⟨by omega, hhigh⟩⟩, hlow, hcolumn⟩

variable (hl : e.location.Ordinary)
include hl

theorem safe_iff_reaches (hline : line < 2 ^ 32) (hcolumn : column < 2 ^ 32) (hc : e.covers line) :
    e.Safe line column ↔ e.Reaches line column := by
  simp only [covers, Bool.and_eq_true, decide_eq_true_eq] at hc
  obtain ⟨⟨hl₁, hl₂⟩, hc₁, hc₂⟩ := hl
  unfold Reaches
  by_cases hfirst : line = e.first
  · have h0 : e.offset line = 0 := by simp [hfirst, offset, signed32]
    rw [if_pos hfirst, safe_iff_of_sameLine hv h0,
      ← survives_iff (by omega) (by omega) hc₂ (by omega) (by omega)]
    exact and_iff_right hl₁
  · have h0 : e.offset line ≠ 0 := fun h => by
      have := (signed32_eq_zero_iff (by omega)).1 h
      omega
    rw [if_neg hfirst, safe_iff_of_otherLine hv h0,
      ← survives_iff (by omega) (by omega) hl₂ (by omega) (by omega)]
    exact and_congr_left fun _ => one_le_columnOf_iff hcolumn

/-- On every line there is a column that cannot be looked up: the first that is too large for the sum, or for
the cast. -/
theorem exists_not_safe (line : Nat) : ∃ column < 2 ^ 32, ¬ e.Safe line column := by
  obtain ⟨-, hc₁, hc₂⟩ := hl
  by_cases h0 : e.offset line = 0
  · refine ⟨(2 ^ 31 - e.location.column).toNat, by omega, fun h => ?_⟩
    have hsum := ((safe_iff_of_sameLine hv h0).1 h).2.2
    rw [columnOf, (signed32_eq_iff _).2 (by omega)] at hsum
    omega
  · refine ⟨2 ^ 31, by omega, fun h => ?_⟩
    have hcolumn := (one_le_columnOf_iff (by omega)).1 ((safe_iff_of_otherLine hv h0).1 h).1
    omega

end

end LineMapEntry

namespace LineMap

variable {m : LineMap} {e : LineMapEntry} {line column : Nat}

/-- A look-up neither gives up nor gives a place that does not count from 1. -/
def Safe (m : LineMap) (line column : Nat) : Prop :=
  ∃ place, m.locate line column = .value place ∧ ∀ l ∈ place, l.Counted

theorem safe_of_uncovered (h : ∀ e ∈ m, ¬ e.covers line) (column : Nat) : m.Safe line column :=
  ⟨none, (locate_eq_none_iff column).2 h, by simp⟩

theorem safe_iff_of_covers (hm : m.Pairwise fun e e' => e.last < e'.first) (he : e ∈ m) (hc : e.covers line) :
    m.Safe line column ↔ e.Safe line column := by
  unfold Safe LineMapEntry.Safe
  rw [locate_of_covers hm he hc]
  cases e.locate line column with
  | aborted => simp [Outcome.map]
  | value l => simp [Outcome.map]

end LineMap

/-! ## Messages -/

namespace CompilerMessage

/-- The numbers of a message have 32 bits. -/
def Small (m : CompilerMessage) : Prop :=
  m.line < 2 ^ 32 ∧ m.column < 2 ^ 32

theorem number_lt {cs r : List Char} {n : Nat} (h : number cs = some (n, r)) : n < 2 ^ 32 := by
  obtain ⟨x, -, hx⟩ := Option.map_eq_some_iff.1 h
  obtain ⟨rfl, -⟩ := Prod.mk.inj hx
  split <;> omega

variable {cs : List Char} {m : CompilerMessage}

theorem small_parenthesized (h : parenthesized cs = some m) : m.Small := by
  simp only [parenthesized, Option.bind_eq_bind, Option.bind_eq_some_iff, Prod.exists] at h
  obtain ⟨_, r₁, -, line, r₂, hline, _, r₃, -, column, r₄, hcolumn, _, r₅, -, w, r₆, -, _, r₇, -, c, t, -, hm⟩ := h
  obtain rfl := Option.some.inj hm
  exact ⟨number_lt hline, number_lt hcolumn⟩

theorem small_separated (h : separated cs = some m) : m.Small := by
  simp only [separated, Option.bind_eq_bind, Option.bind_eq_some_iff, Prod.exists] at h
  obtain ⟨_, r₁, -, line, r₂, hline, _, r₃, -, column, r₄, hcolumn, _, r₅, -, w, r₆, -, c, t, -, hm⟩ := h
  obtain rfl := Option.some.inj hm
  exact ⟨number_lt hline, number_lt hcolumn⟩

theorem small_spaced (h : spaced cs = some m) : m.Small := by
  simp only [spaced, Option.bind_eq_bind, Option.bind_eq_some_iff, Prod.exists] at h
  obtain ⟨w, r₁, -, _, r₂, -, c, t, -, hm⟩ := h
  obtain rfl := Option.some.inj hm
  exact ⟨Nat.two_pow_pos 32, Nat.two_pow_pos 32⟩

theorem small_bracketed (h : bracketed cs = some m) : m.Small := by
  simp only [bracketed, Option.bind_eq_bind, Option.bind_eq_some_iff, Prod.exists] at h
  obtain ⟨w, r₁, -, c, t, -, hm⟩ := h
  obtain rfl := Option.some.inj hm
  exact ⟨Nat.two_pow_pos 32, Nat.two_pow_pos 32⟩

theorem Small.withFile (h : m.Small) (read : List Char) : (withFile read m).Small := h

theorem small_findLast (read : List Char) (h : findLast read cs = some m) : m.Small := by
  fun_induction findLast read cs with
  | case1 => cases h
  | case2 read c r later ih =>
    rcases (Option.orElse_eq_some ..).1 h with hlater | ⟨-, hhere⟩
    · obtain ⟨-, hlater⟩ := Option.ite_none_left_eq_some.1 hlater
      exact ih hlater
    · obtain ⟨m', hm', rfl⟩ := Option.map_eq_some_iff.1 hhere
      exact (small_parenthesized hm').withFile read

theorem small_findFirst (read : List Char) (h : findFirst read cs = some m) : m.Small := by
  fun_induction findFirst read cs with
  | case1 => cases h
  | case2 read c r here ih =>
    rcases (Option.orElse_eq_some ..).1 h with hhere | ⟨-, hlater⟩
    · obtain ⟨-, hhere⟩ := Option.ite_none_left_eq_some.1 hhere
      obtain ⟨m', hm', rfl⟩ := Option.map_eq_some_iff.1 hhere
      exact (small_separated hm').withFile read
    · obtain ⟨-, hlater⟩ := Option.ite_none_left_eq_some.1 hlater
      exact ih hlater

/-- A number of more than 32 bits is read as 0, so a message has none. -/
theorem small_ofLine? {line : String} (h : ofLine? line = some m) : m.Small := by
  obtain ⟨hfound, -⟩ := Option.filter_eq_some_iff.1 h
  rcases (Option.orElse_eq_some ..).1 hfound with hfound | ⟨-, hfound⟩
  · exact small_findLast [] hfound
  rcases (Option.orElse_eq_some ..).1 hfound with hfound | ⟨-, hfound⟩
  · exact small_findFirst [] hfound
  rcases (Option.orElse_eq_some ..).1 hfound with hfound | ⟨-, hfound⟩
  · exact small_spaced hfound
  · exact small_bracketed hfound

end CompilerMessage

namespace Engine

variable {source : Path} {unit : GeneratedUnit} {root : Option String} {m : CompilerMessage}

/-- A message in the unit's lines gets a place that counts from 1 just if its position is looked up so. -/
theorem told_counted_iff (h : concernsUnit m source) (hline : 0 < m.line) :
    (∃ d, ofCompilerMessage source unit root m = .value d ∧
      ((∃ e ∈ unit.lineMap, e.covers m.line) → ∃ l ∈ d.location, l.Counted)) ↔
    unit.lineMap.Safe m.line m.column := by
  cases he : entry? unit m with
  | none =>
    have hnone : ∀ e ∈ unit.lineMap, ¬ e.covers m.line := List.find?_eq_none.1 he
    refine iff_of_true ⟨_, ofCompilerMessage_unmapped h hline he, ?_⟩ (LineMap.safe_of_uncovered hnone _)
    rintro ⟨e, hmem, hc⟩
    exact absurd hc (hnone e hmem)
  | some e =>
    have hcovered : ∃ e ∈ unit.lineMap, e.covers m.line :=
      ⟨e, List.mem_of_find?_eq_some he, LineMap.covers_of_find he⟩
    unfold LineMap.Safe
    rw [locate_of_entry he]
    by_cases hrange : e.InRange m.line m.column
    · rw [ofCompilerMessage_moved h hline he hrange, LineMapEntry.locate_of_inRange hrange]
      simp [hcovered, told, Outcome.map, Location.counted_orIn_iff]
    · rw [ofCompilerMessage_aborted h hline he hrange, LineMapEntry.locate_of_not_inRange hrange]
      simp [Outcome.map]

end Engine

/-! ## Units -/

namespace GeneratedUnit

/-- Where a segment begins. -/
def beginning : Segment → Location
  | .text s => s.start
  | .directive d => d.start

/-- The places that a unit's line map is made from are those of a template. -/
structure Placed (input : UnitInput) : Prop where
  parameters : ∀ p ∈ input.settings.parameters, p.location.Ordinary
  segments : ∀ s ∈ input.template.segments, (beginning s).Ordinary

theorem location_of_segmentEmission? {code : DirectiveCode} {s : Segment × Nat} {m : Emission}
    (h : segmentEmission? code s = some m) : m.location = beginning s.1 := by
  obtain ⟨s, index⟩ := s
  cases s with
  | directive d =>
    obtain ⟨text, -, rfl⟩ := Option.map_eq_some_iff.1 h
    rfl
  | text s =>
    simp only [segmentEmission?] at h
    split at h <;> cases h <;> rfl

theorem Placed.emissions {input : UnitInput} (h : Placed input) :
    ∀ m ∈ transformEmissions input ++ helperEmissions input.template, m.location.Ordinary := by
  intro m hm
  rcases List.mem_append.1 hm with hm | hm
  · rcases List.mem_append.1 hm with hm | hm
    · obtain ⟨p, hp, rfl⟩ := List.mem_map.1 hm
      exact h.parameters p hp
    · obtain ⟨⟨s, index⟩, hs, hm⟩ := List.mem_filterMap.1 hm
      rw [location_of_segmentEmission? hm]
      exact h.segments s (List.fst_mem_of_mem_zipIdx hs)
  · obtain ⟨s, hs, rfl⟩ := List.mem_map.1 hm
    obtain ⟨x, hx, hxs⟩ := List.mem_filterMap.1 (List.mem_filter.1 hs).1
    cases x with
    | directive d => cases hxs
    | text s' =>
      obtain rfl := Option.some.inj hxs
      exact h.segments _ hx

variable {input : UnitInput} {u : GeneratedUnit} {inside after : LineMap} {n : Nat}

/-- A line map has the places of the unit's texts, in order. -/
theorem Agrees.locations (h : Agrees input u inside after n) : u.lineMap.map (·.location) =
    (transformEmissions input ++ helperEmissions input.template).map (·.location) := by
  have hshows : List.Forall₂ (Shows (rows u.source))
      (transformEmissions input ++ helperEmissions input.template) u.lineMap := by
    rw [h.split]
    exact List.rel_append h.transform h.helpers
  rw [← List.forall₂_eq_eq_eq, List.forall₂_map_left_iff, List.forall₂_map_right_iff]
  exact hshows.flip.imp fun _ _ hs => hs.location

theorem Placed.entries (h : Placed input) (ha : Agrees input u inside after n) :
    ∀ e ∈ u.lineMap, e.location.Ordinary := by
  intro e he
  have hmem : e.location ∈ u.lineMap.map (·.location) := List.mem_map_of_mem he
  rw [ha.locations] at hmem
  obtain ⟨m, hm, hl⟩ := List.mem_map.1 hmem
  exact hl ▸ h.emissions m hm

theorem Agrees.safe_iff (ha : Agrees input u inside after n) (hplaced : Placed input) {line column : Nat}
    (hline : line < 2 ^ 32) (hcolumn : column < 2 ^ 32) : u.lineMap.Safe line column ↔
      ∀ e ∈ u.lineMap, e.verbatim → e.covers line → e.Reaches line column := by
  have hordinary := hplaced.entries ha
  by_cases hcovered : ∃ e ∈ u.lineMap, e.covers line
  · obtain ⟨e, he, hc⟩ := hcovered
    have honly : ∀ e' ∈ u.lineMap, e'.covers line → e' = e := fun e' he' =>
      LineMap.eq_of_covers ha.ordered he he' hc
    rw [LineMap.safe_iff_of_covers ha.ordered he hc]
    by_cases hv : e.verbatim
    · rw [LineMapEntry.safe_iff_reaches hv (hordinary e he) hline hcolumn hc]
      exact ⟨fun hr e' he' _ hc' => honly e' he' hc' ▸ hr, fun hall => hall e he hv hc⟩
    · refine iff_of_true (LineMapEntry.safe_of_not_verbatim hv (hordinary e he).counted) ?_
      exact fun e' he' hv' hc' => absurd (honly e' he' hc' ▸ hv') hv
  · have hnone : ∀ e ∈ u.lineMap, ¬ e.covers line := fun e he hc => hcovered ⟨e, he, hc⟩
    exact iff_of_true (LineMap.safe_of_uncovered hnone column) fun e he _ hc => absurd hc (hnone e he)

theorem Agrees.exists_not_safe (ha : Agrees input u inside after n) (hplaced : Placed input) {e : LineMapEntry}
    (he : e ∈ u.lineMap) (hv : e.verbatim) {line : Nat} (hc : e.covers line) :
    ∃ column < 2 ^ 32, ¬ u.lineMap.Safe line column := by
  obtain ⟨column, hlt, hunsafe⟩ := LineMapEntry.exists_not_safe hv (hplaced.entries ha e he) line
  exact ⟨column, hlt, mt (LineMap.safe_iff_of_covers ha.ordered he hc).1 hunsafe⟩

/-- **Look-ups within 32 bits.** For a template with places of 32 bits, a look-up neither gives up nor gives a
place that does not count from 1 just if its position in the code reaches one; and on each line of code there is
a column of 32 bits that does not. Such are the numbers of a compiler's messages, and what a look-up does
decides on the place of their diagnostics. -/
theorem lookup_safe_iff {input : UnitInput} {kind : UnitKind} {u : GeneratedUnit}
    (h : generate input kind = .ok u) (hplaced : Placed input) :
    (∀ line column, line < 2 ^ 32 → column < 2 ^ 32 →
      (u.lineMap.Safe line column ↔
        ∀ e ∈ u.lineMap, e.verbatim → e.covers line → e.Reaches line column)) ∧
    (∀ e ∈ u.lineMap, e.verbatim → ∀ line, e.covers line →
      ∃ column < 2 ^ 32, ¬ u.lineMap.Safe line column) ∧
    ∀ text m, CompilerMessage.ofLine? text = some m → m.line < 2 ^ 32 ∧ m.column < 2 ^ 32 ∧
      ∀ source root, Engine.concernsUnit m source → 0 < m.line →
        ((∃ d, Engine.ofCompilerMessage source u root m = .value d ∧
            ((∃ e ∈ u.lineMap, e.covers m.line) → ∃ l ∈ d.location, l.Counted)) ↔
          ∀ e ∈ u.lineMap, e.verbatim → e.covers m.line → e.Reaches m.line m.column) := by
  obtain ⟨inside, after, n, ha⟩ := agrees_of_generate h
  refine ⟨fun line column => ha.safe_iff hplaced, fun e he hv line => ha.exists_not_safe hplaced he hv,
    fun text m hm => ?_⟩
  obtain ⟨hline, hcolumn⟩ := CompilerMessage.small_ofLine? hm
  refine ⟨hline, hcolumn, fun source root hconcerns hpos => ?_⟩
  rw [Engine.told_counted_iff hconcerns hpos]
  exact ha.safe_iff hplaced hline hcolumn

theorem placed_blockInput : Placed blockInput where
  parameters := by simp [blockInput]
  segments := by
    intro s hs
    obtain rfl := List.mem_singleton.1 hs
    exact ⟨by decide, by decide⟩

/-- The one line of a block has a column that cannot be looked up. -/
theorem lookup_safe_iff_blockInput : ∃ u e, generate blockInput .executable = .ok u ∧ Placed blockInput ∧
    u.lineMap = [e] ∧ e.covers e.first ∧ ∃ column < 2 ^ 32, ¬ u.lineMap.Safe e.first column := by
  obtain ⟨u, h⟩ := generate_executable blockInput
  have ha := agrees_of_generate h
  obtain ⟨e, hm, he⟩ := lineMap_blockInput ha
  obtain ⟨inside, after, line, ha⟩ := ha
  have hmem : e ∈ u.lineMap := by simp [hm]
  have hc : e.covers e.first := by simp [LineMapEntry.covers, (ha.bounds e hmem).2.1]
  exact ⟨u, e, h, placed_blockInput, hm, hc, (lookup_safe_iff h placed_blockInput).2.1 e hmem he.verbatim _ hc⟩

end GeneratedUnit

end Templating
