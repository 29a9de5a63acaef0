import Mathlib
import Templating.GeneratedUnit
import Templating.Proofs.Lines

/-!
# Written lines

The lines a writer has counted are the lines of its source, so every entry of a line map stands for
exactly the lines of the text it was made for (`generate_lineMap`). Entries never share a line, and
looking up a line finds the one entry it lies in.
-/

namespace Templating

/-! ## Looking up a line -/

theorem Location.fit_of_fits {n : Int} (h : -2 ^ 31 ≤ n ∧ n < 2 ^ 31) : Location.fit n = .value n :=
  if_pos h

theorem Location.fit_of_not_fits {n : Int} (h : ¬ (-2 ^ 31 ≤ n ∧ n < 2 ^ 31)) :
    Location.fit n = .aborted :=
  if_neg h

namespace LineMapEntry

/-- How far a line lies below the first line of an entry. -/
def offset (e : LineMapEntry) (line : Nat) : Int :=
  signed32 (line - e.first : Nat)

/-- A column counted from 1. -/
def columnOf (column : Nat) : Int :=
  signed32 (max column 1 : Nat)

def place (e : LineMapEntry) (line column : Nat) : Location :=
  if e.verbatim then
    if e.offset line = 0 then { e.location with column := e.location.column + columnOf column - 1 }
    else { e.location with line := e.location.line + e.offset line, column := columnOf column }
  else e.location

/-- The sums that a look-up forms have 32 bits. -/
def InRange (e : LineMapEntry) (line column : Nat) : Prop :=
  e.verbatim →
    (e.offset line = 0 → -2 ^ 31 < e.location.column + columnOf column ∧
      e.location.column + columnOf column < 2 ^ 31) ∧
    (e.offset line ≠ 0 → -2 ^ 31 ≤ e.location.line + e.offset line ∧
      e.location.line + e.offset line < 2 ^ 31)

theorem locate_eq (e : LineMapEntry) (line column : Nat) : e.locate line column =
    if e.verbatim then
      if e.offset line = 0 then
        (Location.fit (e.location.column + columnOf column)).bind fun sum =>
          (Location.fit (sum - 1)).bind fun c => .value { e.location with column := c }
      else
        (Location.fit (e.location.line + e.offset line)).bind fun l =>
          .value { e.location with line := l, column := columnOf column }
    else .value e.location := rfl

theorem locate_of_inRange {e : LineMapEntry} {line column : Nat} (h : e.InRange line column) :
    e.locate line column = .value (e.place line column) := by
  rw [locate_eq, place]
  by_cases hv : e.verbatim
  · obtain ⟨h₁, h₂⟩ := h hv
    rw [if_pos hv, if_pos hv]
    by_cases ho : e.offset line = 0
    · obtain ⟨hl, hu⟩ := h₁ ho
      rw [if_pos ho, if_pos ho, Location.fit_of_fits ⟨by omega, hu⟩, Outcome.bind,
        Location.fit_of_fits ⟨by omega, by omega⟩, Outcome.bind]
    · rw [if_neg ho, if_neg ho, Location.fit_of_fits (h₂ ho), Outcome.bind]
  · rw [if_neg hv, if_neg hv]

theorem locate_of_not_inRange {e : LineMapEntry} {line column : Nat} (h : ¬ e.InRange line column) :
    e.locate line column = .aborted := by
  rw [locate_eq]
  by_cases hv : e.verbatim
  · rw [if_pos hv]
    by_cases ho : e.offset line = 0
    · rw [if_pos ho]
      by_cases hs : -2 ^ 31 ≤ e.location.column + columnOf column ∧
          e.location.column + columnOf column < 2 ^ 31
      · have hlow : ¬ (-2 ^ 31 ≤ e.location.column + columnOf column - 1 ∧
            e.location.column + columnOf column - 1 < 2 ^ 31) := fun hr =>
          h fun _ => ⟨fun _ => ⟨by omega, hs.2⟩, fun hne => absurd ho hne⟩
        rw [Location.fit_of_fits hs, Outcome.bind, Location.fit_of_not_fits hlow, Outcome.bind]
      · rw [Location.fit_of_not_fits hs, Outcome.bind]
    · have hs : ¬ (-2 ^ 31 ≤ e.location.line + e.offset line ∧ e.location.line + e.offset line < 2 ^ 31) :=
        fun hr => h fun _ => ⟨fun h0 => absurd h0 ho, fun _ => hr⟩
      rw [if_neg ho, Location.fit_of_not_fits hs, Outcome.bind]
  · exact absurd (fun h' => absurd h' hv) h

end LineMapEntry

namespace LineMap

variable {m : LineMap} {e e' : LineMapEntry} {line : Nat}

theorem covers_of_find (h : m.find? (·.covers line) = some e) : e.covers line := by
  simpa using List.find?_some h

theorem locate_eq_none_iff (column : Nat) :
    m.locate line column = .value none ↔ ∀ e ∈ m, ¬ e.covers line := by
  unfold locate
  cases h : m.find? (·.covers line) with
  | none => exact iff_of_true rfl (List.find?_eq_none.1 h)
  | some e =>
    refine iff_of_false ?_ fun hall => hall e (List.mem_of_find?_eq_some h) ?_
    · show ¬ (e.locate line column).map some = .value none
      cases e.locate line column <;> simp [Outcome.map]
    · exact covers_of_find h

theorem eq_of_covers (hm : m.Pairwise fun e e' => e.last < e'.first) (he : e ∈ m) (he' : e' ∈ m)
    (hc : e.covers line) (hc' : e'.covers line) : e' = e := by
  simp only [LineMapEntry.covers, Bool.and_eq_true, decide_eq_true_eq] at hc hc'
  by_contra hne
  have hor : m.Pairwise fun e e' => e.last < e'.first ∨ e'.last < e.first := hm.imp .inl
  have : Std.Symm fun e e' : LineMapEntry => e.last < e'.first ∨ e'.last < e.first := ⟨fun _ _ => Or.symm⟩
  rcases hor.forall he he' (Ne.symm hne) with h | h <;> omega

theorem locate_of_covers (hm : m.Pairwise fun e e' => e.last < e'.first) (he : e ∈ m)
    (hc : e.covers line) (column : Nat) : m.locate line column = (e.locate line column).map some := by
  unfold locate
  cases h : m.find? (·.covers line) with
  | none => exact absurd hc (List.find?_eq_none.1 h e he)
  | some e' =>
    rw [eq_of_covers hm he (List.mem_of_find?_eq_some h) hc (covers_of_find h)]

end LineMap

namespace GeneratedUnit

def rows (text : String) : List (List Char) :=
  Text.pieces '\n' text.toList

theorem length_rows (text : String) : (rows text).length = Text.lineFeeds text + 1 :=
  Text.length_pieces '\n' text.toList

/-! ## What the writer writes -/

/-- The lines of a piece, a pragma first where it has one. -/
def Piece.rows (pragmas : Bool) : Piece → List (List Char)
  | .line text => GeneratedUnit.rows text
  | .mapped text l _ =>
    (if pragmas ∧ 1 ≤ l.line then GeneratedUnit.rows (pragma l) else []) ++
      GeneratedUnit.rows (withoutFinalLineFeed text)

/-- A writer that has written some lines and counted them. -/
structure Written.Holds (w : Written) (ls : List (List Char)) : Prop where
  source : ∀ more, Text.pieces '\n' (w.source.toList ++ more) = ls ++ Text.pieces '\n' more
  lines : w.lines = ls.length

theorem Written.Holds.line {w : Written} {ls : List (List Char)} (h : w.Holds ls) (text : String) :
    (w.line text).Holds (ls ++ rows text) where
  source := by
    intro more
    have hc : (w.line text).source.toList ++ more = w.source.toList ++ (text.toList ++ '\n' :: more) := by
      simp [Written.line]
    rw [hc, h.source, Text.pieces_append, List.append_assoc]
    rfl
  lines := by
    simp only [Written.line, List.length_append, length_rows, h.lines]
    omega

theorem Written.Holds.piece {w : Written} {ls : List (List Char)} (h : w.Holds ls) (pragmas : Bool)
    (p : Piece) : (w.piece pragmas p).Holds (ls ++ p.rows pragmas) := by
  cases p with
  | line text => exact h.line text
  | mapped text l verbatim =>
    have hmapped : ∀ {w : Written} {ls : List (List Char)}, w.Holds ls → ∀ m : LineMap,
        Written.Holds { w with lineMap := m } ls := fun h _ => ⟨h.source, h.lines⟩
    by_cases hp : pragmas ∧ 1 ≤ l.line
    · simp only [Written.piece, Piece.rows, if_pos hp]
      rw [← List.append_assoc]
      exact hmapped ((h.line (pragma l)).line (withoutFinalLineFeed text)) _
    · simp only [Written.piece, Piece.rows, if_neg hp]
      exact hmapped (h.line (withoutFinalLineFeed text)) _

theorem foldl_holds (pragmas : Bool) : ∀ (w : Written) (ls : List (List Char)) (ps : List Piece),
    w.Holds ls → (ps.foldl (Written.piece pragmas) w).Holds (ls ++ ps.flatMap (Piece.rows pragmas))
  | w, ls, [], h => by simpa using h
  | w, ls, p :: ps, h => by
    rw [List.flatMap_cons, ← List.append_assoc]
    exact foldl_holds pragmas _ _ ps (h.piece pragmas p)

theorem write_holds (pragmas : Bool) (ps : List Piece) :
    (write pragmas ps).Holds (ps.flatMap (Piece.rows pragmas)) :=
  foldl_holds pragmas {} [] ps ⟨fun _ => rfl, rfl⟩

/-- Behind the last line feed stands an empty line. -/
theorem rows_write (pragmas : Bool) (ps : List Piece) :
    rows (write pragmas ps).source = ps.flatMap (Piece.rows pragmas) ++ [[]] := by
  have := (write_holds pragmas ps).source []
  rwa [List.append_nil] at this

/-! ## What the line map holds -/

/-- A text that has an entry in the line map. -/
structure Emission where
  text : String
  location : Location
  verbatim : Bool

def Piece.emission? : Piece → Option Emission
  | .line _ => none
  | .mapped text l verbatim => some ⟨text, l, verbatim⟩

/-- The entries of pieces that are written after some number of lines. -/
def entries (pragmas : Bool) : Nat → List Piece → LineMap
  | _, [] => []
  | n, .line text :: ps => entries pragmas (n + (rows text).length) ps
  | n, .mapped text l verbatim :: ps =>
    let last := n + ((Piece.mapped text l verbatim).rows pragmas).length
    ⟨last + 1 - (rows (withoutFinalLineFeed text)).length, last, l, verbatim⟩ ::
      entries pragmas last ps

theorem entries_append (pragmas : Bool) : ∀ (n : Nat) (ps qs : List Piece),
    entries pragmas n (ps ++ qs) =
      entries pragmas n ps ++ entries pragmas (n + (ps.flatMap (Piece.rows pragmas)).length) qs
  | n, [], qs => by simp [entries]
  | n, .line text :: ps, qs => by
    simp only [List.cons_append, entries, entries_append pragmas _ ps qs, List.flatMap_cons,
      List.length_append, Nat.add_assoc]
    rfl
  | n, .mapped text l verbatim :: ps, qs => by
    simp only [List.cons_append, entries, entries_append pragmas _ ps qs, List.flatMap_cons,
      List.length_append, Nat.add_assoc]

theorem lines_piece (pragmas : Bool) (w : Written) (p : Piece) :
    (w.piece pragmas p).lines = w.lines + (p.rows pragmas).length := by
  cases p with
  | line text => simp [Written.piece, Written.line, Piece.rows, length_rows, Nat.add_assoc]
  | mapped text l verbatim =>
    by_cases hp : pragmas ∧ 1 ≤ l.line
    · simp only [Written.piece, Piece.rows, if_pos hp, Written.line, List.length_append, length_rows]
      omega
    · simp only [Written.piece, Piece.rows, if_neg hp, Written.line, List.nil_append, length_rows]
      omega

theorem lineMap_piece (pragmas : Bool) (w : Written) (p : Piece) :
    (w.piece pragmas p).lineMap = w.lineMap ++ entries pragmas w.lines [p] := by
  cases p with
  | line text => simp [Written.piece, Written.line, entries]
  | mapped text l verbatim =>
    have hl := lines_piece pragmas w (.mapped text l verbatim)
    simp only [Written.piece, entries] at hl ⊢
    rw [← hl]
    by_cases hp : pragmas ∧ 1 ≤ l.line
    · simp only [if_pos hp, Written.line, length_rows]
      congr 3
      omega
    · simp only [if_neg hp, Written.line, length_rows]
      congr 3
      omega

theorem lineMap_foldl (pragmas : Bool) : ∀ (w : Written) (ps : List Piece),
    (ps.foldl (Written.piece pragmas) w).lineMap = w.lineMap ++ entries pragmas w.lines ps
  | w, [] => by simp [entries]
  | w, p :: ps => by
    rw [List.foldl_cons, lineMap_foldl pragmas _ ps, lineMap_piece, lines_piece, List.append_assoc]
    have := entries_append pragmas w.lines [p] ps
    rw [List.flatMap_singleton] at this
    rw [← this]
    rfl

theorem write_lineMap (pragmas : Bool) (ps : List Piece) :
    (write pragmas ps).lineMap = entries pragmas 0 ps :=
  lineMap_foldl pragmas {} ps

/-! ## Entries and their lines -/

/-- An entry whose lines are the text it was made for, among the lines of a source. -/
structure Shows (ls : List (List Char)) (m : Emission) (e : LineMapEntry) : Prop where
  location : e.location = m.location
  verbatim : e.verbatim = m.verbatim
  text : ['\n'].intercalate ((ls.drop (e.first - 1)).take (e.last + 1 - e.first)) =
    (withoutFinalLineFeed m.text).toList

theorem withoutFinalLineFeed_cases (text : String) :
    text.toList = (withoutFinalLineFeed text).toList ∨
      text.toList = (withoutFinalLineFeed text).toList ++ ['\n'] := by
  unfold withoutFinalLineFeed
  split
  · rename_i r hr
    right
    rw [← List.reverse_reverse text.toList, hr]
    simp
  · exact .inl rfl

/-- A text stands in its source after the lines before its entry, and on no more lines than those of
its entry. -/
theorem Shows.written {source : String} {m : Emission} {e : LineMapEntry} (h : Shows (rows source) m e)
    (hfirst : 1 ≤ e.first) (hle : e.first ≤ e.last) (hlast : e.last ≤ Text.lineFeeds source) :
    (∃ back, source.toList = Text.unlines ((rows source).take (e.first - 1)) ++ m.text.toList ++ back) ∧
      ∀ i < m.text.toList.length, e.first + (m.text.toList.take i).count '\n' ≤ e.last := by
  -- the lines of the source before the entry, its own, and those behind it, of which there is at
  -- least the empty one after the last line feed
  let before := (rows source).take (e.first - 1)
  let own := ((rows source).drop (e.first - 1)).take (e.last + 1 - e.first)
  let behind := ((rows source).drop (e.first - 1)).drop (e.last + 1 - e.first)
  have hlen := length_rows source
  have hown : own.length = e.last + 1 - e.first := by
    simp only [own, List.length_take, List.length_drop]
    omega
  have hbehind : behind ≠ [] := by
    intro hnil
    have := congrArg List.length hnil
    simp only [behind, List.length_drop, List.length_nil] at this
    omega
  have hne : own ≠ [] := by
    intro hnil
    rw [hnil, List.length_nil] at hown
    omega
  have hsplit : rows source = before ++ (own ++ behind) := by
    simp only [before, own, behind, List.take_append_drop]
  have htext : Text.unlines own = (withoutFinalLineFeed m.text).toList ++ ['\n'] := by
    rw [Text.unlines_eq_intercalate hne, h.text]
  have hsource : source.toList = Text.unlines before ++ (Text.unlines own ++ ['\n'].intercalate behind) := by
    rw [← Text.intercalate_append own hbehind, ← Text.intercalate_append before (by simp [hbehind]), ← hsplit]
    exact (Text.intercalate_pieces '\n' source.toList).symm
  have hcount : (withoutFinalLineFeed m.text).toList.count '\n' + 1 = own.length := by
    have hfree : ∀ l ∈ own, '\n' ∉ l := fun l hl =>
      Text.not_mem_of_mem_pieces (List.mem_of_mem_drop (List.mem_of_mem_take hl))
    have := Text.count_unlines hfree
    rw [htext, List.count_append] at this
    exact this
  rcases withoutFinalLineFeed_cases m.text with ht | ht
  · refine ⟨⟨'\n' :: ['\n'].intercalate behind, ?_⟩, fun i _ => ?_⟩
    · rw [hsource, htext, ht]
      simp [before]
    · have := (List.take_sublist i m.text.toList).count_le '\n'
      rw [← ht] at hcount
      omega
  · refine ⟨⟨['\n'].intercalate behind, ?_⟩, fun i hi => ?_⟩
    · rw [hsource, htext, ht]
      simp [before]
    · rw [ht, List.length_append, List.length_singleton] at hi
      rw [ht, List.take_append_of_le_length (by omega)]
      have := (List.take_sublist i (withoutFinalLineFeed m.text).toList).count_le '\n'
      omega

theorem shows_mapped (before pre after : List (List Char)) (text : String) (l : Location)
    (verbatim : Bool) :
    Shows (before ++ (pre ++ rows (withoutFinalLineFeed text)) ++ after) ⟨text, l, verbatim⟩
      ⟨before.length + (pre ++ rows (withoutFinalLineFeed text)).length + 1 -
          (rows (withoutFinalLineFeed text)).length,
        before.length + (pre ++ rows (withoutFinalLineFeed text)).length, l, verbatim⟩ where
  location := rfl
  verbatim := rfl
  text := by
    have hpos : 0 < (rows (withoutFinalLineFeed text)).length := by rw [length_rows]; omega
    have hsplit : before ++ (pre ++ rows (withoutFinalLineFeed text)) ++ after =
        (before ++ pre) ++ (rows (withoutFinalLineFeed text) ++ after) := by simp
    have hfirst : before.length + (pre ++ rows (withoutFinalLineFeed text)).length + 1 -
        (rows (withoutFinalLineFeed text)).length - 1 = (before ++ pre).length := by
      simp only [List.length_append]
      omega
    have hcount : before.length + (pre ++ rows (withoutFinalLineFeed text)).length + 1 -
        (before.length + (pre ++ rows (withoutFinalLineFeed text)).length + 1 -
          (rows (withoutFinalLineFeed text)).length) = (rows (withoutFinalLineFeed text)).length := by
      simp only [List.length_append]
      omega
    simp only [hsplit, hfirst, hcount, List.drop_left, List.take_left]
    exact Text.intercalate_pieces '\n' _

theorem shows_entries (pragmas : Bool) (after : List (List Char)) :
    ∀ (before : List (List Char)) (ps : List Piece),
      List.Forall₂ (Shows (before ++ ps.flatMap (Piece.rows pragmas) ++ after))
        (ps.filterMap Piece.emission?) (entries pragmas before.length ps)
  | before, [] => .nil
  | before, p :: ps => by
    have ih := shows_entries pragmas after (before ++ p.rows pragmas) ps
    rw [List.length_append, List.append_assoc before, ← List.flatMap_cons] at ih
    cases p with
    | line text => exact ih
    | mapped text l verbatim =>
      refine .cons ?_ ih
      rw [List.flatMap_cons, ← List.append_assoc before, List.append_assoc (before ++ _)]
      exact shows_mapped before _ _ text l verbatim

theorem entries_bounds (pragmas : Bool) : ∀ (n : Nat) (ps : List Piece), ∀ e ∈ entries pragmas n ps,
    n < e.first ∧ e.first ≤ e.last ∧ e.last ≤ n + (ps.flatMap (Piece.rows pragmas)).length
  | n, [], e, he => by cases he
  | n, .line text :: ps, e, he => by
    obtain ⟨h₁, h₂, h₃⟩ := entries_bounds pragmas _ ps e he
    have hl : ((Piece.line text).rows pragmas).length = (rows text).length := rfl
    rw [List.flatMap_cons, List.length_append, hl]
    omega
  | n, .mapped text l verbatim :: ps, e, he => by
    rw [List.flatMap_cons, List.length_append]
    rcases List.mem_cons.1 he with rfl | he
    · have hpos : 0 < (rows (withoutFinalLineFeed text)).length := by rw [length_rows]; omega
      simp only [Piece.rows, List.length_append]
      omega
    · obtain ⟨h₁, h₂, h₃⟩ := entries_bounds pragmas _ ps e he
      omega

theorem entries_pairwise (pragmas : Bool) : ∀ (n : Nat) (ps : List Piece),
    (entries pragmas n ps).Pairwise fun e e' => e.last < e'.first
  | _, [] => .nil
  | _, .line _ :: ps => entries_pairwise pragmas _ ps
  | _, .mapped _ _ _ :: ps =>
    .cons (fun e he => (entries_bounds pragmas _ ps e he).1) (entries_pairwise pragmas _ ps)

/-! ## The texts of a unit -/

def parameterEmission (p : Parameter) : Emission where
  text := "let " ++ p.name ++ ": " ++ p.type ++ " = self.base.parameter_or_default::<" ++ p.type ++ ">(" ++
    Text.quote p.name ++ ");"
  location := p.location
  verbatim := false

/-- The code of the processors for one occurrence of a directive, unless it is blank. -/
def occurrence? (code : DirectiveCode) (index : Nat) : Option String :=
  ((code.occurrences.find? (·.1 == index)).map (·.2)).filter (!isBlankText ·)

/-- What stands for a segment at its index. Helpers have their place elsewhere. -/
def segmentEmission? (code : DirectiveCode) : Segment × Nat → Option Emission
  | (.directive d, index) => (occurrence? code index).map fun text => ⟨text, d.start, false⟩
  | (.text s, _) =>
    match s.kind with
    | .content => some ⟨"self.base.write(" ++ Text.quote s.text ++ ");", s.start, false⟩
    | .expression | .block => some ⟨s.text, s.start, true⟩
    | .helper => none

def helperEmission (s : TextSegment) : Emission :=
  ⟨s.text, s.start, true⟩

/-- The texts inside the transformation, in order. -/
def transformEmissions (input : UnitInput) : List Emission :=
  input.settings.parameters.map parameterEmission ++
    input.template.segments.zipIdx.filterMap (segmentEmission? input.code)

def helperEmissions (t : Template) : List Emission :=
  (t.texts.filter (·.kind == .helper)).map helperEmission

/-- The line after which only helpers have entries. -/
def takeLine : String := "        self.base.take_generated_text()"

theorem emission?_segmentPieces (code : DirectiveCode) (s : Segment × Nat) :
    (segmentPieces code s).filterMap Piece.emission? = (segmentEmission? code s).toList := by
  obtain ⟨s, index⟩ := s
  cases s with
  | text s =>
    simp only [segmentPieces, textPieces, segmentEmission?]
    cases s.kind <;> rfl
  | directive d =>
    simp only [segmentPieces, segmentEmission?, occurrence?]
    cases code.occurrences.find? (·.1 == index) with
    | none => rfl
    | some p =>
      by_cases h : isBlankText p.2 <;> simp [h, Piece.emission?, Option.filter]

theorem emission?_parameters (ps : List Parameter) :
    (ps.map parameterPiece).filterMap Piece.emission? = ps.map parameterEmission := by
  rw [List.filterMap_map, ← List.filterMap_eq_map]
  rfl

theorem emission?_segments (code : DirectiveCode) (ss : List (Segment × Nat)) :
    (ss.flatMap (segmentPieces code)).filterMap Piece.emission? = ss.filterMap (segmentEmission? code) := by
  rw [List.filterMap_flatMap]
  simp only [emission?_segmentPieces]
  exact (List.filterMap_eq_flatMap_toList _ _).symm

theorem emission?_helperPieces (className : String) (t : Template) :
    (helperPieces className t).filterMap Piece.emission? = helperEmissions t := by
  unfold helperPieces helperEmissions
  by_cases h : (t.texts.filter (·.kind == .helper)).isEmpty
  · simp [List.isEmpty_iff.1 h]
  · simp only [if_neg h]
    rw [List.filterMap_append, List.filterMap_cons, List.filterMap_map, ← List.filterMap_eq_map]
    exact List.append_nil _

theorem emission?_lines {α : Type} (f : α → String) (xs : List α) :
    (xs.map fun x => Piece.line (f x)).filterMap Piece.emission? = [] := by
  rw [List.filterMap_eq_nil_iff]
  intro p hp
  obtain ⟨x, -, rfl⟩ := List.mem_map.1 hp
  rfl

theorem emission?_chunkPieces (chunk : String) : (chunkPieces chunk).filterMap Piece.emission? = [] := by
  unfold chunkPieces
  split <;> rfl

theorem emission?_headPieces (kind : UnitKind) (visibility : String) (modules : List String)
    (input : UnitInput) : (headPieces kind visibility modules input).filterMap Piece.emission? = [] := by
  unfold headPieces
  simp only [List.filterMap_append, emission?_lines, List.append_eq_nil_iff]
  refine ⟨⟨⟨⟨⟨rfl, ?_⟩, trivial⟩, rfl⟩, emission?_lines _ _⟩, rfl⟩
  split <;> rfl

theorem emission?_structPieces (className visibility : String) (input : UnitInput) :
    (structPieces className visibility input).filterMap Piece.emission? = [] := by
  unfold structPieces
  simp only [List.filterMap_append, List.append_eq_nil_iff]
  refine ⟨⟨rfl, ?_⟩, rfl⟩
  split
  · exact emission?_lines _ _
  · rfl

theorem emission?_tailPieces (kind : UnitKind) (className : String) (modules : List String) :
    (tailPieces kind className modules).filterMap Piece.emission? = [] := by
  unfold tailPieces
  rw [List.filterMap_append, emission?_lines, List.append_nil]
  split <;> rfl

def transformOpening : String := "    fn transform_text(&mut self) -> String \x7b"

/-- What stands between the opening of the transformation and its end. -/
def transformBody (input : UnitInput) : List Piece :=
  input.settings.parameters.map parameterPiece ++
    input.template.segments.zipIdx.flatMap (segmentPieces input.code)

theorem emission?_transformBody (input : UnitInput) :
    (transformBody input).filterMap Piece.emission? = transformEmissions input := by
  rw [transformBody, List.filterMap_append, emission?_parameters, emission?_segments]
  rfl

theorem transformPieces_split (className : String) (input : UnitInput) :
    ∃ start final, transformPieces className input =
        start ++ .line transformOpening :: (transformBody input ++ .line takeLine :: final) ∧
      start.filterMap Piece.emission? = [] ∧ final.filterMap Piece.emission? = [] := by
  let opening : List Piece :=
    [.line ("impl " ++ runtimeModule ++ "::TextTemplate for " ++ className ++ " \x7b"),
      .line ("    fn transformation(&mut self) -> &mut " ++ runtimeModule ++ "::TextTransformation \x7b"),
      .line "        &mut self.base",
      .line "    \x7d",
      .line "",
      .line "    fn initialize(&mut self) \x7b"]
  let middle : List Piece := [.line "    \x7d", .line ""]
  let start := opening ++ chunkPieces input.code.preInitialization ++
    chunkPieces input.code.postInitialization ++ middle
  refine ⟨start, [.line "    \x7d", .line "\x7d", .line ""], ?_, ?_, rfl⟩
  · simp only [transformPieces, start, opening, middle, transformOpening, transformBody, takeLine,
      List.append_assoc, List.cons_append, List.nil_append]
  · simp only [start, List.filterMap_append, emission?_chunkPieces, List.append_nil]
    rfl

/-- The transformation in a unit: its opening, its body and its end, each in one place. -/
theorem pieces_transform (input : UnitInput) (kind : UnitKind) (className : String) (modules : List String) :
    ∃ before after, pieces input kind className modules =
        before ++ .line transformOpening :: (transformBody input ++ .line takeLine :: after) ∧
      before.filterMap Piece.emission? = [] ∧
      after.filterMap Piece.emission? = helperEmissions input.template := by
  let vis := visibility kind input.settings
  obtain ⟨start, final, ht, hstart, hfinal⟩ := transformPieces_split className input
  refine ⟨headPieces kind vis modules input ++ structPieces className vis input ++ start,
    final ++ helperPieces className input.template ++ tailPieces kind className modules, ?_, ?_, ?_⟩
  · unfold pieces
    rw [ht]
    simp only [vis, List.append_assoc, List.cons_append]
  · simp only [List.filterMap_append, emission?_headPieces, emission?_structPieces, hstart, List.nil_append]
  · simp only [List.filterMap_append, emission?_helperPieces, emission?_tailPieces, hfinal, List.append_nil,
      List.nil_append]

theorem pieces_split (input : UnitInput) (kind : UnitKind) (className : String) (modules : List String) :
    ∃ before after, pieces input kind className modules = before ++ .line takeLine :: after ∧
      before.filterMap Piece.emission? = transformEmissions input ∧
      after.filterMap Piece.emission? = helperEmissions input.template := by
  obtain ⟨before, after, hp, hbefore, hafter⟩ := pieces_transform input kind className modules
  refine ⟨before ++ .line transformOpening :: transformBody input, after, ?_, ?_, hafter⟩
  · rw [hp, List.append_assoc, List.cons_append]
  · rw [List.filterMap_append, hbefore, List.nil_append, List.filterMap_cons_none rfl,
      emission?_transformBody]

theorem rows_takeLine : rows takeLine = [takeLine.toList] := by
  decide

theorem generate_eq {input : UnitInput} {kind : UnitKind} {u : GeneratedUnit}
    (h : generate input kind = .ok u) : ∃ className modules,
      u.source = (write input.settings.linePragmas (pieces input kind className modules)).source ∧
      u.lineMap = (write input.settings.linePragmas (pieces input kind className modules)).lineMap := by
  unfold generate at h
  split at h
  · cases h
  · rename_i className modules _
    split at h
    · cases h
      exact ⟨className, modules, rfl, rfl⟩
    · cases h

/-- The entries of a unit's line map: those inside the transformation, then those of the helpers,
after a line of its own. -/
structure Agrees (input : UnitInput) (u : GeneratedUnit) (inside after : LineMap) (line : Nat) : Prop where
  bounds : ∀ e ∈ u.lineMap, 1 ≤ e.first ∧ e.first ≤ e.last ∧ e.last ≤ Text.lineFeeds u.source
  ordered : u.lineMap.Pairwise fun e e' => e.last < e'.first
  split : u.lineMap = inside ++ after
  transform : List.Forall₂ (Shows (rows u.source)) (transformEmissions input) inside
  helpers : List.Forall₂ (Shows (rows u.source)) (helperEmissions input.template) after
  take : (rows u.source)[line - 1]? = some takeLine.toList
  before : ∀ e ∈ inside, e.last < line
  behind : ∀ e ∈ after, line < e.first

theorem agrees_of_generate {input : UnitInput} {kind : UnitKind} {u : GeneratedUnit}
    (h : generate input kind = .ok u) : ∃ inside after line, Agrees input u inside after line := by
  obtain ⟨className, modules, hsource, hmap⟩ := generate_eq h
  obtain ⟨before, after, hps, hbefore, hafter⟩ := pieces_split input kind className modules
  let pragmas := input.settings.linePragmas
  let top := before.flatMap (Piece.rows pragmas)
  let bottom := after.flatMap (Piece.rows pragmas)
  have hrows : rows u.source = top ++ [takeLine.toList] ++ bottom ++ [[]] := by
    rw [hsource, rows_write, hps, List.flatMap_append, List.flatMap_cons]
    simp only [Piece.rows, rows_takeLine, List.append_assoc]
    rfl
  have hfeeds : Text.lineFeeds u.source = top.length + 1 + bottom.length := by
    have := length_rows u.source
    rw [hrows] at this
    simp only [List.length_append, List.length_singleton] at this
    omega
  have hsplit : u.lineMap = entries pragmas 0 before ++ entries pragmas (top.length + 1) after := by
    rw [hmap, write_lineMap, hps, entries_append, Nat.zero_add, entries, rows_takeLine]
    rfl
  have hinside : ∀ e ∈ entries pragmas 0 before, 0 < e.first ∧ e.first ≤ e.last ∧ e.last ≤ 0 + top.length :=
    entries_bounds pragmas 0 before
  have houtside : ∀ e ∈ entries pragmas (top.length + 1) after,
      top.length + 1 < e.first ∧ e.first ≤ e.last ∧ e.last ≤ top.length + 1 + bottom.length :=
    entries_bounds pragmas (top.length + 1) after
  refine ⟨_, _, top.length + 1, ⟨fun e he => ?_, ?_, hsplit, ?_, ?_, ?_, ?_, ?_⟩⟩
  · rw [hsplit] at he
    rcases List.mem_append.1 he with he | he
    · obtain ⟨h₁, h₂, h₃⟩ := hinside e he
      exact ⟨h₁, h₂, by omega⟩
    · obtain ⟨h₁, h₂, h₃⟩ := houtside e he
      exact ⟨by omega, h₂, by omega⟩
  · rw [hmap, write_lineMap]
    exact entries_pairwise _ _ _
  · rw [← hbefore, hrows, List.append_assoc, List.append_assoc]
    exact shows_entries pragmas _ [] before
  · rw [← hafter, hrows]
    have := shows_entries pragmas [[]] (top ++ [takeLine.toList]) after
    rw [List.length_append] at this
    exact this
  · rw [hrows]
    simp
  · intro e he
    have := (hinside e he).2.2
    omega
  · exact fun e he => (houtside e he).1

/-- **Line maps agree with sources.** The entries are those of the unit's texts, in order and with
the lines of each; no two share a line. A line outside all entries is nowhere in the template. A line
inside an entry has its place there, as far as the place has 32-bit numbers. -/
theorem generate_lineMap {input : UnitInput} {kind : UnitKind} {u : GeneratedUnit}
    (h : generate input kind = .ok u) :
    (∃ inside after line, Agrees input u inside after line) ∧
    ∀ line column,
      (u.lineMap.locate line column = .value none ↔ ∀ e ∈ u.lineMap, ¬ e.covers line) ∧
      ∀ e ∈ u.lineMap, e.covers line → (∀ e' ∈ u.lineMap, e'.covers line → e' = e) ∧
        (e.InRange line column → u.lineMap.locate line column = .value (some (e.place line column))) ∧
        (¬ e.InRange line column → u.lineMap.locate line column = .aborted) := by
  obtain ⟨inside, after, n, ha⟩ := agrees_of_generate h
  refine ⟨⟨inside, after, n, ha⟩, fun line column => ⟨LineMap.locate_eq_none_iff column, fun e he hc =>
    ⟨fun e' he' hc' => LineMap.eq_of_covers ha.ordered he he' hc hc', fun hr => ?_, fun hr => ?_⟩⟩⟩
  · rw [LineMap.locate_of_covers ha.ordered he hc, LineMapEntry.locate_of_inRange hr]
    rfl
  · rw [LineMap.locate_of_covers ha.ordered he hc, LineMapEntry.locate_of_not_inRange hr]
    rfl

theorem generate_executable (input : UnitInput) : ∃ u, generate input .executable = .ok u := by
  have hv : Identifier.isValid defaultClassName = true := by decide
  simp [generate, names, hv]

/-! ## A unit with one block -/

def blockInput : UnitInput where
  template := { root := none, segments := [.text ⟨.block, "a", ⟨none, 1, 3⟩, ⟨none, 1, 1⟩, ⟨none, 1, 6⟩⟩] }
  settings := {}
  code := {}
  imports := []
  templateFile := none

theorem lineMap_blockInput {u : GeneratedUnit} (h : ∃ inside after line, Agrees blockInput u inside after line) :
    ∃ e, u.lineMap = [e] ∧ Shows (rows u.source) ⟨"a", ⟨none, 1, 3⟩, true⟩ e := by
  obtain ⟨inside, after, line, ha⟩ := h
  have ht := ha.transform
  have hh := ha.helpers
  rw [show transformEmissions blockInput = [⟨"a", ⟨none, 1, 3⟩, true⟩] from rfl] at ht
  rw [show helperEmissions blockInput.template = [] from rfl] at hh
  obtain ⟨e, inside, he, hnil, rfl⟩ := List.forall₂_cons_left_iff.1 ht
  obtain rfl := List.forall₂_nil_left_iff.1 hnil
  obtain rfl := List.forall₂_nil_left_iff.1 hh
  exact ⟨e, ha.split, he⟩

/-- The line of the block lies in one entry, and still the last column has no place. -/
theorem generate_lineMap_blockInput : ∃ u e, generate blockInput .executable = .ok u ∧
    u.lineMap = [e] ∧ Shows (rows u.source) ⟨"a", ⟨none, 1, 3⟩, true⟩ e ∧
    e.covers e.first ∧ u.lineMap.locate e.first (2 ^ 31 - 1) = .aborted := by
  obtain ⟨u, h⟩ := generate_executable blockInput
  obtain ⟨hagrees, hlookup⟩ := generate_lineMap h
  obtain ⟨e, hm, he⟩ := lineMap_blockInput hagrees
  obtain ⟨inside, after, line, ha⟩ := hagrees
  have hmem : e ∈ u.lineMap := by simp [hm]
  have hc : e.covers e.first := by simp [LineMapEntry.covers, (ha.bounds e hmem).2.1]
  have hr : ¬ e.InRange e.first (2 ^ 31 - 1) := by
    intro hr
    obtain ⟨h0, -⟩ := hr he.verbatim
    have hl : e.location.column = 3 := by rw [he.location]
    have hcol : LineMapEntry.columnOf (2 ^ 31 - 1) = 2 ^ 31 - 1 := by decide
    have := (h0 (by simp [LineMapEntry.offset, signed32])).2
    rw [hl, hcol] at this
    omega
  exact ⟨u, e, h, hm, he, hc, ((hlookup e.first (2 ^ 31 - 1)).2 e hmem hc).2.2 hr⟩

end GeneratedUnit

end Templating
