import Mathlib
import Templating.Proofs.Quoting
import Templating.Proofs.Writing

/-!
# Variants of a unit

Line pragmas and the kind of a unit change what stands around the code of a template and nothing in it:
a unit without pragmas is the one with them less a line before each of their entries, and a module has
the entries of an executable unit some lines further on (`generate_variants`).
-/

namespace Templating

/-! ## Text on one line -/

theorem Text.lineFeeds_append (a b : String) : lineFeeds (a ++ b) = lineFeeds a + lineFeeds b := by
  simp [lineFeeds]

theorem Text.lineFeeds_of_not_mem {text : String} (h : '\n' ∉ text.toList) : lineFeeds text = 0 := by
  simpa [lineFeeds, List.count_eq_zero] using h

theorem Text.newline_not_mem_quote (s : String) : '\n' ∉ (quote s).toList :=
  fun h => absurd (isPrintable_of_mem_quote h) (by decide)

theorem Text.newline_not_mem_repr (n : Int) : '\n' ∉ n.repr.toList := by
  have hdigits : ∀ n, '\n' ∉ Nat.toDigits 10 n := fun _ h =>
    absurd (Nat.isDigit_of_mem_toDigits (by decide) (by decide) h) (by decide)
  rw [Int.repr_eq_if]
  split <;> simp [hdigits]

theorem Identifier.newline_not_mem {name : String} (h : isValid name) : '\n' ∉ name.toList := by
  unfold isValid at h
  split at h
  · cases h
  · rename_i c r hname
    simp only [Bool.and_eq_true, List.all_eq_true] at h
    rw [hname, List.mem_cons, not_or]
    constructor
    · rintro rfl
      exact absurd h.1.1 (by decide)
    · intro hmem
      exact absurd (h.1.2 _ hmem) (by decide)

namespace GeneratedUnit

theorem rows_of_not_mem {text : String} (h : '\n' ∉ text.toList) : rows text = [text.toList] :=
  Text.pieces_of_not_mem h

theorem rows_pragma (l : Location) : rows (pragma l) = [(pragma l).toList] := by
  apply rows_of_not_mem
  simp [pragma, Text.newline_not_mem_repr, Text.newline_not_mem_quote]

end GeneratedUnit

/-! ## Entries elsewhere -/

namespace LineMapEntry

/-- How many lines an entry's pragma takes. -/
def pragmas (e : LineMapEntry) : Nat :=
  if 1 ≤ e.location.line then 1 else 0

def up (n : Nat) (e : LineMapEntry) : LineMapEntry :=
  { e with first := e.first - n, last := e.last - n }

def down (n : Nat) (e : LineMapEntry) : LineMapEntry :=
  { e with first := e.first + n, last := e.last + n }

/-- The line before an entry is its pragma. -/
def hasPragmaAt (line : Nat) (e : LineMapEntry) : Bool :=
  1 ≤ e.location.line && e.first == line + 1

end LineMapEntry

namespace LineMap

/-- The entries of a unit without pragmas. Each moves up by all pragmas down to its own, of which `n` stand
above the first of these entries. -/
def withoutPragmas (n : Nat) : LineMap → LineMap
  | [] => []
  | e :: m => e.up (n + e.pragmas) :: withoutPragmas (n + e.pragmas) m

end LineMap

namespace GeneratedUnit

/-! ## Units without pragmas -/

/-- The lines of a text, counted from some number, less those that are dropped. -/
def keptLines (dropped : Nat → Bool) (first : Nat) (lines : List (List Char)) : List (List Char) :=
  ((lines.zipIdx first).filter fun x => !dropped x.2).map (·.1)

section
variable {dropped : Nat → Bool} {first : Nat} {l : List Char} {ls ls' : List (List Char)}

theorem keptLines_append :
    keptLines dropped first (ls ++ ls') =
      keptLines dropped first ls ++ keptLines dropped (first + ls.length) ls' := by
  simp [keptLines, List.zipIdx_append]

theorem keptLines_of_not_dropped (h : ∀ k, first ≤ k → k < first + ls.length → ¬ dropped k) :
    keptLines dropped first ls = ls := by
  unfold keptLines
  rw [List.filter_eq_self.2, List.zipIdx_map_fst]
  intro x hx
  have := List.mem_zipIdx hx
  simpa using h x.2 this.1 this.2.1

theorem keptLines_dropped (h : dropped first) : keptLines dropped first [l] = [] := by
  simp [keptLines, h]

end

theorem length_rows_mapped (pragmas : Bool) (text : String) (l : Location) (verbatim : Bool) :
    ((Piece.mapped text l verbatim).rows pragmas).length =
      (if pragmas ∧ 1 ≤ l.line then 1 else 0) + (rows (withoutFinalLineFeed text)).length := by
  by_cases h : pragmas ∧ 1 ≤ l.line
  · simp [Piece.rows, h, rows_pragma, Nat.add_comm]
  · simp [Piece.rows, h]

theorem entries_withoutPragmas : ∀ (ps : List Piece) (n k : Nat),
    entries false n ps = LineMap.withoutPragmas k (entries true (n + k) ps)
  | [], _, _ => rfl
  | .line text :: ps, n, k => by
    have ih := entries_withoutPragmas ps (n + (rows text).length) k
    rw [Nat.add_right_comm] at ih
    exact ih
  | .mapped text l verbatim :: ps, n, k => by
    have hpos : 0 < (rows (withoutFinalLineFeed text)).length := by rw [length_rows]; omega
    simp only [entries, length_rows_mapped, LineMap.withoutPragmas, LineMapEntry.pragmas,
      LineMapEntry.up, Bool.false_eq_true, false_and, if_false, true_and, Nat.zero_add]
    generalize (rows (withoutFinalLineFeed text)).length = r at hpos
    -- the pragma stands above the text here, so all entries behind it move up by one more
    have ih := entries_withoutPragmas ps (n + r) (k + if 1 ≤ l.line then 1 else 0)
    have hline : n + r + (k + if 1 ≤ l.line then 1 else 0) =
        n + k + ((if 1 ≤ l.line then 1 else 0) + r) := by omega
    rw [hline] at ih
    rw [ih]
    congr 2 <;> omega

/-- Where lines with pragmas are: only the line right after those before a text can be its pragma. -/
theorem any_hasPragmaAt_mapped (n line : Nat) (text : String) (l : Location) (verbatim : Bool)
    (ps : List Piece) :
    (entries true n (.mapped text l verbatim :: ps)).any (LineMapEntry.hasPragmaAt line) ↔
      (1 ≤ l.line ∧ line = n + 1) ∨
        (entries true (n + ((Piece.mapped text l verbatim).rows true).length) ps).any
          (LineMapEntry.hasPragmaAt line) := by
  rw [entries, List.any_cons, Bool.or_eq_true]
  apply or_congr_left
  simp only [LineMapEntry.hasPragmaAt, length_rows_mapped, Bool.and_eq_true, decide_eq_true_eq, beq_iff_eq]
  apply and_congr_right
  intro hl
  simp only [hl, and_self, if_true]
  omega

/-- A pragma stands below all lines that are written before it. -/
theorem not_hasPragmaAt {n line : Nat} (h : line ≤ n) (ps : List Piece) :
    ¬ (entries true n ps).any (LineMapEntry.hasPragmaAt line) := by
  induction ps generalizing n with
  | nil => exact Bool.false_ne_true
  | cons p ps ih =>
    cases p with
    | line text => exact ih (Nat.le_add_right_of_le h)
    | mapped text l verbatim =>
      rw [any_hasPragmaAt_mapped, not_or]
      exact ⟨fun hl => by omega, ih (Nat.le_add_right_of_le h)⟩

/-- Without the lines of the pragmas, a text is what is written without pragmas. -/
theorem keptLines_entries {dropped : Nat → Bool} : ∀ (ps : List Piece) (n : Nat),
    (∀ line, n < line → (dropped line ↔ (entries true n ps).any (LineMapEntry.hasPragmaAt line))) →
    keptLines dropped (n + 1) (ps.flatMap (Piece.rows true)) = ps.flatMap (Piece.rows false)
  | [], _, _ => rfl
  | .line text :: ps, n, h => by
    have ih := keptLines_entries ps (n + (rows text).length) fun line hline => h line (by omega)
    have hkept : keptLines dropped (n + 1) (rows text) = rows text := by
      apply keptLines_of_not_dropped
      intro k hk hle
      rw [h k (by omega)]
      exact not_hasPragmaAt (by omega) ps
    rw [List.flatMap_cons, List.flatMap_cons, keptLines_append, Nat.add_right_comm]
    exact congrArg₂ (· ++ ·) hkept ih
  | .mapped text l verbatim :: ps, n, h => by
    let above := if 1 ≤ l.line then rows (pragma l) else []
    let own := rows (withoutFinalLineFeed text)
    have habove : above.length = if 1 ≤ l.line then 1 else 0 := by
      by_cases hl : 1 ≤ l.line <;> simp [above, hl, rows_pragma]
    have hwith : (Piece.mapped text l verbatim).rows true = above ++ own := by
      simp [Piece.rows, above, own]
    have hwithout : (Piece.mapped text l verbatim).rows false = own := by simp [Piece.rows, own]
    have hpos : 0 < own.length := by simp only [own, length_rows]; omega
    simp only [any_hasPragmaAt_mapped, hwith, List.length_append] at h
    have ih := keptLines_entries ps (n + (above.length + own.length)) fun line hline => by
      rw [h line (by omega)]
      exact or_iff_right fun hl => by omega
    have hpragma : keptLines dropped (n + 1) above = [] := by
      by_cases hl : 1 ≤ l.line
      · simp only [above, hl, if_true, rows_pragma]
        apply keptLines_dropped
        rw [h _ (by omega)]
        exact .inl ⟨hl, rfl⟩
      · simp [above, hl, keptLines]
    have hown : keptLines dropped (n + 1 + above.length) own = own := by
      apply keptLines_of_not_dropped
      intro k hk hle
      rw [h k (by omega), not_or]
      refine ⟨fun hl => ?_, not_hasPragmaAt (by omega) ps⟩
      rw [habove, if_pos hl.1] at hk
      omega
    rw [List.flatMap_cons, List.flatMap_cons, hwith, hwithout, keptLines_append, keptLines_append, hpragma,
      hown, List.nil_append, List.length_append, Nat.add_right_comm, ih]

/-- The line before an entry is its pragma. -/
theorem pragma_entries (after : List (List Char)) : ∀ (before : List (List Char)) (ps : List Piece),
    ∀ e ∈ entries true before.length ps, 1 ≤ e.location.line → ∃ k, e.first = k + 2 ∧
      (before ++ ps.flatMap (Piece.rows true) ++ after)[k]? = some (pragma e.location).toList
  | _, [], _, he, _ => nomatch he
  | before, p :: ps, e, he, hl => by
    have ih := pragma_entries after (before ++ p.rows true) ps
    rw [List.length_append, List.append_assoc before, ← List.flatMap_cons] at ih
    cases p with
    | line text => exact ih e he hl
    | mapped text l verbatim =>
      rcases List.mem_cons.1 he with rfl | he
      · have hrows : (Piece.mapped text l verbatim).rows true =
            (pragma l).toList :: rows (withoutFinalLineFeed text) := by
          simp only [Piece.rows, true_and, if_pos hl, rows_pragma, List.singleton_append]
        refine ⟨before.length, ?_, ?_⟩
        · simp only [hrows, List.length_cons]
          omega
        · simp [hrows]
      · exact ih e he hl

/-! ## Modules -/

theorem entries_down (pragmas : Bool) (k : Nat) : ∀ (ps : List Piece) (n : Nat),
    entries pragmas (n + k) ps = (entries pragmas n ps).map (LineMapEntry.down k)
  | [], _ => rfl
  | .line text :: ps, n => by
    have ih := entries_down pragmas k ps (n + (rows text).length)
    rw [Nat.add_right_comm] at ih
    exact ih
  | .mapped text l verbatim :: ps, n => by
    have ih := entries_down pragmas k ps (n + ((Piece.mapped text l verbatim).rows pragmas).length)
    have hle : (rows (withoutFinalLineFeed text)).length ≤
        ((Piece.mapped text l verbatim).rows pragmas).length := by
      rw [length_rows_mapped]
      omega
    rw [Nat.add_right_comm] at ih
    simp only [entries, List.map_cons, ih, LineMapEntry.down]
    congr 2 <;> omega

theorem entries_of_no_emission (pragmas : Bool) : ∀ (ps : List Piece) (n : Nat),
    ps.filterMap Piece.emission? = [] → entries pragmas n ps = []
  | [], _, _ => rfl
  | .line _ :: ps, _, h => entries_of_no_emission pragmas ps _ h
  | .mapped _ _ _ :: _, _, h => by cases h

/-- Pieces that differ only in what their lines say. -/
inductive Piece.Alike : Piece → Piece → Prop
  | line {a b : String} (h : Text.lineFeeds a = Text.lineFeeds b) : Alike (.line a) (.line b)
  | mapped {a b : String} {l : Location} {verbatim : Bool}
    (h : Text.lineFeeds (withoutFinalLineFeed a) = Text.lineFeeds (withoutFinalLineFeed b)) :
    Alike (.mapped a l verbatim) (.mapped b l verbatim)

theorem Piece.Alike.refl (p : Piece) : p.Alike p := by
  cases p with
  | line text => exact .line rfl
  | mapped text l verbatim => exact .mapped rfl

theorem Piece.Alike.length_rows {p q : Piece} (h : p.Alike q) (pragmas : Bool) :
    (p.rows pragmas).length = (q.rows pragmas).length := by
  cases h with
  | line h => simp only [Piece.rows, GeneratedUnit.length_rows, h]
  | mapped h => simp only [length_rows_mapped, GeneratedUnit.length_rows, h]

theorem entries_alike (pragmas : Bool) {ps qs : List Piece} (h : List.Forall₂ Piece.Alike ps qs) :
    ∀ n, entries pragmas n ps = entries pragmas n qs := by
  induction h with
  | nil => exact fun _ => rfl
  | @cons p q ps qs hp _ ih =>
    intro n
    have hlen := hp.length_rows pragmas
    cases hp with
    | line _ =>
      -- a line has no entry of its own, so only its length counts
      simp only [entries]
      rw [ih]
      exact congrArg (fun k => entries pragmas (n + k) _) hlen
    | mapped h => simp only [entries, hlen, GeneratedUnit.length_rows, h, ih]

theorem alike_refl (ps : List Piece) : List.Forall₂ Piece.Alike ps ps :=
  List.forall₂_same.2 fun p _ => .refl p

theorem structPieces_alike {c c' v v' : String} (hc : Text.lineFeeds c = Text.lineFeeds c')
    (hv : Text.lineFeeds v = Text.lineFeeds v') (input : UnitInput) :
    List.Forall₂ Piece.Alike (structPieces c v input) (structPieces c' v' input) := by
  have hline : ∀ a b, Text.lineFeeds a = Text.lineFeeds b → Piece.Alike (.line a) (.line b) :=
    fun _ _ => .line
  unfold structPieces
  refine List.rel_append (List.rel_append ?_ (alike_refl _)) ?_
  · simp [hline, Text.lineFeeds_append, hc, hv, Piece.Alike.refl]
  · simp [hline, Text.lineFeeds_append, hc, Piece.Alike.refl]

theorem transformPieces_alike {c c' : String} (hc : Text.lineFeeds c = Text.lineFeeds c')
    (input : UnitInput) : List.Forall₂ Piece.Alike (transformPieces c input) (transformPieces c' input) := by
  unfold transformPieces
  simp only [List.cons_append]
  refine .cons (.line ?_) (alike_refl _)
  simp [Text.lineFeeds_append, hc]

theorem helperPieces_alike {c c' : String} (hc : Text.lineFeeds c = Text.lineFeeds c') (t : Template) :
    List.Forall₂ Piece.Alike (helperPieces c t) (helperPieces c' t) := by
  unfold helperPieces
  by_cases h : (t.texts.filter (·.kind == .helper)).isEmpty
  · simp [h]
  · simp only [if_neg h]
    refine .cons (.line ?_) (alike_refl _)
    simp [Text.lineFeeds_append, hc]

/-- The first line of a unit. -/
def headLine (input : UnitInput) : String :=
  "// Generated by texttransform from " ++ input.templateFile.getD "<template>" ++ "."

/-- The second line of an executable unit. -/
def allowLine : String :=
  "#![allow(dead_code, unused_imports, unused_mut, unused_variables, " ++ "non_snake_case)]"

/-- The last lines of an executable unit. -/
def mainFunction : List String :=
  ["fn main() \x7b", "    " ++ runtimeModule ++ "::run_as_process(" ++ defaultClassName ++ "::new())", "\x7d"]

def openingLine (visibility : String) (name : String) : String :=
  visibility ++ "mod " ++ name ++ " \x7b"

/-- What stands in a unit of either kind before its own type. -/
def importPieces (input : UnitInput) : List Piece :=
  [.line "#[allow(dead_code)]",
    .line ("pub mod " ++ runtimeModule ++ " \x7b"),
    .line RuntimeText.text,
    .line "\x7d",
    .line ""] ++
  (distinct (input.imports ++ input.code.imports)).map useLine ++
  [.line ""]

/-- What a unit of either kind holds, under the name of its type. -/
def bodyPieces (input : UnitInput) (className visibility : String) : List Piece :=
  importPieces input ++ structPieces className visibility input ++ transformPieces className input ++
    helperPieces className input.template

theorem pieces_executable (input : UnitInput) : pieces input .executable defaultClassName [] =
    .line (headLine input) :: ([allowLine].map .line ++ bodyPieces input defaultClassName "pub " ++
      mainFunction.map .line) := by
  unfold pieces headPieces tailPieces bodyPieces importPieces mainFunction
  simp only [if_true, visibility, List.map_nil, List.append_nil, List.append_assoc, List.cons_append,
    List.nil_append, List.map_cons]
  rfl

theorem pieces_preprocessed (input : UnitInput) (c ns : String) (modules : List String) :
    pieces input (.preprocessed c ns) c modules =
      .line (headLine input) ::
        ((modules.map (openingLine (visibility (.preprocessed c ns) input.settings))).map .line ++
          bodyPieces input c (visibility (.preprocessed c ns) input.settings) ++
          (modules.map fun _ => "\x7d").map .line) := by
  have hne : ¬ UnitKind.preprocessed c ns = .executable := UnitKind.noConfusion
  unfold pieces headPieces tailPieces bodyPieces importPieces
  simp only [if_neg hne, List.append_assoc, List.cons_append, List.nil_append, List.map_map]
  rfl

theorem forall_mem_of_mapM {α β ε : Type} {f : α → Except ε β} {P : β → Prop}
    (hf : ∀ a b, f a = .ok b → P b) {xs : List α} {ys : List β} (h : xs.mapM f = .ok ys) :
    ∀ y ∈ ys, P y := by
  induction xs generalizing ys with
  | nil =>
    cases h
    exact fun _ hy => absurd hy List.not_mem_nil
  | cons x xs ih =>
    rw [List.mapM_cons] at h
    cases hx : f x with
    | error e =>
      rw [hx] at h
      cases h
    | ok b =>
      cases hxs : xs.mapM f with
      | error e =>
        rw [hx, hxs] at h
        cases h
      | ok bs =>
        rw [hx, hxs] at h
        cases h
        exact List.forall_mem_cons.2 ⟨hf x b hx, ih hxs⟩

theorem valid_of_namespacePath {text : String} {modules : List String}
    (h : namespacePath text = .ok modules) : ∀ m ∈ modules, Identifier.isValid m := by
  unfold namespacePath at h
  simp only at h
  split at h
  · cases h
    exact fun _ hm => absurd hm List.not_mem_nil
  · refine forall_mem_of_mapM (fun part m hm => ?_) h
    split at hm
    · cases hm
      assumption
    · cases hm

/-! ## Variants of a unit -/

/-- A unit less the pragma of each entry that is in the template. -/
structure WithoutPragmas (u v : GeneratedUnit) : Prop where
  lines : rows v.source =
    keptLines (fun line => u.lineMap.any (LineMapEntry.hasPragmaAt line)) 1 (rows u.source)
  pragmas : ∀ e ∈ u.lineMap, 1 ≤ e.location.line → ∃ k, e.first = k + 2 ∧
    (rows u.source)[k]? = some (pragma e.location).toList
  entries : List.Forall₂ (fun e e' => e'.location = e.location ∧ e'.verbatim = e.verbatim)
    u.lineMap v.lineMap
  lineMap : v.lineMap = u.lineMap.withoutPragmas 0
  className : v.className = u.className

/-- The same code, run at once by the one and in modules in the other. -/
def SameCode (input : UnitInput) (modules : List String) (u v : GeneratedUnit) : Prop :=
  ∃ code : List (List Char),
    rows u.source = rows (headLine input) ++ ([allowLine.toList] ++ code ++
      mainFunction.map String.toList) ++ [[]] ∧
    rows v.source = rows (headLine input) ++ ((modules.map (openingLine "pub ")).map String.toList ++ code ++
      (modules.map fun _ => "\x7d").map String.toList) ++ [[]]

def setPragmas (input : UnitInput) (pragmas : Bool) : UnitInput :=
  { input with settings := { input.settings with linePragmas := pragmas } }

theorem forall₂_withoutPragmas (m : LineMap) (n : Nat) :
    List.Forall₂ (fun e e' => e'.location = e.location ∧ e'.verbatim = e.verbatim) m
      (m.withoutPragmas n) := by
  induction m generalizing n with
  | nil => exact .nil
  | cons e m ih => exact .cons ⟨rfl, rfl⟩ (ih _)

def ofPieces (pragmas : Bool) (ps : List Piece) (className : String) : GeneratedUnit :=
  ⟨(write pragmas ps).source, (write pragmas ps).lineMap, className⟩

theorem generate_of_names {input : UnitInput} {kind : UnitKind} {className : String} {modules : List String}
    (h : names kind = .ok (className, modules)) (hc : Identifier.isValid className) :
    generate input kind =
      .ok (ofPieces input.settings.linePragmas (pieces input kind className modules) className) := by
  simp only [generate, h, hc, if_true]
  rfl

theorem withoutPragmas_ofPieces (ps : List Piece) (className : String) :
    WithoutPragmas (ofPieces true ps className) (ofPieces false ps className) := by
  have hmap : (write false ps).lineMap = (write true ps).lineMap.withoutPragmas 0 := by
    rw [write_lineMap, write_lineMap]
    exact entries_withoutPragmas ps 0 0
  -- the empty line at the end is a line without an entry
  have hend : ∀ pragmas, rows (write pragmas ps).source =
      (ps ++ [Piece.line ""]).flatMap (Piece.rows pragmas) := by
    intro pragmas
    rw [rows_write, List.flatMap_append]
    rfl
  refine ⟨?_, ?_, ?_, hmap, rfl⟩
  · simp only [ofPieces, hend, write_lineMap]
    refine (keptLines_entries (ps ++ [Piece.line ""]) 0 fun line _ => ?_).symm
    rw [entries_append]
    simp [entries]
  · simp only [ofPieces, rows_write, write_lineMap]
    exact pragma_entries [[]] [] ps
  · simp only [ofPieces, hmap]
    exact forall₂_withoutPragmas _ 0

theorem generate_setPragmas (input : UnitInput) (kind : UnitKind) :
    (∃ e, ∀ pragmas, generate (setPragmas input pragmas) kind = .error e) ∨
      ∃ u v, generate (setPragmas input true) kind = .ok u ∧
        generate (setPragmas input false) kind = .ok v ∧ WithoutPragmas u v := by
  cases hn : names kind with
  | error e => exact .inl ⟨e, fun _ => by simp only [generate, hn]⟩
  | ok named =>
    obtain ⟨className, modules⟩ := named
    by_cases hc : Identifier.isValid className
    · exact .inr ⟨_, _, generate_of_names hn hc, generate_of_names hn hc,
        withoutPragmas_ofPieces (pieces input kind className modules) className⟩
    · exact .inl ⟨.className className, fun _ => by simp only [generate, hn, if_neg hc]⟩

section
variable {input : UnitInput} {c ns : String} {modules : List String}

theorem newline_not_mem_visibility (kind : UnitKind) (settings : TemplateSettings) :
    '\n' ∉ (visibility kind settings).toList := by
  unfold visibility
  split
  · split <;> decide
  · decide

theorem rows_lines {texts : List String} (h : ∀ text ∈ texts, '\n' ∉ text.toList) (pragmas : Bool) :
    (texts.map Piece.line).flatMap (Piece.rows pragmas) = texts.map String.toList := by
  rw [List.flatMap_map, List.map_eq_flatMap]
  exact List.flatMap_congr fun text ht => rows_of_not_mem (h text ht)

theorem newline_not_mem_openings {visibility : String} (hv : '\n' ∉ visibility.toList)
    (h : ∀ m ∈ modules, Identifier.isValid m) :
    ∀ text ∈ modules.map (openingLine visibility), '\n' ∉ text.toList := by
  rintro _ ht
  obtain ⟨m, hm, rfl⟩ := List.mem_map.1 ht
  simp [openingLine, hv, Identifier.newline_not_mem (h m hm)]

theorem newline_not_mem_allowLine : ∀ text ∈ [allowLine], '\n' ∉ text.toList := by
  decide

theorem newline_not_mem_mainFunction : ∀ text ∈ mainFunction, '\n' ∉ text.toList := by
  decide

theorem newline_not_mem_closings : ∀ text ∈ modules.map fun _ => "\x7d", '\n' ∉ text.toList := by
  rintro _ ht
  obtain ⟨m, -, rfl⟩ := List.mem_map.1 ht
  decide

theorem bodyPieces_alike {c c' v v' : String} (hc : Text.lineFeeds c = Text.lineFeeds c')
    (hv : Text.lineFeeds v = Text.lineFeeds v') (input : UnitInput) :
    List.Forall₂ Piece.Alike (bodyPieces input c v) (bodyPieces input c' v') :=
  List.rel_append (List.rel_append (List.rel_append (alike_refl _) (structPieces_alike hc hv input))
    (transformPieces_alike hc input)) (helperPieces_alike hc input.template)

/-- Lines around a body that have no entries only move the entries of the body. -/
theorem entries_wrapped (pragmas : Bool) (above body below : List Piece) (n : Nat)
    (ha : above.filterMap Piece.emission? = []) (hb : below.filterMap Piece.emission? = []) :
    entries pragmas n (above ++ body ++ below) =
      (entries pragmas n body).map (LineMapEntry.down (above.flatMap (Piece.rows pragmas)).length) := by
  rw [entries_append, entries_append, entries_of_no_emission pragmas above n ha,
    entries_of_no_emission pragmas below _ hb, List.nil_append, List.append_nil, entries_down]

theorem emission?_texts (texts : List String) :
    (texts.map Piece.line).filterMap Piece.emission? = [] :=
  emission?_lines id texts

/-- Its opening lines stand above the body of a module, where an executable unit has one line. -/
theorem lineMap_preprocessed (hc : Identifier.isValid c) (hns : ∀ m ∈ modules, Identifier.isValid m)
    (pragmas : Bool) :
    (write pragmas (pieces input (.preprocessed c ns) c modules)).lineMap.map (LineMapEntry.down 1) =
      (write pragmas (pieces input .executable defaultClassName [])).lineMap.map
        (LineMapEntry.down modules.length) := by
  let v := visibility (.preprocessed c ns) input.settings
  have hv : '\n' ∉ v.toList := newline_not_mem_visibility _ _
  have hbody : entries pragmas (rows (headLine input)).length (bodyPieces input c v) =
      entries pragmas (rows (headLine input)).length (bodyPieces input defaultClassName "pub ") := by
    refine entries_alike pragmas (bodyPieces_alike ?_ ?_ input) _
    · rw [Text.lineFeeds_of_not_mem (Identifier.newline_not_mem hc)]
      rfl
    · rw [Text.lineFeeds_of_not_mem hv]
      rfl
  have hallow := congrArg List.length (rows_lines newline_not_mem_allowLine pragmas)
  have hopenings := congrArg List.length (rows_lines (newline_not_mem_openings hv hns) pragmas)
  rw [List.length_map] at hallow hopenings
  rw [List.length_map] at hopenings
  rw [write_lineMap, write_lineMap, pieces_executable, pieces_preprocessed, entries, entries, Nat.zero_add,
    entries_wrapped pragmas _ _ _ _ (emission?_texts _) (emission?_texts _),
    entries_wrapped pragmas _ _ _ _ (emission?_texts _) (emission?_texts _),
    hallow, hopenings, hbody, List.map_map, List.map_map]
  apply List.map_congr_left
  intro e _
  simp only [Function.comp, LineMapEntry.down, Nat.add_right_comm, List.length_singleton]

/-- An executable unit and a public module of the same type hold the same code. -/
theorem sameCode_of_names (hns : ∀ m ∈ modules, Identifier.isValid m) (hi : ¬ input.settings.isInternal)
    (pragmas : Bool) :
    SameCode input modules
      (ofPieces pragmas (pieces input .executable defaultClassName []) defaultClassName)
      (ofPieces pragmas (pieces input (.preprocessed defaultClassName ns) defaultClassName modules)
        defaultClassName) := by
  have hv : visibility (.preprocessed defaultClassName ns) input.settings = "pub " := if_neg hi
  refine ⟨(bodyPieces input defaultClassName "pub ").flatMap (Piece.rows pragmas), ?_, ?_⟩
  · rw [ofPieces, rows_write, pieces_executable, List.flatMap_cons, List.flatMap_append, List.flatMap_append,
      rows_lines newline_not_mem_allowLine, rows_lines newline_not_mem_mainFunction]
    rfl
  · rw [ofPieces, rows_write, pieces_preprocessed, hv, List.flatMap_cons, List.flatMap_append,
      List.flatMap_append, rows_lines (newline_not_mem_openings (by decide) hns), rows_lines newline_not_mem_closings]
    rfl

end

/-- **Variants of a unit hold the same code.** Without line pragmas, a unit is the one with them less the
line before each entry that has a place in the template. A module has the entries of the executable unit,
all of them as many lines further down as there are modules around it, less one; a public one of the same
name has its code. -/
theorem generate_variants (input : UnitInput) :
    (∀ kind, (∃ e, ∀ pragmas, generate (setPragmas input pragmas) kind = .error e) ∨
      ∃ u v, generate (setPragmas input true) kind = .ok u ∧
        generate (setPragmas input false) kind = .ok v ∧ WithoutPragmas u v) ∧
    ∀ c ns modules, Identifier.isValid c → namespacePath ns = .ok modules →
      ∃ u v, generate input .executable = .ok u ∧ generate input (.preprocessed c ns) = .ok v ∧
        v.lineMap.map (LineMapEntry.down 1) = u.lineMap.map (LineMapEntry.down modules.length) ∧
        (c = defaultClassName → ¬ input.settings.isInternal → SameCode input modules u v) := by
  refine ⟨generate_setPragmas input, fun c ns modules hc hns => ?_⟩
  have hvalid := valid_of_namespacePath hns
  have hnames : names (.preprocessed c ns) = .ok (c, modules) := by simp only [names, hns, Except.map]
  refine ⟨_, _, generate_of_names rfl (by decide), generate_of_names hnames hc, ?_, ?_⟩
  · exact lineMap_preprocessed hc hvalid _
  · rintro rfl hi
    exact sameCode_of_names hvalid hi _

theorem generate_variants_blockInput : Identifier.isValid defaultClassName ∧
    namespacePath "reports::daily" = .ok ["reports", "daily"] ∧
    ∃ u v, generate blockInput .executable = .ok u ∧
      generate blockInput (.preprocessed defaultClassName "reports::daily") = .ok v ∧
      v.lineMap.map (LineMapEntry.down 1) = u.lineMap.map (LineMapEntry.down 2) ∧
      SameCode blockInput ["reports", "daily"] u v := by
  have hc : Identifier.isValid defaultClassName := by decide
  have hns : namespacePath "reports::daily" = .ok ["reports", "daily"] := by decide
  refine ⟨hc, hns, ?_⟩
  obtain ⟨u, v, hu, hv, hmap, hcode⟩ := (generate_variants blockInput).2 _ _ _ hc hns
  exact ⟨u, v, hu, hv, hmap, hcode rfl (by decide)⟩

end GeneratedUnit

end Templating
