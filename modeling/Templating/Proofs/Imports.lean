import Mathlib
import Templating.Proofs.Stages
import Templating.Proofs.Variants

/-!
# Imports of a unit

A unit declares the paths that it is asked to bring into scope one after the other behind its runtime, and what
else it holds does not depend on them. The requests are compared as they were made, the declarations stand without
the semicolons behind a path. So a path is declared once for each way in which it was spelled, and no declaration
stands twice just if no path was spelled in two ways (`declared_once_iff`).
-/

namespace Templating

/-! ## Lists without repetitions -/

section
variable {α β : Type} [DecidableEq α] [DecidableEq β]

theorem eraseDups_concat (xs : List α) (x : α) :
    (xs ++ [x]).eraseDups = if x ∈ xs then xs.eraseDups else xs.eraseDups ++ [x] := by
  rw [List.eraseDups_append]
  by_cases h : x ∈ xs <;> simp [List.removeAll, h, List.eraseDups_cons]

theorem nodup_eraseDups (xs : List α) : xs.eraseDups.Nodup := by
  induction xs using List.reverseRecOn with
  | nil => simp
  | append_singleton xs x ih =>
    rw [eraseDups_concat]
    split
    · exact ih
    · rename_i h
      rw [← List.concat_eq_append]
      exact ih.concat (mt List.mem_eraseDups.1 h)

theorem eraseDups_filter (p : α → Bool) (xs : List α) : (xs.filter p).eraseDups = xs.eraseDups.filter p := by
  induction xs using List.reverseRecOn with
  | nil => simp
  | append_singleton xs x ih =>
    rw [List.filter_append, eraseDups_concat]
    by_cases hp : p x
    · rw [List.filter_cons_of_pos hp, List.filter_nil, eraseDups_concat, ih]
      by_cases h : x ∈ xs <;> simp [List.filter_append, h, hp]
    · rw [List.filter_cons_of_neg hp, List.filter_nil, List.append_nil, ih]
      by_cases h : x ∈ xs <;> simp [List.filter_append, h, hp]

/-- Repetitions can be left out before a function is applied, which may make more of them. -/
theorem eraseDups_map_eraseDups (f : α → β) (xs : List α) :
    (xs.eraseDups.map f).eraseDups = (xs.map f).eraseDups := by
  induction xs using List.reverseRecOn with
  | nil => simp
  | append_singleton xs x ih =>
    rw [List.map_append, List.map_singleton, eraseDups_concat, eraseDups_concat, ← ih]
    by_cases h : x ∈ xs
    · rw [if_pos h, if_pos (List.mem_map_of_mem h)]
    · rw [if_neg h, List.map_append, List.map_singleton, eraseDups_concat]
      simp only [List.mem_map, List.mem_eraseDups]

theorem count_map_eraseDups (f : α → β) (xs : List α) (y : β) :
    (xs.eraseDups.map f).count y = (xs.filter fun x => f x = y).eraseDups.length := by
  rw [eraseDups_filter, List.count_eq_countP, List.countP_map, List.countP_eq_length_filter]
  rfl

end

namespace GeneratedUnit

theorem distinct_eq_eraseDups (xs : List String) : distinct xs = xs.eraseDups := by
  induction xs using List.reverseRecOn with
  | nil => rfl
  | append_singleton xs x ih =>
    have hstep : distinct (xs ++ [x]) = if (distinct xs).contains x then distinct xs else distinct xs ++ [x] := by
      simp only [distinct, List.foldl_append, List.foldl_cons, List.foldl_nil]
      rfl
    rw [hstep, ih, eraseDups_concat]
    simp only [List.contains_iff_mem, List.mem_eraseDups]

/-! ## Paths with semicolons -/

/-- A path with so many semicolons behind it. -/
def spelled (path : String) (n : Nat) : String :=
  path ++ String.ofList (List.replicate n ';')

theorem exists_spelled (path : String) : ∃ n, path = spelled (withoutSemicolons path) n := by
  let back := path.toList.reverse
  let ending := back.takeWhile (· = ';')
  have hending : ending = List.replicate ending.length ';' :=
    List.eq_replicate_of_mem fun c hc => by simpa using List.mem_takeWhile_imp hc
  refine ⟨ending.length, String.toList_inj.1 ?_⟩
  calc path.toList
    _ = (ending ++ back.dropWhile (· = ';')).reverse := by
      rw [List.takeWhile_append_dropWhile, List.reverse_reverse]
    _ = (back.dropWhile (· = ';')).reverse ++ List.replicate ending.length ';' := by
      rw [List.reverse_append, hending, List.reverse_replicate, List.length_replicate]
    _ = (spelled (withoutSemicolons path) ending.length).toList := by
      rw [spelled, String.toList_append, String.toList_ofList, withoutSemicolons, String.toList_ofList]
      rfl

theorem withoutSemicolons_spelled (path : String) (n : Nat) :
    withoutSemicolons (spelled path n) = withoutSemicolons path := by
  have hdrop : ∀ c ∈ List.replicate n ';', decide (c = ';') := by
    intro c hc
    simpa using (List.mem_replicate.1 hc).2
  rw [withoutSemicolons, Text.dropEndWhile, spelled, String.toList_append, String.toList_ofList,
    List.reverse_append, List.reverse_replicate, List.dropWhile_append_of_pos hdrop]
  rfl

theorem spelled_inj {path : String} {a b : Nat} (h : spelled path a = spelled path b) : a = b := by
  have hlength := congrArg (fun s : String => s.toList.length) h
  simpa [spelled] using hlength

/-! ## Declarations -/

/-- The line that brings a path into scope. -/
def declaration (path : String) : String :=
  "use " ++ withoutSemicolons path ++ ";"

def declarations (requests : List String) : List String :=
  (distinct requests).map declaration

theorem declaration_inj {p q : String} :
    declaration p = declaration q ↔ withoutSemicolons p = withoutSemicolons q := by
  constructor
  · intro h
    have hchars := congrArg String.toList h
    simp only [declaration, String.toList_append, List.append_assoc, List.append_cancel_left_eq,
      List.append_cancel_right_eq] at hchars
    exact String.toList_inj.1 hchars
  · intro h
    rw [declaration, declaration, h]

/-- Each request is declared, and the declarations stand as they were first requested. -/
theorem eraseDups_declarations (requests : List String) :
    (declarations requests).eraseDups = (requests.map declaration).eraseDups := by
  rw [declarations, distinct_eq_eraseDups, eraseDups_map_eraseDups]

/-- The declarations of a path are as many as its spellings. -/
theorem count_declaration (requests : List String) (path : String) :
    (declarations requests).count (declaration path) =
      (requests.filter fun r => withoutSemicolons r = withoutSemicolons path).eraseDups.length := by
  rw [declarations, distinct_eq_eraseDups, count_map_eraseDups]
  simp only [declaration_inj]

theorem nodup_declarations_iff {requests : List String} : (declarations requests).Nodup ↔
    ∀ path a b, spelled path a ∈ requests → spelled path b ∈ requests → a = b := by
  rw [declarations, distinct_eq_eraseDups, List.nodup_map_iff_inj_on (nodup_eraseDups requests)]
  simp only [List.mem_eraseDups, declaration_inj]
  constructor
  · intro h path a b ha hb
    refine spelled_inj (h _ ha _ hb ?_)
    rw [withoutSemicolons_spelled, withoutSemicolons_spelled]
  · intro h p hp q hq hpq
    obtain ⟨a, ha⟩ := exists_spelled p
    obtain ⟨b, hb⟩ := exists_spelled q
    rw [← hpq] at hb
    rw [ha, hb, h _ a b (ha ▸ hp) (hb ▸ hq)]

/-! ## Units that differ in their imports -/

def withImports (input : UnitInput) (imports more : List String) : UnitInput :=
  { input with imports := imports, code := { input.code with imports := more } }

theorem exists_pieces (input : UnitInput) (kind : UnitKind) (className : String) (modules : List String) :
    ∃ above below : List Piece, ∀ imports more, pieces (withImports input imports more) kind className modules =
      above ++ [.line RuntimeText.text, .line "\x7d", .line ""] ++
        (declarations (imports ++ more)).map .line ++ .line "" :: below := by
  let vis := visibility kind input.settings
  refine ⟨[.line (headLine input)] ++ (if kind = .executable then [.line allowLine] else []) ++
      modules.map (fun m => .line (openingLine vis m)) ++
      [.line "#[allow(dead_code)]", .line ("pub mod " ++ runtimeModule ++ " \x7b")],
    structPieces className vis input ++ transformPieces className input ++ helperPieces className input.template ++
      tailPieces kind className modules, fun imports more => ?_⟩
  simp only [pieces, headPieces, declarations, List.map_map, List.append_assoc, List.cons_append, List.nil_append]
  rfl

theorem exists_names {input : UnitInput} {kind : UnitKind} {u : GeneratedUnit} (h : generate input kind = .ok u) :
    ∃ className modules, names kind = .ok (className, modules) ∧ Identifier.isValid className := by
  unfold generate at h
  split at h
  · cases h
  · rename_i className modules hnames
    split at h
    · exact ⟨className, modules, hnames, ‹_›⟩
    · cases h

/-- Between these lines and its runtime, and those, a unit declares what is requested. -/
def Declares (u : GeneratedUnit) (above below : List (List Char)) (requests : List String) : Prop :=
  rows u.source = above ++ (rows RuntimeText.text ++ [['\x7d'], []]) ++ (declarations requests).flatMap rows ++
    [] :: below

/-- Only the declarations of a unit depend on its imports. -/
theorem exists_declares {input : UnitInput} {kind : UnitKind} {u : GeneratedUnit} (h : generate input kind = .ok u) :
    ∃ above below, Declares u above below (input.imports ++ input.code.imports) ∧ ∀ imports more, ∃ v,
      generate (withImports input imports more) kind = .ok v ∧ Declares v above below (imports ++ more) := by
  obtain ⟨className, modules, hnames, hc⟩ := exists_names h
  obtain ⟨above, below, hpieces⟩ := exists_pieces input kind className modules
  let pragmas := input.settings.linePragmas
  let lines (ps : List Piece) := ps.flatMap (Piece.rows pragmas)
  have hdeclares : ∀ imports more, ∃ v, generate (withImports input imports more) kind = .ok v ∧
      Declares v (lines above) (lines below ++ [[]]) (imports ++ more) := by
    refine fun imports more => ⟨_, generate_of_names hnames hc, ?_⟩
    rw [Declares, ofPieces, hpieces, rows_write]
    simp only [lines, List.flatMap_append, List.flatMap_cons, List.flatMap_map, List.append_assoc, List.cons_append]
    rfl
  obtain ⟨v, hv, hrows⟩ := hdeclares input.imports input.code.imports
  obtain rfl := Except.ok.inj (h.symm.trans hv)
  exact ⟨_, _, hrows, hdeclares⟩

/-- **A path is declared once for each of its spellings.** Behind its runtime a unit holds a declaration for each
path that it is asked to bring into scope, as they were first requested, and nothing else in it depends on them; the
engine asks for the paths of the host, of the template and of the processors, in this order. There are as many
declarations of a path as there are requests for it that differ in the semicolons behind it, so no declaration stands
twice just if there is no path with two such requests. -/
theorem declared_once_iff {input : UnitInput} {kind : UnitKind} {u : GeneratedUnit}
    (h : generate input kind = .ok u) :
    (∃ above below, Declares u above below (input.imports ++ input.code.imports) ∧ ∀ imports more, ∃ v,
      generate (withImports input imports more) kind = .ok v ∧ Declares v above below (imports ++ more)) ∧
    (∀ files host text p, (Engine.prepare files host text kind).result = .ok p →
      ∃ above below, Declares p.unit above below
        (host.standardImports ++ (TemplateSettings.ofTemplate (Engine.parsed files host text)).1.imports ++
          (Routing.ofTemplate host (Engine.parsed files host text)).1.imports)) ∧
    ∀ requests : List String,
      (declarations requests).eraseDups = (requests.map declaration).eraseDups ∧
      (∀ path, (declarations requests).count (declaration path) =
        (requests.filter fun r => withoutSemicolons r = withoutSemicolons path).eraseDups.length) ∧
      ((declarations requests).Nodup ↔
        ∀ path a b, spelled path a ∈ requests → spelled path b ∈ requests → a = b) := by
  refine ⟨exists_declares h, fun files host text p hp => ?_, fun requests =>
    ⟨eraseDups_declarations requests, count_declaration requests, nodup_declarations_iff⟩⟩
  obtain ⟨-, hunit, -⟩ := Engine.prepare_of_ok hp
  obtain ⟨above, below, hdeclares, -⟩ := exists_declares hunit
  exact ⟨above, below, hdeclares⟩

/-- A path asked for with and without a semicolon. -/
theorem declared_once_iff_blockInput : ∃ u v above below, generate blockInput .executable = .ok u ∧
    generate (withImports blockInput ["std::fmt"] ["std::fmt;"]) .executable = .ok v ∧
    rows v.source = above ++ ["use std::fmt;".toList, "use std::fmt;".toList] ++ below := by
  obtain ⟨u, h⟩ := generate_executable blockInput
  obtain ⟨above, below, -, hdeclares⟩ := (declared_once_iff h).1
  obtain ⟨v, hv, hrows⟩ := hdeclares ["std::fmt"] ["std::fmt;"]
  exact ⟨u, v, _, _, h, hv, hrows⟩

end GeneratedUnit

end Templating
