import Mathlib
import Templating.CommandLine
import Templating.Proofs.Requirements

/-!
# Scopes of parameters

A parameter on the command line is for all directives, or for a processor, a directive or both. A directive
is given what stands for both, or else what stands for all (`Scoped.value`); what is said for one of the two
alone is given to nobody, so that a required value may be missing all the same (`half_scoped_used_iff`).
-/

namespace Templating

/-! ## Parameters as they are written -/

namespace CommandArguments

/-- What the text before the equals sign stands for. Parts that are blank are left open. -/
inductive Names : List Char → ParameterKey → Prop
  | plain {name : List Char} : '!' ∉ name → Text.trim (String.ofList name) ≠ "" →
      Names name { name := Text.trim (String.ofList name) }
  | targeted {processor directive name : List Char} : '!' ∉ processor → '!' ∉ directive → '!' ∉ name →
      Text.trim (String.ofList name) ≠ "" →
      Names (processor ++ '!' :: (directive ++ '!' :: name))
        ⟨nonEmpty? (String.ofList processor), nonEmpty? (String.ofList directive),
          Text.trim (String.ofList name)⟩

/-- What a parameter's text says: what it is for, and the value behind its first equals sign. -/
inductive Written : String → ParameterKey × String → Prop
  | mk {key value : List Char} {k : ParameterKey} : '=' ∉ key → Names key k →
      Written (String.ofList (key ++ '=' :: value)) (k, String.ofList value)

theorem nonEmpty?_eq_some_iff {part x : String} : nonEmpty? part = some x ↔ Text.trim part ≠ "" ∧ Text.trim part = x := by
  unfold nonEmpty?
  by_cases h : Text.trim part = "" <;> simp [h]

theorem split_of_pieces {key : List Char} {parts : List (List Char)} (hne : parts ≠ [])
    (hparts : ∀ part ∈ parts, '!' ∉ part) (hkey : key = ['!'].intercalate parts) :
    Text.split (String.ofList key) '!' = parts.map String.ofList := by
  rw [Text.split, String.toList_ofList, hkey, Text.pieces_intercalate hne hparts]

theorem key?_of_names {key : List Char} {k : ParameterKey} (h : Names key k) :
    key? (String.ofList key) = some k := by
  cases h with
  | plain hname hblank =>
    unfold key?
    have hsplit : Text.split (String.ofList key) '!' = [key].map String.ofList :=
      split_of_pieces (by simp) (by simpa using hname) (by simp)
    rw [hsplit]
    simp [nonEmpty?_eq_some_iff.2 ⟨hblank, rfl⟩]
  | @targeted processor directive name hprocessor hdirective hname hblank =>
    unfold key?
    have hsplit : Text.split (String.ofList (processor ++ '!' :: (directive ++ '!' :: name))) '!' =
        [processor, directive, name].map String.ofList :=
      split_of_pieces (by simp) (by simp [*]) (by simp [List.intercalate])
    rw [hsplit]
    simp [nonEmpty?_eq_some_iff.2 ⟨hblank, rfl⟩]

theorem names_of_key? {key : List Char} {k : ParameterKey} (h : key? (String.ofList key) = some k) :
    Names key k := by
  have hjoin := Text.intercalate_pieces '!' key
  have hparts : ∀ part ∈ Text.pieces '!' key, '!' ∉ part := fun part => Text.not_mem_of_mem_pieces
  unfold key? at h
  rw [Text.split, String.toList_ofList] at h
  generalize Text.pieces '!' key = parts at h hjoin hparts
  rcases parts with _ | ⟨first, _ | ⟨second, _ | ⟨third, _ | ⟨fourth, rest⟩⟩⟩⟩
  · cases h
  · obtain ⟨x, hx, rfl⟩ := Option.map_eq_some_iff.1 h
    obtain ⟨hblank, rfl⟩ := nonEmpty?_eq_some_iff.1 hx
    rw [← hjoin, List.intercalate_singleton]
    exact .plain (hparts first (by simp)) hblank
  · cases h
  · obtain ⟨x, hx, rfl⟩ := Option.map_eq_some_iff.1 h
    obtain ⟨hblank, rfl⟩ := nonEmpty?_eq_some_iff.1 hx
    have hkey : key = first ++ '!' :: (second ++ '!' :: third) := by
      rw [← hjoin]
      simp [List.intercalate]
    rw [hkey]
    exact .targeted (hparts first (by simp)) (hparts second (by simp)) (hparts third (by simp)) hblank
  · cases h

theorem parseParameter_eq_ok_iff {raw : String} {p : ParameterKey × String} :
    parseParameter raw = .ok p ↔ Written raw p := by
  unfold parseParameter
  rw [Text.cut]
  constructor
  · intro h
    cases hcut : Text.cutChars '=' raw.toList with
    | none => simp [hcut] at h
    | some cut =>
      obtain ⟨key, value⟩ := cut
      simp only [hcut, Option.map_some] at h
      cases hkey : key? (String.ofList key) with
      | none => simp [hkey] at h
      | some k =>
        simp only [hkey, Except.ok.injEq] at h
        have hraw : raw = String.ofList (key ++ '=' :: value) := by
          rw [← Text.eq_of_cutChars hcut, String.ofList_toList]
        rw [hraw, ← h]
        exact .mk (Text.not_mem_of_cutChars hcut) (names_of_key? hkey)
  · intro h
    cases h with
    | mk hkey hnames => simp [Text.cutChars_append hkey, key?_of_names hnames]

end CommandArguments

/-! ## Parameters of a generator -/

/-- The value that is given for a key for the last time. -/
def lastGiven (given : List (ParameterKey × String)) (key : ParameterKey) : Option String :=
  (given.reverse.find? (·.1 = key)).map (·.2)

/-- The parameters that the settings give, all of them for every directive. -/
def ToolSettings.given (s : ToolSettings) : List (ParameterKey × String) :=
  s.parameters.entries.map fun e => ({ name := e.1 }, e.2)

theorem lookup_eq_find? (l : List (ParameterKey × String)) (key : ParameterKey) :
    l.lookup key = (l.find? (·.1 = key)).map (·.2) := by
  induction l with
  | nil => rfl
  | cons p l ih =>
    obtain ⟨k, value⟩ := p
    by_cases h : k = key
    · simp [h]
    · have hbeq : (key == k) = false := by simpa using Ne.symm h
      simp [List.lookup, hbeq, h, ih]

theorem parameters_foldl (entries : List (String × String)) (g : Generator) :
    (entries.foldl (fun g e => g.addParameter { name := e.1 } e.2) g).parameters =
      (entries.map fun e => (({ name := e.1 } : ParameterKey), e.2)).reverse ++ g.parameters := by
  induction entries generalizing g with
  | nil => rfl
  | cons e entries ih =>
    rw [List.foldl_cons, ih]
    simp [Generator.addParameter]

theorem parameters_addParameters {raws : List String} {g g' : Generator}
    (h : CommandLine.addParameters g raws = .ok g') :
    ∃ given, List.Forall₂ CommandArguments.Written raws given ∧ g'.parameters = given.reverse ++ g.parameters := by
  induction raws generalizing g with
  | nil =>
    obtain rfl := Except.ok.inj h
    exact ⟨[], .nil, rfl⟩
  | cons raw raws ih =>
    rw [CommandLine.addParameters] at h
    cases hraw : CommandArguments.parseParameter raw with
    | error e => simp [hraw] at h
    | ok p =>
      rw [hraw] at h
      obtain ⟨given, hgiven, hparameters⟩ := ih h
      refine ⟨p :: given, .cons (CommandArguments.parseParameter_eq_ok_iff.1 hraw) hgiven, ?_⟩
      simp [hparameters, Generator.addParameter]

theorem parameters_generator {s : ToolSettings} {a : CommandArguments} {g : Generator}
    (h : CommandLine.generator s a = .ok g) :
    ∃ given, List.Forall₂ CommandArguments.Written a.parameters given ∧
      g.parameters = (s.given ++ given).reverse := by
  obtain ⟨given, hgiven, hparameters⟩ := parameters_addParameters h
  refine ⟨given, hgiven, ?_⟩
  rw [hparameters, List.reverse_append]
  congr 1
  exact (parameters_foldl _ _).trans (List.append_nil _)

/-! ## What a directive is given -/

namespace ParameterKey

/-- For a processor or for a directive, but not for both. -/
def HalfScoped (k : ParameterKey) : Prop :=
  k.processor.isSome ≠ k.directive.isSome

/-- What is said for the one key is said for the other, which names all its parts. -/
def Covers (k full : ParameterKey) : Prop :=
  k.name = full.name ∧ (k.processor = none ∨ k.processor = full.processor) ∧
    (k.directive = none ∨ k.directive = full.directive)

end ParameterKey

namespace RequiresProvides

/-- The key of a value for a directive at a processor. -/
def keyFor (g : CodeGenerator) (d : Directive) (name : String) : ParameterKey where
  processor := some g.friendlyName
  directive := some (g.uniqueId d.name d (required g d) (provided g d))
  name := name

/-- What the parameters of a command line are for a directive. -/
structure Scoped (given : List (ParameterKey × String)) (values : ParameterLookup) (g : CodeGenerator)
    (d : Directive) : Prop where
  value : ∀ name, hostValue g values d name = (lastGiven given (keyFor g d name) <|> lastGiven given { name })
  used_iff : ∀ k v, (k, v) ∈ given → k.HalfScoped → k.Covers (keyFor g d k.name) →
    lastGiven given (keyFor g d k.name) = none →
      (hostValue g values d k.name = some v ↔ lastGiven given { name := k.name } = some v)
  refused_iff : ∀ r e, r.running → ((process g values d r).1 = .error e ↔
    ∃ a, FirstUnresolved (hostValue g values d) (required g d) a ∧ e = .unresolvedRequired a.key)
  taken : ∀ r code, (process g values d r).1 = .ok code →
    ∃ requires provides, g.postProcess d.name (resolveProvided (hostValue g values d) (required g d))
        (resolveProvided (hostValue g values d) (provided g d)) = (requires, provides) ∧
      process g values d r = (.ok (g.transform d.name requires provides),
        { r with
          pre := r.pre ++ g.preInitialization d.name requires provides
          post := r.post ++ g.postInitialization d.name requires provides })

theorem hostValue_generator {g : Generator} {given : List (ParameterKey × String)}
    (h : g.parameters = given.reverse) (cg : CodeGenerator) (d : Directive) (name : String) :
    hostValue cg g.resolveParameter d name =
      (lastGiven given (keyFor cg d name) <|> lastGiven given { name }) := by
  simp only [hostValue, Generator.resolveParameter, Generator.parameter?, h, lookup_eq_find?]
  rfl

theorem resolveRequired_of_ok {lookup : String → Option String} {args valued : Arguments}
    (h : resolveRequired lookup args = .ok valued) : valued = resolveProvided lookup args := by
  induction args generalizing valued with
  | nil => exact (Except.ok.inj h).symm
  | cons a args ih =>
    unfold resolveRequired at h
    cases hv : (lookup a.key <|> a.value) with
    | none => simp only [hv, reduceCtorEq] at h
    | some v =>
      cases hrest : resolveRequired lookup args with
      | error e => simp only [hv, hrest, Except.map, reduceCtorEq] at h
      | ok rest =>
        simp only [hv, hrest, Except.map, Except.ok.injEq] at h
        rw [← h, ih hrest]
        simp only [resolveProvided, List.map_cons, hv]

theorem process_of_ok {g : CodeGenerator} {values : ParameterLookup} {d : Directive} {r : Run} {code : String}
    (h : (process g values d r).1 = .ok code) :
    ∃ requires provides, g.postProcess d.name (resolveProvided (hostValue g values d) (required g d))
        (resolveProvided (hostValue g values d) (provided g d)) = (requires, provides) ∧
      process g values d r = (.ok (g.transform d.name requires provides),
        { r with
          pre := r.pre ++ g.preInitialization d.name requires provides
          post := r.post ++ g.postInitialization d.name requires provides }) := by
  have hresolve : resolve g values d = (resolveRequired (hostValue g values d) (required g d)).map fun valued =>
      g.postProcess d.name valued (resolveProvided (hostValue g values d) (provided g d)) := rfl
  by_cases hrunning : r.running
  · unfold process at h ⊢
    rw [if_pos hrunning, hresolve] at h ⊢
    cases hrequired : resolveRequired (hostValue g values d) (required g d) with
    | error e => simp [hrequired, Except.map] at h
    | ok valued =>
      rw [← resolveRequired_of_ok hrequired]
      exact ⟨_, _, rfl, rfl⟩
  · simp [process, hrunning] at h

/-- **Parameters for one of the two are not used.** A directive is given what stands for its processor and
itself, or else what stands for all. So a parameter for the processor or the directive alone says what the
directive is given just if the one for all says the same, and without that a required value is missing. -/
theorem half_scoped_used_iff {s : ToolSettings} {a : CommandArguments} {g : Generator}
    (h : CommandLine.generator s a = .ok g) :
    ∃ given, List.Forall₂ CommandArguments.Written a.parameters given ∧
      ∀ (cg : CodeGenerator) (d : Directive), Scoped (s.given ++ given) g.resolveParameter cg d := by
  obtain ⟨given, hgiven, hparameters⟩ := parameters_generator h
  refine ⟨given, hgiven, fun cg d => ⟨hostValue_generator hparameters cg d, ?_, ?_, ?_⟩⟩
  · intro k v hk hhalf hcovers hnone
    rw [hostValue_generator hparameters, hnone]
    rfl
  · intro r e hr
    rw [process_eq_error_iff, resolve_eq_error_iff]
    simp [hr]
  · exact fun r code => process_of_ok

theorem half_scoped_used_iff_processorAlone :
    CommandLine.generator {} { parameters := ["RequiresProvides!!x=1"] } =
      .ok { parameters := [(⟨some "RequiresProvides", none, "x"⟩, "1")] } ∧
    ∃ given, List.Forall₂ CommandArguments.Written ["RequiresProvides!!x=1"] given ∧
      ∀ (cg : CodeGenerator) (d : Directive), Scoped given
        ({ parameters := [(⟨some "RequiresProvides", none, "x"⟩, "1")] } : Generator).resolveParameter cg d :=
  have hgenerator : CommandLine.generator {} { parameters := ["RequiresProvides!!x=1"] } =
      .ok { parameters := [(⟨some "RequiresProvides", none, "x"⟩, "1")] } := by
    have hparse : CommandArguments.parseParameter "RequiresProvides!!x=1" =
        .ok (⟨some "RequiresProvides", none, "x"⟩, "1") := by decide +kernel
    simp [CommandLine.generator, CommandLine.addParameters, hparse]
    rfl
  ⟨hgenerator, half_scoped_used_iff hgenerator⟩

/-- A value for the processor alone does not reach its directives. -/
example : (process sessionGenerator
    ({ parameters := [(⟨some "RequiresProvides", none, "x"⟩, "1")] } : Generator).resolveParameter
    ⟨"m", [("requires", "x")], .empty, .empty, .empty⟩ { running := true }).1 =
      .error (.unresolvedRequired "x") := by
  decide +kernel

end RequiresProvides

end Templating
