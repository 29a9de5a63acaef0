import Mathlib
import Templating.Proofs.Buffering
import Templating.Proofs.Imports
import Templating.Proofs.Naming
import Templating.Proofs.Quoting
import Templating.Proofs.Replies

/-!
# Required and provided values

A list of keys is read part by part, each key once, at its first place and with its last value
(`parse_of_reads`). The session processor takes a directive just if its host has a value for every key that is
required; it stores the values that are there and binds the keys that are identifiers (`session_lists`).
-/

namespace Templating

namespace Arguments

/-! ## Lists as they are written -/

/-- What a part of a list says: a key, with the value behind its first equals sign. -/
inductive Says : List Char → String × Option String → Prop
  | bare {part : List Char} : '=' ∉ part → Says part (Text.trim (String.ofList part), none)
  | valued {key value : List Char} : '=' ∉ key →
      Says (key ++ '=' :: value) (Text.trim (String.ofList key), some (Text.trim (String.ofList value)))

/-- The text consists of parts between semicolons, and this is what they say. -/
def Reads (text : String) (pairs : List (String × Option String)) : Prop :=
  ∃ parts, parts ≠ [] ∧ (∀ part ∈ parts, ';' ∉ part) ∧ text.toList = [';'].intercalate parts ∧
    List.Forall₂ Says parts pairs

/-- Each key that is not empty, at its first place. -/
def firstKeys (pairs : List (String × Option String)) : List String :=
  ((pairs.map (·.1)).filter (· ≠ "")).eraseDups

/-- The value that stands with a key for the last time. -/
def lastValue (pairs : List (String × Option String)) (key : String) : Option String :=
  (pairs.reverse.find? (·.1 = key)).bind (·.2)

/-- The list that pairs of keys and values make. -/
def ofPairs (pairs : List (String × Option String)) : Arguments :=
  (firstKeys pairs).map fun key => ⟨key, lastValue pairs key⟩

section
variable {pairs : List (String × Option String)} {p : String × Option String} {keys : List String}

theorem says_iff {part : List Char} : Says part p ↔ p = pair (String.ofList part) := by
  have hpair : pair (String.ofList part) = (Text.cutChars '=' part).elim (Text.trim (String.ofList part), none)
      fun cut => (Text.trim (String.ofList cut.1), some (Text.trim (String.ofList cut.2))) := by
    rw [pair, Text.cut, String.toList_ofList]
    cases Text.cutChars '=' part <;> rfl
  rw [hpair]
  constructor
  · rintro (hbare | hkey)
    · rw [Text.cutChars_of_not_mem hbare, Option.elim_none]
    · rw [Text.cutChars_append hkey, Option.elim_some]
  · rintro rfl
    cases hcut : Text.cutChars '=' part with
    | none =>
      refine .bare fun hmem => ?_
      obtain ⟨key, value, rfl, hkey⟩ := List.eq_append_cons_of_mem hmem
      cases (Text.cutChars_append hkey value).symm.trans hcut
    | some cut =>
      obtain ⟨key, value⟩ := cut
      rw [Text.eq_of_cutChars hcut]
      exact .valued (Text.not_mem_of_cutChars hcut)

theorem reads_iff {text : String} : Reads text pairs ↔ pairs = (Text.split text ';').map pair := by
  have hpairing (parts : List (List Char)) :
      List.Forall₂ Says parts pairs ↔ (parts.map String.ofList).map pair = pairs := by
    have hiff : Says = fun part p => pair (String.ofList part) = p := by
      funext part p
      exact propext (says_iff.trans eq_comm)
    rw [List.map_map, ← List.forall₂_eq_eq_eq, List.forall₂_map_left_iff, hiff]
    rfl
  constructor
  · rintro ⟨parts, hne, hparts, htext, hpairs⟩
    rw [Text.split, htext, Text.pieces_intercalate hne hparts]
    exact ((hpairing parts).1 hpairs).symm
  · intro hpairs
    exact ⟨Text.pieces ';' text.toList, Text.pieces_ne_nil _ _, fun part => Text.not_mem_of_mem_pieces,
      (Text.intercalate_pieces _ _).symm, (hpairing _).2 hpairs.symm⟩

/-! ## Keys and values -/

theorem mem_firstKeys {key : String} : key ∈ firstKeys pairs ↔ key ≠ "" ∧ key ∈ pairs.map (·.1) := by
  rw [firstKeys, List.mem_eraseDups, List.mem_filter, and_comm]
  simp

theorem firstKeys_concat : firstKeys (pairs ++ [p]) =
    if p.1 = "" ∨ p.1 ∈ firstKeys pairs then firstKeys pairs else firstKeys pairs ++ [p.1] := by
  unfold firstKeys
  rw [List.map_append, List.filter_append]
  by_cases hempty : p.1 = ""
  · simp [hempty]
  · have hnew : ([p].map (·.1)).filter (· ≠ "") = [p.1] := by simp [hempty]
    rw [hnew, eraseDups_concat]
    simp only [hempty, false_or, List.mem_eraseDups]

theorem nodup_firstKeys : (firstKeys pairs).Nodup :=
  nodup_eraseDups _

theorem lastValue_concat (key : String) :
    lastValue (pairs ++ [p]) key = if p.1 = key then p.2 else lastValue pairs key := by
  by_cases hp : p.1 = key <;> simp [lastValue, hp]

/-- Setting the value of a key leaves the others, and puts a new key at the end. -/
theorem set_map {key : String} {value : Option String} {values : String → Option String} (h : keys.Nodup) :
    set key value (keys.map fun k => ⟨k, values k⟩) =
      (if key ∈ keys then keys else keys ++ [key]).map fun k =>
        ⟨k, if key = k then value else values k⟩ := by
  induction keys with
  | nil => simp [set]
  | cons k keys ih =>
    obtain ⟨hk, hkeys⟩ := List.nodup_cons.1 h
    rw [List.map_cons, set]
    by_cases heq : k = key
    · subst heq
      have hsame : ∀ k' ∈ keys, (⟨k', if k = k' then value else values k'⟩ : Argument) = ⟨k', values k'⟩ := by
        intro k' hk'
        rw [if_neg]
        rintro rfl
        exact hk hk'
      simp [List.map_congr_left hsame]
    · rw [if_neg heq, ih hkeys]
      by_cases hmem : key ∈ keys <;> simp [hmem, Ne.symm heq]

theorem foldl_eq_ofPairs (pairs : List (String × Option String)) :
    pairs.foldl (fun args p => if p.1.isEmpty then args else set p.1 p.2 args) [] = ofPairs pairs := by
  induction pairs using List.reverseRecOn with
  | nil => rfl
  | append_singleton pairs p ih =>
    rw [List.foldl_append, ih, List.foldl_cons, List.foldl_nil, ofPairs, ofPairs, firstKeys_concat]
    by_cases hempty : p.1 = ""
    · rw [if_pos (by simp [hempty]), if_pos (.inl hempty)]
      refine List.map_congr_left fun key hkey => ?_
      rw [lastValue_concat, if_neg]
      rintro rfl
      exact (mem_firstKeys.1 hkey).1 hempty
    · rw [if_neg (by simpa using hempty), set_map nodup_firstKeys]
      simp only [hempty, false_or, lastValue_concat]

/-- **Lists are read part by part.** A key stands once, at its first place and with its last value. -/
theorem parse_of_reads {text : String} (h : Reads text pairs) : parse text = ofPairs pairs := by
  rw [← foldl_eq_ofPairs, reads_iff.1 h, List.foldl_map]
  rfl

end

end Arguments

namespace RequiresProvides

/-! ## Lines of code -/

/-- The line that stores a value in the session. -/
def storeLine (key value : String) : String :=
  "self.set_session_value(" ++ Text.quote key ++ ", " ++ Text.quote value ++ ");\n"

/-- The line that binds a key to its value in the session. -/
def letLine (key : String) : String :=
  "let " ++ key ++ ": String = self.session_value(" ++ Text.quote key ++
    ").unwrap_or_default().to_string();\n"

theorem lineFeeds_storeLine (key value : String) : Text.lineFeeds (storeLine key value) = 1 := by
  unfold storeLine
  simp only [Text.lineFeeds_append, Text.lineFeeds_of_not_mem (Text.newline_not_mem_quote _)]
  rfl

theorem lineFeeds_letLine {key : String} (h : Identifier.isValid key) : Text.lineFeeds (letLine key) = 1 := by
  unfold letLine
  simp only [Text.lineFeeds_append, Text.lineFeeds_of_not_mem (Text.newline_not_mem_quote _),
    Text.lineFeeds_of_not_mem (Identifier.newline_not_mem h)]
  rfl

/-- The keys of a list that have a value. That of the host goes before the list's own. -/
def valued (host : String → Option String) (args : Arguments) : List (String × String) :=
  args.filterMap fun a => (host a.key <|> a.value).map (a.key, ·)

theorem join_storeValue (args : Arguments) : String.join (args.map storeValue) =
    String.join ((args.filterMap fun a => a.value.map (a.key, ·)).map fun x => storeLine x.1 x.2) := by
  induction args with
  | nil => simp
  | cons a args ih =>
    rw [List.map_cons, String.join_cons, ih]
    cases hvalue : a.value with
    | none => simp [storeValue, hvalue]
    | some v =>
      rw [List.filterMap_cons_some (by rw [hvalue]; rfl), List.map_cons, String.join_cons, storeValue, hvalue]
      rfl

theorem join_bindValue (args : Arguments) : String.join (args.map bindValue) =
    String.join (((args.map (·.key)).filter (Identifier.isValid ·)).map letLine) := by
  induction args with
  | nil => simp
  | cons a args ih =>
    rw [List.map_cons, String.join_cons, ih]
    by_cases hvalid : Identifier.isValid a.key
    · simp [bindValue, hvalid, letLine, String.join_cons]
    · simp [bindValue, hvalid]

/-! ## Directives of the session processor -/

/-- A list of a directive. One that is not there is empty. -/
def listed (d : Directive) (key : String) : Arguments :=
  Arguments.parse ((d.attribute? key).getD "")

section
variable {host : String → Option String} {args : Arguments}

theorem resolveRequired_of_valued (h : ∀ a ∈ args, host a.key ≠ none ∨ a.value ≠ none) :
    resolveRequired host args = .ok (resolveProvided host args) := by
  induction args with
  | nil => rfl
  | cons a args ih =>
    obtain ⟨ha, hargs⟩ := List.forall_mem_cons.1 h
    have hvalue : (host a.key <|> a.value) ≠ none := by
      cases hv : host a.key <;> simp_all
    obtain ⟨v, hv⟩ := Option.ne_none_iff_exists'.1 hvalue
    rw [resolveRequired, ih hargs]
    simp only [resolveProvided, List.map_cons, hv, Except.map]

theorem resolveRequired_of_found (h : ∀ a ∈ args, host a.key ≠ none) :
    resolveRequired host (args.map fun a => { a with value := none }) =
      .ok (args.map fun a => ⟨a.key, host a.key⟩) := by
  rw [resolveRequired_of_valued (by simpa using h)]
  simp [resolveProvided]

theorem resolveRequired_of_missing {key : String}
    (h : (args.map (·.key)).find? (fun k => (host k).isNone) = some key) :
    resolveRequired host (args.map fun a => { a with value := none }) = .error (.unresolvedRequired key) := by
  induction args with
  | nil => cases h
  | cons a args ih =>
    rw [List.map_cons, List.find?_cons] at h
    rw [List.map_cons, resolveRequired]
    cases hv : host a.key with
    | none =>
      rw [hv] at h
      simpa using h
    | some v =>
      rw [hv] at h
      simp [ih (by simpa using h), Except.map]

theorem keys_of_found (h : ∀ a ∈ args, host a.key ≠ none) :
    (args.filterMap fun a => (host a.key).map (a.key, ·)).map (·.1) = args.map (·.key) := by
  induction args with
  | nil => rfl
  | cons a args ih =>
    obtain ⟨ha, hargs⟩ := List.forall_mem_cons.1 h
    obtain ⟨v, hv⟩ := Option.ne_none_iff_exists'.1 ha
    simp [hv, ih hargs]

end

theorem resolve_session (values : ParameterLookup) (d : Directive) : resolve sessionGenerator values d =
    (resolveRequired (values (some d.name) (some processorName))
      ((listed d "requires").map fun a => { a with value := none })).map fun required =>
        (required, resolveProvided (values (some d.name) (some processorName)) (listed d "provides")) := by
  have hlisted (key : String) :
      ((d.attribute? key).map Arguments.parse).getD [] = listed d key := by
    unfold listed
    cases d.attribute? key with
    | none => rfl
    | some text => rfl
  unfold resolve
  rw [hlisted, hlisted]
  rfl

/-- What comes of a directive whose lists are read and whose keys the host knows or not. -/
structure Settled (host : String → Option String) (requires provides : Arguments) (run : Run)
    (answer : Except ProcessorError String × Run) : Prop where
  taken_iff : (∃ code, answer.1 = .ok code) ↔ ∀ a ∈ requires, host a.key ≠ none
  refused : ∀ e, answer.1 = .error e →
    ∃ key, (requires.map (·.key)).find? (fun k => (host k).isNone) = some key ∧
      e = .unresolvedRequired key ∧ answer.2 = run
  stored : ∀ code, answer.1 = .ok code →
    ∃ required : List (String × String), required.map (·.1) = requires.map (·.key) ∧
      (∀ x ∈ required, host x.1 = some x.2) ∧
      answer.2 = { run with
        post := run.post ++
          String.join ((required ++ valued host provides).map fun x => storeLine x.1 x.2) }
  bound : ∀ code, answer.1 = .ok code →
    code = String.join ((((requires ++ provides).map (·.key)).filter (Identifier.isValid ·)).map letLine)

theorem process_settled (values : ParameterLookup) (d : Directive) (pre post : String) :
    Settled (values (some d.name) (some processorName)) (listed d "requires") (listed d "provides")
      { running := true, pre, post } (process sessionGenerator values d { running := true, pre, post }) := by
  have hresolve := resolve_session values d
  generalize values (some d.name) (some processorName) = host at hresolve ⊢
  generalize listed d "requires" = requires at hresolve ⊢
  generalize listed d "provides" = provides at hresolve ⊢
  unfold process
  rw [if_pos rfl, hresolve]
  cases hmissing : (requires.map (·.key)).find? fun k => (host k).isNone with
  | some key =>
    rw [resolveRequired_of_missing hmissing]
    have hkey := List.mem_of_find?_eq_some hmissing
    have hnone := List.find?_some hmissing
    refine ⟨iff_of_false (by simp [Except.map]) fun hall => ?_, ?_, by simp [Except.map], by simp [Except.map]⟩
    · obtain ⟨a, ha, rfl⟩ := List.mem_map.1 hkey
      exact hall a ha (by simpa using hnone)
    · rintro e he
      exact ⟨key, hmissing, (Except.error.inj he).symm, rfl⟩
  | none =>
    have hall : ∀ a ∈ requires, host a.key ≠ none := by
      intro a ha
      simpa using List.find?_eq_none.1 hmissing a.key (List.mem_map_of_mem ha)
    rw [resolveRequired_of_found hall]
    refine ⟨iff_of_true ⟨_, rfl⟩ hall, by simp [Except.map], ?_, ?_⟩
    · intro code hcode
      refine ⟨_, keys_of_found hall, ?_, ?_⟩
      · intro x hx
        obtain ⟨a, -, hx⟩ := List.mem_filterMap.1 hx
        obtain ⟨v, hv, rfl⟩ := Option.map_eq_some_iff.1 hx
        exact hv
      · simp [Except.map, sessionGenerator, join_storeValue, resolveProvided, valued, List.filterMap_map,
          Function.comp_def]
    · intro code hcode
      obtain rfl := Except.ok.inj hcode
      simp [sessionGenerator, join_bindValue, resolveProvided, Function.comp_def]

/-- **Required and provided lists.** A list is read in one way, as its parts say. A directive with two lists
is taken just if the host has all values that the first one requires. Then one line for each required key
and one for each provided key with a value is appended, and each key that is an identifier is bound. -/
theorem session_lists :
    (∀ text, ∃! pairs, Arguments.Reads text pairs) ∧
    (∀ text pairs, Arguments.Reads text pairs → Arguments.parse text = Arguments.ofPairs pairs) ∧
    (∀ key value, Text.lineFeeds (storeLine key value) = 1) ∧
    (∀ key, Identifier.isValid key → Text.lineFeeds (letLine key) = 1) ∧
    ∀ (values : ParameterLookup) (d : Directive) (pre post : String),
      Settled (values (some d.name) (some processorName)) (listed d "requires") (listed d "provides")
        { running := true, pre, post } (process sessionGenerator values d { running := true, pre, post }) :=
  ⟨fun _ => ⟨_, Arguments.reads_iff.2 rfl, fun _ h => Arguments.reads_iff.1 h⟩,
    fun _ _ h => Arguments.parse_of_reads h, lineFeeds_storeLine, fun _ h => lineFeeds_letLine h,
    process_settled⟩

/-- Of a key that stands twice the last value counts, and the host's value goes before it. -/
example : (process sessionGenerator (fun _ _ key => if key = "b" then some "host" else none)
    ⟨"model", [("provides", "a=1; b=2 ;a=3;;c")], .empty, .empty, .empty⟩ { running := true }).2.post =
      storeLine "a" "3" ++ storeLine "b" "host" := by
  decide +kernel

end RequiresProvides

end Templating
