import Mathlib
import Templating.Template

/-!
# Splicing

What a template holds is its text with every `include` replaced by what it stands for, and the
helpers of all included texts after it (`expand_eq`). A fault in the root text leaves these helpers
out.
-/

namespace Templating

def Item.segment? : Item → Option Segment
  | .segment s => some s
  | .namelessValue _ => none

/-- Every text that can be included has tokens. -/
def IncludeSource.Readable (source : IncludeSource) : Prop :=
  ∀ request i, source.load request = some i → ∃ ts, tokenize (some i.name) i.content = .ok ts

namespace Template

def items (file : Option String) (text : String) : List Item :=
  Item.ofTokens none (Scanner.ofText file text).stream.tokens

/-- The segments of a text whose `include` directives are ordinary directives. -/
def plainSegments (file : Option String) (text : String) : List Segment :=
  (parsePlain { root := file } (.ofText file text)).1.segments

/-! ## What an `include` stands for -/

section
variable (files : FileTree) (source : IncludeSource)

/-- The body of an included text, without helpers, stands for its `include`. -/
def replacement (active : List String) (file : Option String) : Segment → List Segment
  | .text s => [.text s]
  | .directive d =>
    if d.isNamed "include" then
      match included files source active file d with
      | .error _ => []
      | .ok i =>
        ((plainSegments (some i.val.name) i.val.content).flatMap
          (replacement (i.val.name :: active) (some i.val.name))).filter (!·.isHelper)
    else [.directive d]
termination_by (source.names.filter (· ∉ active)).length
decreasing_by exact length_filter_push i.property.1 i.property.2

/-- The helpers that an `include` brings, at any depth. -/
def hoisted (active : List String) (file : Option String) : Segment → List Segment
  | .text _ => []
  | .directive d =>
    if d.isNamed "include" then
      match included files source active file d with
      | .error _ => []
      | .ok i =>
        (plainSegments (some i.val.name) i.val.content).flatMap fun s =>
          [s].filter (·.isHelper) ++ hoisted (i.val.name :: active) (some i.val.name) s
    else []
termination_by (source.names.filter (· ∉ active)).length
decreasing_by exact length_filter_push i.property.1 i.property.2

/-- One error for each value without a name and for each `include` that stands for nothing. -/
def failures (root : Option String) (active : List String) (file : Option String) :
    Item → Diagnostics
  | .namelessValue l =>
    [.error "TT1002" "Directive value without name" (place { root := root } l)]
  | .segment (.text _) => []
  | .segment (.directive d) =>
    if d.isNamed "include" then
      match included files source active file d with
      | .error e => [.error e.code e.message (place { root := root } d.start)]
      | .ok i =>
        (items (some i.val.name) i.val.content).flatMap
          (failures root (i.val.name :: active) (some i.val.name))
    else []
termination_by (source.names.filter (· ∉ active)).length
decreasing_by exact length_filter_push i.property.1 i.property.2

end

/-! ## Plain segments are items -/

theorem addItem_foldl (t : Template) : ∀ is : List Item,
    (is.foldl addItem t).segments = t.segments ++ is.filterMap Item.segment? ∧
      (is.foldl addItem t).helpers = t.helpers
  | [] => by simp
  | .namelessValue l :: is => by
    rw [List.foldl_cons]
    exact addItem_foldl (t.logNameless l) is
  | .segment s :: is => by
    obtain ⟨h₁, h₂⟩ := addItem_foldl (t.add false s) is
    rw [List.foldl_cons]
    refine ⟨h₁.trans ?_, h₂⟩
    simp [add, Item.segment?]

theorem plainSegments_eq (file : Option String) (text : String) :
    plainSegments file text = (items file text).filterMap Item.segment? := by
  obtain ⟨h₁, h₂⟩ := addItem_foldl { root := file } (items file text)
  simp only [plainSegments, parsePlain]
  split
  · show ((items file text).foldl addItem _).segments ++ ((items file text).foldl addItem _).helpers = _
    rw [h₁, h₂]
    simp
  · exact h₁

/-! ## Expansion -/

section
variable {files : FileTree} {source : IncludeSource}

theorem fault?_eq_none {file : Option String} {text : String} :
    (Scanner.ofText file text).stream.fault? = none ↔ ∃ ts, tokenize file text = .ok ts := by
  unfold TokenStream.fault? tokenize
  cases h : (Scanner.ofText file text).stream.ending <;> simp [h, Except.map]

theorem fault?_eq_some {file : Option String} {text : String} {f : SyntaxFault} :
    (Scanner.ofText file text).stream.fault? = some f ↔ tokenize file text = .error f := by
  unfold TokenStream.fault? tokenize
  cases h : (Scanner.ofText file text).stream.ending <;> simp [h, Except.map]

theorem load_of_included {active : List String} {file : Option String} {d : Directive}
    {i : { i : Include // i.name ∈ source.names ∧ i.name ∉ active }}
    (h : included files source active file d = .ok i) : ∃ request, source.load request = some i.val := by
  unfold included at h
  split at h
  · split at h
    · cases h
    · rename_i j hj
      split at h
      · cases h
      · cases h
        exact ⟨_, hj⟩
  · cases h

def extend (t : Template) (segments helpers : List Segment) (errors : Diagnostics) : Template :=
  { t with
    segments := t.segments ++ segments
    helpers := t.helpers ++ helpers
    errors := t.errors ++ errors }

theorem extend_extend (t : Template) (s s' h h' : List Segment) (e e' : Diagnostics) :
    (t.extend s h e).extend s' h' e' = t.extend (s ++ s') (h ++ h') (e ++ e') := by
  simp [extend]

theorem extend_nil (t : Template) : t.extend [] [] [] = t := by
  simp [extend]

theorem add_eq (t : Template) (inside : Bool) (s : Segment) :
    t.add inside s = t.extend ([s].filter fun s => !(inside && s.isHelper))
      ([s].filter fun s => inside && s.isHelper) [] := by
  unfold add extend
  cases inside <;> cases hs : s.isHelper <;> simp [hs]

variable (files source) in
/-- The segments that items leave in their place. -/
def body (active : List String) (file : Option String) (inside : Bool) (is : List Item) : List Segment :=
  ((is.filterMap Item.segment?).flatMap (replacement files source active file)).filter
    fun s => !(inside && s.isHelper)

variable (files source) in
/-- The helpers that items leave for the end. -/
def later (active : List String) (file : Option String) (inside : Bool) (is : List Item) : List Segment :=
  (is.filterMap Item.segment?).flatMap fun s =>
    [s].filter (fun s => inside && s.isHelper) ++ hoisted files source active file s

section
variable {active : List String} {file : Option String} {d : Directive}

theorem replacement_ordinary (h : ¬ d.isNamed "include") :
    replacement files source active file (.directive d) = [.directive d] := by
  rw [replacement, if_neg h]

theorem replacement_error {e : IncludeError} (hd : d.isNamed "include")
    (h : included files source active file d = .error e) :
    replacement files source active file (.directive d) = [] := by
  rw [replacement, if_pos hd]
  simp only [h]

theorem replacement_ok {i : { i : Include // i.name ∈ source.names ∧ i.name ∉ active }}
    (hd : d.isNamed "include") (h : included files source active file d = .ok i) :
    replacement files source active file (.directive d) =
      body files source (i.val.name :: active) (some i.val.name) true
        (items (some i.val.name) i.val.content) := by
  rw [replacement, if_pos hd]
  simp only [h, plainSegments_eq, body, Bool.true_and]

theorem hoisted_ordinary (h : ¬ d.isNamed "include") :
    hoisted files source active file (.directive d) = [] := by
  rw [hoisted, if_neg h]

theorem hoisted_error {e : IncludeError} (h : included files source active file d = .error e) :
    hoisted files source active file (.directive d) = [] := by
  rw [hoisted]
  simp only [h, ite_self]

theorem hoisted_ok {i : { i : Include // i.name ∈ source.names ∧ i.name ∉ active }}
    (hd : d.isNamed "include") (h : included files source active file d = .ok i) :
    hoisted files source active file (.directive d) =
      later files source (i.val.name :: active) (some i.val.name) true
        (items (some i.val.name) i.val.content) := by
  rw [hoisted, if_pos hd]
  simp only [h, plainSegments_eq, later, Bool.true_and]

theorem filter_replacement (inside : Bool) : (replacement files source active file (.directive d)).filter
    (fun s => !(inside && s.isHelper)) = replacement files source active file (.directive d) := by
  refine List.filter_eq_self.2 fun s hs => ?_
  by_cases hd : d.isNamed "include"
  · cases h : included files source active file d with
    | error e => rw [replacement_error hd h] at hs; cases hs
    | ok i =>
      rw [replacement_ok hd h] at hs
      have := (List.mem_filter.1 hs).2
      simp_all
  · rw [replacement_ordinary hd] at hs
    rw [List.mem_singleton.1 hs]
    simp [Segment.isHelper]

end

theorem body_segment (active : List String) (file : Option String) (inside : Bool) (s : Segment)
    (is : List Item) : body files source active file inside (.segment s :: is) =
      (replacement files source active file s).filter (fun s => !(inside && s.isHelper)) ++
        body files source active file inside is := by
  simp [body, Item.segment?]

theorem later_segment (active : List String) (file : Option String) (inside : Bool) (s : Segment)
    (is : List Item) : later files source active file inside (.segment s :: is) =
      [s].filter (fun s => inside && s.isHelper) ++ hoisted files source active file s ++
        later files source active file inside is := by
  simp [later, Item.segment?]

/-- The items of a text add its body, its helpers and its failures, whatever includes what. -/
theorem expand_eq (files : FileTree) (h : source.Readable) (active : List String) (file : Option String)
    (inside : Bool) (ending : Option SyntaxFault) (t : Template) (is : List Item) :
    expand files source active file inside ending t is =
      (t.extend (body files source active file inside is) (later files source active file inside is)
        (is.flatMap (failures files source t.root active file)), ending) := by
  fun_induction expand files source active file inside ending t is with
  | case1 active file inside ending t => exact congrArg (·, ending) (extend_nil t).symm
  | case2 active file inside ending t l is ih =>
    rw [ih, List.flatMap_cons, failures]
    have : t.logNameless l = t.extend [] [] [.error "TT1002" "Directive value without name" (t.place l)] := by
      simp [logNameless, logError, extend]
    rw [this, extend_extend]
    rfl
  | case3 active file inside ending t s is ih =>
    rw [ih, add_eq, extend_extend, body_segment, later_segment, List.flatMap_cons, failures, replacement,
      hoisted, List.append_nil]
    rfl
  | case4 active file inside ending t d is hd e he ih =>
    have hf : failures files source t.root active file (.segment (.directive d)) =
        [.error e.code e.message (t.place d.start)] := by
      rw [failures, if_pos hd]
      simp only [he]
      rfl
    have hl : t.logError e.code e.message d.start =
        t.extend [] [] [.error e.code e.message (t.place d.start)] := by simp [logError, extend]
    rw [ih, hl, extend_extend, body_segment, later_segment, List.flatMap_cons, hf, filter_replacement,
      replacement_error hd he, hoisted_error he]
    simp [Segment.isHelper]
    rfl
  | case5 active file inside ending t d is hd i hi stream t' f hx ih =>
    -- an included text has no fault to pass on
    obtain ⟨request, hr⟩ := load_of_included hi
    have hn : stream.fault? = none := fault?_eq_none.2 (h request i.val hr)
    rw [hx, hn] at ih
    cases congrArg Prod.snd ih
  | case6 active file inside ending t d is hd i hi stream t' hx ih ih' =>
    have hf : failures files source t.root active file (.segment (.directive d)) =
        (items (some i.val.name) i.val.content).flatMap
          (failures files source t.root (i.val.name :: active) (some i.val.name)) := by
      rw [failures, if_pos hd]
      simp only [hi]
    obtain rfl : t' = t.extend
        (body files source (i.val.name :: active) (some i.val.name) true (items (some i.val.name) i.val.content))
        (later files source (i.val.name :: active) (some i.val.name) true (items (some i.val.name) i.val.content))
        ((items (some i.val.name) i.val.content).flatMap
          (failures files source t.root (i.val.name :: active) (some i.val.name))) :=
      congrArg Prod.fst (hx.symm.trans ih)
    rw [ih', extend_extend, body_segment, later_segment, List.flatMap_cons, hf, filter_replacement,
      replacement_ok hd hi, hoisted_ok hd hi]
    simp [Segment.isHelper]
    rfl
  | case7 active file inside ending t d is hd ih =>
    rw [ih, add_eq, extend_extend, body_segment, later_segment, List.flatMap_cons, failures, if_neg hd,
      replacement_ordinary hd, hoisted_ordinary hd, List.append_nil]
    rfl

/-! ## No `include` is left -/

theorem not_include_of_mem_replacement {d : Directive} (active : List String) (file : Option String)
    (s : Segment) : .directive d ∈ replacement files source active file s → ¬ d.isNamed "include" := by
  fun_induction replacement files source active file s with
  | case1 active file s => simp
  | case2 active file d' hd e he => simp
  | case3 active file d' hd i hi ih =>
    intro h
    obtain ⟨s, -, hs⟩ := List.mem_flatMap.1 (List.mem_filter.1 h).1
    exact ih s hs
  | case4 active file d' hd =>
    intro h
    obtain rfl := Segment.directive.inj (List.mem_singleton.1 h)
    exact hd

theorem isHelper_of_mem_hoisted {x : Segment} (active : List String) (file : Option String)
    (s : Segment) : x ∈ hoisted files source active file s → x.isHelper := by
  fun_induction hoisted files source active file s with
  | case1 active file s => simp
  | case2 active file d hd e he => simp
  | case3 active file d hd i hi ih =>
    intro h
    obtain ⟨s, -, hs⟩ := List.mem_flatMap.1 h
    rcases List.mem_append.1 hs with hs | hs
    · exact (List.mem_filter.1 hs).2
    · exact ih s hs
  | case4 active file d hd => simp

theorem not_include_of_mem_flatMap {d : Directive} {active : List String} {file : Option String}
    {ss : List Segment} (h : .directive d ∈ ss.flatMap (replacement files source active file) ++
      ss.flatMap (hoisted files source active file)) : ¬ d.isNamed "include" := by
  rcases List.mem_append.1 h with h | h
  · obtain ⟨s, -, hs⟩ := List.mem_flatMap.1 h
    exact not_include_of_mem_replacement active file s hs
  · obtain ⟨s, -, hs⟩ := List.mem_flatMap.1 h
    cases isHelper_of_mem_hoisted active file s hs

theorem body_root (active : List String) (file : Option String) (text : String) :
    body files source active file false (items file text) =
      (plainSegments file text).flatMap (replacement files source active file) := by
  simp [body, plainSegments_eq]

theorem later_root (active : List String) (file : Option String) (text : String) :
    later files source active file false (items file text) =
      (plainSegments file text).flatMap (hoisted files source active file) := by
  simp [later, plainSegments_eq]

theorem ofText_expand (files : FileTree) (source : IncludeSource) (file : Option String) (text : String) :
    ofText files source file text =
      match expand files source file.toList file false (Scanner.ofText file text).stream.fault?
        { root := file } (items file text) with
      | (t, none) => t.placeHelpers
      | (t, some f) => t.recordFault f := by
  simp only [ofText, parse, items]
  rw [show (Scanner.ofText file text).location.file = file from rfl]
  obtain ⟨t, _ | f⟩ := expand files source file.toList file false _ _ _ <;> rfl

theorem ofText_eq (h : source.Readable) (file : Option String) (text : String) :
    ofText files source file text =
      let t := extend { root := file }
        ((plainSegments file text).flatMap (replacement files source file.toList file))
        ((plainSegments file text).flatMap (hoisted files source file.toList file))
        ((items file text).flatMap (failures files source file file.toList file))
      match (Scanner.ofText file text).stream.fault? with
      | none => t.placeHelpers
      | some f => t.recordFault f := by
  rw [ofText_expand, expand_eq files h, body_root, later_root]
  cases (Scanner.ofText file text).stream.fault? <;> rfl

end

/-- **Splicing.** A template holds the segments of its text, every `include` replaced by the body of
the included text without helpers, or by nothing if it fails, and then the helpers of all included
texts in the order they were found. Its errors are the failed `include`s and the values without a
name. After a fault in the text itself the helpers are missing, and the fault is the last error. -/
theorem ofText_spliced (files : FileTree) (source : IncludeSource) (h : source.Readable)
    (file : Option String) (text : String) :
    let spliced := (plainSegments file text).flatMap (replacement files source file.toList file)
    let helpers := (plainSegments file text).flatMap (hoisted files source file.toList file)
    let errors := (items file text).flatMap (failures files source file file.toList file)
    (∀ ts, tokenize file text = .ok ts →
      (ofText files source file text).segments = spliced ++ helpers ∧
        (ofText files source file text).errors = errors) ∧
    (∀ f, tokenize file text = .error f →
      (ofText files source file text).segments = spliced ∧
        (ofText files source file text).errors =
          errors ++ [.error "TT1001" f.message (place { root := file } f.location)]) ∧
    ∀ d ∈ (ofText files source file text).directives, ¬ d.isNamed "include" := by
  intro spliced helpers errors
  have hall : ∀ d, .directive d ∈ spliced ++ helpers → ¬ d.isNamed "include" :=
    fun d => not_include_of_mem_flatMap
  rw [ofText_eq h]
  refine ⟨fun ts hts => ?_, fun f hf => ?_, fun d hd => ?_⟩
  · rw [fault?_eq_none.2 ⟨ts, hts⟩]
    exact ⟨by simp [extend, placeHelpers, spliced, helpers], by simp [extend, placeHelpers, errors]⟩
  · rw [fault?_eq_some.2 hf]
    exact ⟨by simp [extend, recordFault, logError, spliced],
      by simp [extend, recordFault, logError, errors, place]⟩
  · obtain ⟨s, hs, hd⟩ := List.mem_filterMap.1 hd
    cases s with
    | text s => cases hd
    | directive d' =>
      obtain rfl := Option.some.inj hd
      refine hall _ ?_
      cases hf : (Scanner.ofText file text).stream.fault? with
      | none =>
        simp only [hf] at hs
        exact hs
      | some f =>
        simp only [hf] at hs
        exact List.mem_append_left _ hs

/-! ## Helpers of included texts -/

def helperSource : IncludeSource := .ofList [("h", ⟨"<#+ f #>", "h"⟩)]

theorem readable_helperSource : helperSource.Readable := by
  intro request i h
  obtain ⟨p, hp, rfl⟩ := Option.map_eq_some_iff.1 h
  obtain rfl := List.mem_singleton.1 (List.mem_of_find?_eq_some hp)
  exact fault?_eq_none.1 (by cbv)

/-- The helper moves from the middle of the text to its end. -/
theorem ofText_spliced_helperSource : helperSource.Readable ∧
    (ofText {} helperSource none "a<#@ include file='h' #>b").texts.map (·.text) = ["a", "b", " f "] := by
  refine ⟨readable_helperSource, ?_⟩
  obtain ⟨ts, hts⟩ : ∃ ts, tokenize none "a<#@ include file='h' #>b" = .ok ts := fault?_eq_none.1 (by cbv)
  obtain ⟨hok, -⟩ := ofText_spliced {} helperSource readable_helperSource none "a<#@ include file='h' #>b"
  unfold texts
  rw [(hok ts hts).1]
  cbv

/-- After a fault in the text itself no helper is put at the end. -/
theorem ofText_helperSource_fault : helperSource.Readable ∧
    (ofText {} helperSource none "<#@ include file='h' #><# x").segments ≠
      (plainSegments none "<#@ include file='h' #><# x").flatMap (replacement {} helperSource [] none) ++
        (plainSegments none "<#@ include file='h' #><# x").flatMap (hoisted {} helperSource [] none) ∧
    (ofText {} helperSource none "<#@ include file='h' #><# x").errors ≠
      (items none "<#@ include file='h' #><# x").flatMap (failures {} helperSource none [] none) := by
  refine ⟨readable_helperSource, ?_⟩
  have hf : (Scanner.ofText none "<#@ include file='h' #><# x").stream.fault? =
      some ⟨.unexpectedEnd, ⟨none, 1, 29⟩⟩ := by cbv
  have hp : ((plainSegments none "<#@ include file='h' #><# x").flatMap
      (hoisted {} helperSource [] none)).length = 1 := by cbv
  rw [ofText_eq readable_helperSource, hf]
  constructor
  · intro h
    have := congrArg List.length h
    rw [List.length_append, hp] at this
    exact absurd this (Nat.ne_of_lt (Nat.lt_succ_self _))
  · intro h
    have := congrArg List.length h
    simp [extend, recordFault, logError] at this

end Template

end Templating
