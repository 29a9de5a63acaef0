import Mathlib
import Templating.Proofs.Scanning
import Templating.Template

/-!
# Directives read back

A directive may be written with any blanks around its names, equals signs and quoted values. It is read
as the one directive that was written (`parsePlain_written`): of an attribute given more than once, the
first place and spelling and the last value count.
-/

namespace Templating

/-! ## Names and values -/

namespace Directive

/-- Each name once, as it is spelled first. -/
def firstSpelled : List (String × String) → List String
  | [] => []
  | a :: r => a.1 :: (firstSpelled r).filter fun k => !Text.sameIgnoringCase a.1 k

def lastValue? (attributes : List (String × String)) (key : String) : Option String :=
  (attributes.reverse.find? fun a => Text.sameIgnoringCase a.1 key).map (·.2)

/-- The attributes of a directive that is given some, one after the other. -/
def assigned (attributes : List (String × String)) : List (String × String) :=
  attributes.foldl (fun l a => setIn a.1 a.2 l) []

section
variable {attributes l : List (String × String)} {a : String × String} {k k' v key : String}

theorem assigned_concat (attributes : List (String × String)) (a : String × String) :
    assigned (attributes ++ [a]) = setIn a.1 a.2 (assigned attributes) := by
  simp [assigned]

theorem setIn_of_new (h : ∀ a ∈ l, ¬ Text.sameIgnoringCase a.1 k) : setIn k v l = l ++ [(k, v)] := by
  induction l with
  | nil => rfl
  | cons a l ih =>
    rw [setIn, if_neg (h a List.mem_cons_self), ih fun b hb => h b (List.mem_cons_of_mem a hb)]
    rfl

theorem names_setIn : (setIn k v l).map Prod.fst =
    if l.any fun a => Text.sameIgnoringCase a.1 k then l.map Prod.fst else l.map Prod.fst ++ [k] := by
  induction l with
  | nil => rfl
  | cons a l ih =>
    by_cases ha : Text.sameIgnoringCase a.1 k
    · simp [setIn, ha]
    · rw [setIn, if_neg ha, List.map_cons, ih, List.any_cons]
      by_cases hl : l.any fun a => Text.sameIgnoringCase a.1 k <;> simp [ha, hl]

theorem find?_setIn : ((setIn k v l).find? fun a => Text.sameIgnoringCase a.1 key).map (·.2) =
    if Text.sameIgnoringCase k key then some v
    else (l.find? fun a => Text.sameIgnoringCase a.1 key).map (·.2) := by
  induction l with
  | nil => by_cases hk : Text.sameIgnoringCase k key <;> simp [setIn, hk]
  | cons a l ih =>
    by_cases ha : Text.sameIgnoringCase a.1 k
    · have hsame : Text.sameIgnoringCase a.1 key = Text.sameIgnoringCase k key := by
        simp [Text.sameIgnoringCase, Text.sameIgnoringCase_iff.1 ha]
      by_cases hk : Text.sameIgnoringCase k key <;> simp [setIn, ha, hsame, hk]
    · rw [setIn, if_neg ha]
      by_cases hkey : Text.sameIgnoringCase a.1 key
      · have hk : ¬ Text.sameIgnoringCase k key := by
          intro hk
          rw [Text.sameIgnoringCase_iff] at ha hkey hk
          exact ha (hkey.trans hk.symm)
        simp [hkey, hk]
      · simpa [hkey] using ih

theorem any_firstSpelled : (firstSpelled attributes).any (fun k => Text.sameIgnoringCase k key) =
    attributes.any fun a => Text.sameIgnoringCase a.1 key := by
  induction attributes with
  | nil => rfl
  | cons a attributes ih =>
    rw [firstSpelled, List.any_cons, List.any_cons, List.any_filter, ← ih]
    by_cases ha : Text.sameIgnoringCase a.1 key
    · simp [ha]
    -- spellings of the first name are gone from the rest, and the key is none of them
    · congr 2
      funext k
      by_cases hk : Text.sameIgnoringCase k key
      · have : Text.sameIgnoringCase a.1 k = false := by
          rw [Text.sameIgnoringCase_iff] at ha hk
          simpa [Text.sameIgnoringCase, hk] using ha
        simp [this]
      · simp [hk]

theorem firstSpelled_concat : firstSpelled (attributes ++ [a]) =
    if attributes.any fun b => Text.sameIgnoringCase b.1 a.1 then firstSpelled attributes
    else firstSpelled attributes ++ [a.1] := by
  induction attributes with
  | nil => rfl
  | cons b attributes ih =>
    rw [List.cons_append, firstSpelled, firstSpelled, ih, List.any_cons]
    by_cases hb : Text.sameIgnoringCase b.1 a.1
    · by_cases hl : attributes.any fun b => Text.sameIgnoringCase b.1 a.1 <;> simp [hb, hl]
    · by_cases hl : attributes.any fun b => Text.sameIgnoringCase b.1 a.1 <;> simp [hb, hl]

theorem names_assigned (attributes : List (String × String)) :
    (assigned attributes).map Prod.fst = firstSpelled attributes := by
  induction attributes using List.reverseRecOn with
  | nil => rfl
  | append_singleton attributes a ih =>
    have hany : ((assigned attributes).any fun b => Text.sameIgnoringCase b.1 a.1) =
        attributes.any fun b => Text.sameIgnoringCase b.1 a.1 := by
      refine Eq.trans ?_ any_firstSpelled
      rw [← ih, List.any_map]
      rfl
    rw [assigned_concat, names_setIn, ih, firstSpelled_concat, hany]

theorem lastValue?_concat : lastValue? (attributes ++ [a]) key =
    if Text.sameIgnoringCase a.1 key then some a.2 else lastValue? attributes key := by
  by_cases ha : Text.sameIgnoringCase a.1 key <;> simp [lastValue?, ha]

theorem find?_assigned (attributes : List (String × String)) (key : String) :
    ((assigned attributes).find? fun a => Text.sameIgnoringCase a.1 key).map (·.2) =
      lastValue? attributes key := by
  induction attributes using List.reverseRecOn with
  | nil => rfl
  | append_singleton attributes a ih =>
    rw [assigned_concat, find?_setIn, ih, lastValue?_concat]

theorem assigned_of_distinct (h : attributes.Pairwise fun a b => ¬ Text.sameIgnoringCase a.1 b.1) :
    assigned attributes = attributes := by
  induction attributes using List.reverseRecOn with
  | nil => rfl
  | append_singleton attributes a ih =>
    rw [List.pairwise_append] at h
    rw [assigned_concat, ih h.1, setIn_of_new]
    exact fun b hb => h.2.2 b hb a (List.mem_singleton_self a)

theorem lastValue?_of_distinct (h : attributes.Pairwise fun a b => ¬ Text.sameIgnoringCase a.1 b.1)
    (ha : a ∈ attributes) (hkey : Text.sameIgnoringCase a.1 key) : lastValue? attributes key = some a.2 := by
  induction attributes using List.reverseRecOn with
  | nil => cases ha
  | append_singleton attributes b ih =>
    rw [List.pairwise_append] at h
    rw [lastValue?_concat]
    rcases List.mem_append.1 ha with ha | ha
    · have hb : ¬ Text.sameIgnoringCase b.1 key := by
        have := h.2.2 a ha b (List.mem_singleton_self b)
        rw [Text.sameIgnoringCase_iff] at this hkey ⊢
        exact fun hb => this (hkey.trans hb.symm)
      rw [if_neg hb]
      exact ih h.1 ha
    · obtain rfl := List.mem_singleton.1 ha
      simp [hkey]

end

end Directive

/-! ## Written directives -/

namespace Grammar

/-- A letter with letters and digits after it. -/
def IsWord (n : List Char) : Prop :=
  ∃ c r, n = c :: r ∧ Text.isAlphabetic c ∧ ∀ x ∈ r, Text.isAlphanumeric x

/-- An attribute with the blanks in front of its name and around its equals sign. -/
structure AttributeText where
  gap : List Char
  name : List Char
  before : List Char
  after : List Char
  quote : Char
  value : List Char

namespace AttributeText

def source (a : AttributeText) : List Char :=
  a.gap ++ a.name ++ a.before ++ '=' :: (a.after ++ a.quote :: (a.value ++ [a.quote]))

structure Valid (a : AttributeText) : Prop where
  gap : Blanks a.gap
  name : IsWord a.name
  before : Blanks a.before
  after : Blanks a.after
  quote : IsQuote a.quote
  value : a.quote ∉ a.value

def pair (a : AttributeText) : String × String :=
  (String.ofList a.name, String.ofList a.value)

end AttributeText

/-- A directive as it is written, from its tag's opening to its end. -/
structure WrittenDirective where
  gap : List Char
  name : List Char
  attributes : List AttributeText
  last : List Char

namespace WrittenDirective

def source (w : WrittenDirective) : List Char :=
  '<' :: '#' :: '@' :: (w.gap ++ w.name ++ w.attributes.flatMap AttributeText.source ++ w.last ++ ['#', '>'])

structure Valid (w : WrittenDirective) : Prop where
  gap : Blanks w.gap
  name : IsWord w.name
  attributes : ∀ a ∈ w.attributes, a.Valid
  /-- A blank ends the name of the directive where an attribute follows. -/
  separated : ∀ a ∈ w.attributes.head?, a.gap ≠ []
  last : Blanks w.last

def pairs (w : WrittenDirective) : List (String × String) :=
  w.attributes.map AttributeText.pair

end WrittenDirective

/-! ## Readings of written directives -/

/-- Attributes as the inside of a tag. -/
def inside (last : List Char) : List AttributeText → DirectiveText
  | [] => .close last
  | a :: as => .name a.gap a.name (.value a.before a.after a.quote a.value (inside last as))

theorem inside_source (last : List Char) (as : List AttributeText) :
    (inside last as).source = as.flatMap AttributeText.source ++ last ++ ['#', '>'] := by
  induction as with
  | nil => rfl
  | cons a as ih => simp [inside, DirectiveText.source, AttributeText.source, ih]

theorem IsWord.isName {n following : List Char} (h : IsWord n)
    (hf : ∀ c ∈ following.head?, ¬ Text.isAlphanumeric c) : IsName n following := by
  obtain ⟨c, r, rfl, hc, hr⟩ := h
  refine ⟨⟨c, r, rfl, hc⟩, ?_, hf⟩
  simpa [Text.isAlphanumeric, hc] using hr

theorem not_isAlphanumeric_head {gap y : List Char} {c : Char} (hgap : Blanks gap)
    (hc : ¬ Text.isAlphanumeric c) : ∀ x ∈ (gap ++ c :: y).head?, ¬ Text.isAlphanumeric x := by
  cases gap with
  | nil => simpa using hc
  | cons x gap => simpa using not_isAlphanumeric_of_isBlank (hgap x List.mem_cons_self)

theorem inside_valid {last : List Char} (hlast : Blanks last) : ∀ {as : List AttributeText},
    (∀ a ∈ as, a.Valid) → (inside last as).Valid
  | [], _ => hlast
  | a :: as, h => by
    have ha := h a List.mem_cons_self
    refine ⟨ha.gap, ha.name.isName ?_, ha.before, ha.after, ha.quote, ha.value, ?_⟩
    · exact not_isAlphanumeric_head ha.before (by decide)
    · exact inside_valid hlast fun b hb => h b (List.mem_cons_of_mem a hb)

namespace WrittenDirective

variable {w : WrittenDirective}

def text (w : WrittenDirective) : DirectiveText :=
  .name w.gap w.name (inside w.last w.attributes)

def reading (w : WrittenDirective) : Reading :=
  .directive [] w.text [] (.text [])

theorem reading_source (w : WrittenDirective) : w.reading.source = w.source := by
  simp [reading, Reading.source, text, DirectiveText.source, inside_source, source]

theorem Valid.text (h : w.Valid) : w.text.Valid := by
  refine ⟨h.gap, h.name.isName ?_, inside_valid h.last h.attributes⟩
  cases hw : w.attributes with
  | nil => exact not_isAlphanumeric_head h.last (by decide)
  | cons a as =>
    have hgap := h.separated a (by simp [hw])
    have hblank := (h.attributes a (by simp [hw])).gap
    cases hg : a.gap with
    | nil => exact absurd hg hgap
    | cons x gap =>
      have hx : Text.isBlank x := hblank x (by simp [hg])
      simpa [inside, DirectiveText.source, hg] using not_isAlphanumeric_of_isBlank hx

theorem Valid.reading (h : w.Valid) : w.reading.Valid := by
  refine ⟨?_, h.text, ?_, ?_⟩
  · simp [NoOpening]
  · exact ⟨by simp [lineBreaks], by simp [lineBreaks, Reading.source]⟩
  · simp [Reading.Valid, NoTag]

end WrittenDirective

end Grammar

/-! ## Tokens of a written directive -/

namespace Item

section
variable {o : Opened} {t : Token} {ts : List Token}

theorem ofTokens_name (h : t.kind = .directiveName) :
    ofTokens (some o) (t :: ts) = ofTokens (some (o.name t)) ts := by
  simp [ofTokens, h, TokenKind.segmentKind?]

theorem ofTokens_value (h : t.kind = .directiveValue) :
    ofTokens (some o) (t :: ts) = (o.value t).2 ++ ofTokens (some (o.value t).1) ts := by
  simp [ofTokens, h, TokenKind.segmentKind?]

theorem ofTokens_between (h : t.kind = .directive ∨ t.kind = .eof) :
    ofTokens (some o) (t :: ts) = ofTokens (some (o.between t)) ts := by
  rcases h with h | h <;> simp [ofTokens, h, TokenKind.segmentKind?]

theorem ofTokens_opening (h : t.kind = .directive) :
    ofTokens none (t :: ts) = ofTokens (some {}) ts := by
  simp [ofTokens, h, TokenKind.segmentKind?]

theorem ofText_empty (kind : SegmentKind) (h : t.value = some "") : ofText kind t = [] := by
  simp [ofText, h]

theorem ofTokens_empty (hkind : t.kind = .content) (hvalue : t.value = some "") :
    ofTokens none (t :: ts) = ofTokens none ts := by
  simp [ofTokens, hkind, TokenKind.segmentKind?, ofText_empty _ hvalue]

theorem ofTokens_close (hkind : t.kind = .content) (hvalue : t.value = some "") :
    ofTokens (some o) (t :: ts) = o.close ++ ofTokens none ts := by
  simp [ofTokens, hkind, TokenKind.segmentKind?, ofText_empty _ hvalue]

end

open Grammar

/-- An opened directive takes the attributes of its tag in turn. -/
theorem ofTokens_inside (last : List Char) : ∀ (as : List AttributeText) {o : Opened} {d : Directive}
    {ts : List Token}, ts.map Token.face = (inside last as).faces ++ [(.content, some "")] →
    o.directive = some d → o.key = none →
    ∃ d', ofTokens (some o) ts = [.segment (.directive d')] ∧ d'.name = d.name ∧
      d'.attributes = (as.map AttributeText.pair).foldl (fun l a => Directive.setIn a.1 a.2 l) d.attributes
  | [], o, d, ts, hts, hd, _ => by
    obtain ⟨t, rfl, ht⟩ := List.map_eq_singleton_iff.1 hts
    obtain ⟨hkind, hvalue⟩ := Prod.mk.inj ht
    refine ⟨d, ?_, rfl, rfl⟩
    rw [ofTokens_close hkind hvalue]
    simp [Opened.close, hd, ofTokens]
  | a :: as, o, d, ts, hts, hd, _ => by
    simp only [inside, DirectiveText.faces, List.cons_append] at hts
    obtain ⟨t₁, ts₁, rfl, h₁, hts⟩ := List.map_eq_cons_iff.1 hts
    obtain ⟨t₂, ts₂, rfl, h₂, hts⟩ := List.map_eq_cons_iff.1 hts
    obtain ⟨t₃, ts₃, rfl, h₃, hts⟩ := List.map_eq_cons_iff.1 hts
    obtain ⟨t₄, ts₄, rfl, h₄, hts⟩ := List.map_eq_cons_iff.1 hts
    obtain ⟨hname, hn⟩ := Prod.mk.inj h₁
    obtain ⟨hvalue, hv⟩ := Prod.mk.inj h₃
    -- the name waits in the opened directive until the value is there
    let named := (o.name t₁).between t₂
    have hdirective : named.directive = some { d with ending := t₂.tagEnd } := by
      simp [named, Opened.name, Opened.between, hd]
    have hkey : named.key = some (String.ofList a.name) := by
      simp [named, Opened.name, Opened.between, hd, hn]
    have hset : named.value t₃ = ({ directive := some (({ d with ending := t₂.tagEnd } : Directive).setAttribute
        (String.ofList a.name) (String.ofList a.value)), key := none }, []) := by
      simp [Opened.value, hdirective, hkey, hv]
    obtain ⟨d', hd', hname', hattributes⟩ := ofTokens_inside last as
      (o := ((named.value t₃).1.between t₄)) hts (by rw [hset]; rfl) (by rw [hset]; rfl)
    refine ⟨d', ?_, hname', hattributes⟩
    rw [ofTokens_name hname, ofTokens_between (.inl (congrArg Prod.fst h₂)), ofTokens_value hvalue,
      ofTokens_between (.inl (congrArg Prod.fst h₄)), hd']
    show (named.value t₃).2 ++ _ = _
    rw [hset]
    rfl

theorem ofTokens_written {w : WrittenDirective} {ts : List Token}
    (h : ts.map Token.face = (.content, some "") :: (.directive, none) :: (w.text.faces ++ [(.content, some "")])) :
    ∃ d, ofTokens none ts = [.segment (.directive d)] ∧ d.name = String.ofList w.name ∧
      d.attributes = Directive.assigned w.pairs := by
  simp only [WrittenDirective.text, DirectiveText.faces, List.cons_append] at h
  obtain ⟨t₁, ts₁, rfl, h₁, h⟩ := List.map_eq_cons_iff.1 h
  obtain ⟨t₂, ts₂, rfl, h₂, h⟩ := List.map_eq_cons_iff.1 h
  obtain ⟨t₃, ts₃, rfl, h₃, h⟩ := List.map_eq_cons_iff.1 h
  obtain ⟨t₄, ts₄, rfl, h₄, h⟩ := List.map_eq_cons_iff.1 h
  obtain ⟨hkind, hvalue⟩ := Prod.mk.inj h₁
  obtain ⟨hname, hn⟩ := Prod.mk.inj h₃
  obtain ⟨d, hd, hname', hattributes⟩ := ofTokens_inside w.last w.attributes
    (o := ((({} : Opened).name t₃).between t₄)) h rfl rfl
  refine ⟨d, ?_, ?_, hattributes⟩
  · rw [ofTokens_empty hkind hvalue, ofTokens_opening (congrArg Prod.fst h₂), ofTokens_name hname,
      ofTokens_between (.inl (congrArg Prod.fst h₄)), hd]
  · rw [hname', hn]
    rfl

end Item

open Grammar

/-- A directive as it is after it was given some attributes, one after the other. -/
structure Directive.Given (attributes : List (String × String)) (d : Directive) : Prop where
  names : d.attributes.map Prod.fst = firstSpelled attributes
  values : ∀ key, d.attribute? key = lastValue? attributes key
  /-- Nothing is lost where no name is given twice. -/
  distinct : attributes.Pairwise (fun a b => ¬ Text.sameIgnoringCase a.1 b.1) → d.attributes = attributes ∧
    ∀ a ∈ attributes, ∀ key, Text.sameIgnoringCase a.1 key → d.attribute? key = some a.2

theorem Directive.given_of_assigned {attributes : List (String × String)} {d : Directive}
    (h : d.attributes = assigned attributes) : d.Given attributes := by
  have hvalues : ∀ key, d.attribute? key = lastValue? attributes key := by
    intro key
    rw [attribute?, h, find?_assigned]
  constructor
  · rw [h, names_assigned]
  · exact hvalues
  · intro hdistinct
    refine ⟨by rw [h, assigned_of_distinct hdistinct], fun a ha key hkey => ?_⟩
    rw [hvalues, lastValue?_of_distinct hdistinct ha hkey]

/-- **Directives are read back as written.** A text that is one directive gives that directive and nothing
else, without an error, whatever blanks and quotes it is written with. -/
theorem parsePlain_written (root file : Option String) {w : WrittenDirective} (h : w.Valid) :
    ∃ d, Template.parsePlain { root } (.ofText file (String.ofList w.source)) =
        ({ root, segments := [.directive d] }, none) ∧
      d.name = String.ofList w.name ∧ d.Given w.pairs := by
  let s := Scanner.ofText file (String.ofList w.source)
  have hrun : s.stream.faces? = some w.reading.faces := by
    refine faces?_eq_some_of_run (run_of_valid h.reading) s rfl ?_
    simp [s, Scanner.ofText, WrittenDirective.reading_source]
  unfold TokenStream.faces? at hrun
  split at hrun
  · rename_i eof hending
    have hfaces : s.stream.tokens.map Token.face ++ [eof.face] =
        ((.content, some "") :: (.directive, none) :: (w.text.faces ++ [(.content, some "")])) ++ [(.eof, none)] := by
      simpa [WrittenDirective.reading, Reading.faces] using hrun
    obtain ⟨d, hd, hname, hattributes⟩ := Item.ofTokens_written (List.append_inj' hfaces rfl).1
    refine ⟨d, ?_, hname, Directive.given_of_assigned hattributes⟩
    have hfault : s.stream.fault? = none := by rw [TokenStream.fault?, hending]
    simp only [Template.parsePlain, s] at hfault hd ⊢
    rw [hfault, hd]
    rfl
  · cases hrun

/-- A directive with an attribute given twice, with a closing tag and the other quote in its values. -/
def twiceGiven : WrittenDirective where
  gap := []
  name := ['a']
  attributes := [⟨[' ', '\r', '\n'], ['X'], [' '], ['\t'], '\'', ['#', '>', '"']⟩,
    ⟨[], ['x'], [], [], '"', ['=', '\'']⟩]
  last := ['\n']

theorem parsePlain_written_twiceGiven : twiceGiven.Valid ∧
    twiceGiven.source = "<#@a \r\nX =\t'#>\"'x=\"='\"\n#>".toList ∧
    ∃ d, Template.parsePlain { root := none } (.ofText none (String.ofList twiceGiven.source)) =
        ({ root := none, segments := [.directive d] }, none) ∧
      d.name = "a" ∧ d.attributes.map Prod.fst = ["X"] ∧ d.attribute? "x" = some "='" := by
  have hvalid : twiceGiven.Valid := by
    constructor
    · simp [twiceGiven, Blanks]
    · exact ⟨'a', [], rfl, by decide, by simp⟩
    · simp only [twiceGiven, List.mem_cons, List.not_mem_nil, or_false, forall_eq_or_imp, forall_eq]
      constructor
      · exact ⟨by simp [Blanks]; decide, ⟨'X', [], rfl, by decide, by simp⟩, by simp [Blanks]; decide,
          by simp [Blanks]; decide, .inl rfl, by simp⟩
      · exact ⟨by simp [Blanks], ⟨'x', [], rfl, by decide, by simp⟩, by simp [Blanks], by simp [Blanks],
          .inr rfl, by simp⟩
    · simp [twiceGiven]
    · simp [twiceGiven, Blanks]
      decide
  refine ⟨hvalid, by simp [twiceGiven, WrittenDirective.source, AttributeText.source], ?_⟩
  obtain ⟨d, hd, hname, hgiven⟩ := parsePlain_written none none hvalid
  refine ⟨d, hd, hname, ?_, ?_⟩
  · rw [hgiven.names]
    simp [Directive.firstSpelled, twiceGiven, WrittenDirective.pairs, AttributeText.pair,
      Text.sameIgnoringCase_iff, Text.lower, ← String.toList_inj]
  · rw [hgiven.values]
    decide +kernel

end Templating
