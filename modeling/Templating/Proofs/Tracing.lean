import Mathlib
import Templating.Proofs.Origins
import Templating.Proofs.Places
import Templating.Proofs.Scanning
import Templating.Proofs.Splicing

/-!
# Tracing code to its template

Every piece of code in a template is the body of a tag in one of its texts, without the backslashes
of escaped tags, and the body can be told from the code (`body_of_unescapeTags`). A character of the
code is written once, and the line map leads from there to the character's place in the template
under an exact condition (`locate_code_iff`).
-/

namespace Templating

open Grammar

/-! ## Bodies of tags -/

namespace Grammar

/-- A text with a code tag around a body. -/
def HasTag (cs : List Char) (kind : CodeKind) (raw : List Char) : Prop :=
  ∃ a b, cs = a ++ ('<' :: '#' :: kind.mark ++ (raw ++ '#' :: '>' :: b))

theorem IsBody.escaped {raw : List Char} (h : IsBody raw) {a b : List Char}
    (he : raw = a ++ '#' :: '>' :: b) : a.getLast? = some '\\' := by
  by_contra hne
  have hp : a ++ ['#', '>'] <+: raw ++ ['#', '>'] := ⟨b ++ ['#', '>'], by rw [he]; simp⟩
  have := congrArg List.length (h.shortest a hp hne)
  rw [he] at this
  simp at this

/-- Puts the backslashes back. -/
def escapeTags : List Char → List Char
  | '#' :: '>' :: r => '\\' :: '#' :: '>' :: escapeTags r
  | c :: r => c :: escapeTags r
  | [] => []

theorem escapeTags_cons {c : Char} {r : List Char} (h : ∀ r', c = '#' → r ≠ '>' :: r') :
    escapeTags (c :: r) = c :: escapeTags r := by
  rw [escapeTags]
  exact fun r' hc hr => h r' hc hr

theorem eq_of_unescapeTags_eq {r t : List Char} (h : Scan.unescapeTags r = '>' :: t) :
    ∃ r', r = '>' :: r' := by
  unfold Scan.unescapeTags at h
  split at h
  · simp at h
  · exact ⟨_, congrArg (· :: _) (List.cons.inj h).1⟩
  · cases h

theorem escapeTags_unescapeTags {raw : List Char}
    (h : ∀ a b, raw = a ++ '#' :: '>' :: b → a.getLast? = some '\\') :
    escapeTags (Scan.unescapeTags raw) = raw := by
  fun_induction Scan.unescapeTags raw with
  | case1 r ih =>
    rw [escapeTags, ih]
    intro a b hr
    have := h ('\\' :: '#' :: '>' :: a) b (congrArg ('\\' :: '#' :: '>' :: ·) hr)
    cases a with
    | nil => simp at this
    | cons x a => simpa using this
  | case2 c r hc ih =>
    rw [escapeTags_cons, ih]
    · intro a b hr
      have := h (c :: a) b (congrArg (c :: ·) hr)
      cases a with
      | nil =>
        have hback : c = '\\' := by simpa using this
        exact (hc b hback hr).elim
      | cons x a => simpa using this
    · intro t hsharp ht
      obtain ⟨r', hr⟩ := eq_of_unescapeTags_eq ht
      have := h [] r' (by rw [hsharp, hr]; rfl)
      simp at this
  | case3 => rfl

/-- The code of a tag determines the body. -/
theorem body_of_unescapeTags {raw raw' : List Char} (h : IsBody raw) (h' : IsBody raw')
    (he : Scan.unescapeTags raw = Scan.unescapeTags raw') : raw = raw' := by
  rw [← escapeTags_unescapeTags fun _ _ => h.escaped, he, escapeTags_unescapeTags fun _ _ => h'.escaped]

/-! ## Bodies of tokens -/

theorem token_injective {c c' : CodeKind} (h : c.token = c'.token) : c = c' := by
  cases c <;> cases c' <;> first | rfl | cases h

theorem reads_append {kind k : TokenKind} {cs t : List Char} {v : Option (List Char)}
    (h : Reads kind cs k v t) :
    ∃ read, cs = read ++ t ∧ ∀ c : CodeKind, k = c.token → ∃ a, read = a ++ '<' :: '#' :: c.mark := by
  cases kind with
  | content =>
    rcases h with ⟨rfl, -, -, rfl⟩ | ⟨x, r, a, rfl, -, rfl, -, rfl⟩
    · exact ⟨cs, by simp, fun c e => by cases c <;> cases e⟩
    · rcases opened_cases x r with ⟨rfl, hx⟩ | ⟨c', hx, hm, -⟩
      · refine ⟨a ++ ['<', '#', '@'], by simp [hx], fun c e => ?_⟩
        rw [hx] at e
        cases c <;> cases e
      · refine ⟨a ++ '<' :: '#' :: c'.mark, ?_, fun c e => ⟨a, by rw [token_injective (hx.symm.trans e)]⟩⟩
        rw [List.append_assoc]
        exact congrArg (a ++ '<' :: '#' :: ·) hm
  | expression =>
    obtain ⟨rfl, r, rfl, -, -⟩ := h
    exact ⟨r ++ ['#', '>'], by simp, fun c e => by cases c <;> cases e⟩
  | block | helper =>
    obtain ⟨rfl, r, n, rfl, -, -, -⟩ := h
    exact ⟨r ++ '#' :: '>' :: n, by simp, fun c e => by cases c <;> cases e⟩
  | directive =>
    obtain ⟨-, gap, y, rfl, -, ⟨rfl, n, rfl, -⟩ | ⟨rfl, rfl, -⟩ | ⟨rfl, rfl⟩⟩ := h
    · exact ⟨gap ++ '#' :: '>' :: n, by simp, fun c e => by cases c <;> cases e⟩
    · exact ⟨gap, rfl, fun c e => by cases c <;> cases e⟩
    · exact ⟨gap ++ ['='], by simp, fun c e => by cases c <;> cases e⟩
  | directiveName =>
    obtain ⟨rfl, c, n, rfl, -⟩ := h
    exact ⟨c :: n, by simp, fun c e => by cases c <;> cases e⟩
  | directiveValue =>
    obtain ⟨rfl, q, text, inner, rfl, -⟩ := h
    exact ⟨inner ++ q :: (text ++ [q]), by simp, fun c e => by cases c <;> cases e⟩
  | eof => exact h.elim

/-- A scanner inside a text; before a body stands the opening of its tag. -/
def Inside (cs : List Char) (s : Scanner) : Prop :=
  ∃ read, cs = read ++ s.cursor.rest ∧
    ∀ c : CodeKind, s.next = c.token → ∃ a, read = a ++ '<' :: '#' :: c.mark

theorem Inside.after {cs : List Char} {s : Scanner} {k : TokenKind} (h : Inside cs s)
    (hne : s.next ≠ .eof) (hk : (s.next.scan s.cursor).next = .ok k) : Inside cs (s.after k) := by
  obtain ⟨read, rfl, -⟩ := h
  obtain ⟨read', hr, hc⟩ := reads_append ((scan_finds_iff hne).1 ⟨hk, rfl, rfl⟩)
  refine ⟨read ++ read', by rw [hr, List.append_assoc]; rfl, fun c e => ?_⟩
  obtain ⟨a, rfl⟩ := hc c e
  exact ⟨read ++ a, (List.append_assoc _ _ _).symm⟩

theorem body_of_mem_stream {cs : List Char} {s : Scanner} (h : Inside cs s) {t : Token}
    (ht : t ∈ s.stream.tokens) {c : CodeKind} (hc : t.kind = c.token) :
    ∃ raw, HasTag cs c raw ∧ IsBody raw ∧ t.value = some (String.ofList (Scan.unescapeTags raw)) := by
  by_cases hne : s.next = .eof
  · rw [Scanner.stream_of_eof hne] at ht
    cases ht
  · cases hk : (s.next.scan s.cursor).next with
    | error f =>
      rw [Scanner.stream_of_error hne hk] at ht
      cases ht
    | ok k =>
      rw [Scanner.stream_of_ok hne hk] at ht
      rcases List.mem_cons.1 ht with rfl | ht
      · -- the scanner stands behind the opening of the tag, and the scan reads up to its end
        obtain ⟨read, rfl, hopen⟩ := h
        have hkind : s.next = c.token := hc
        obtain ⟨a, rfl⟩ := hopen c hkind
        have hr := (scan_finds_iff hne).1 ⟨hk, rfl, rfl⟩
        rw [hkind] at hr
        obtain ⟨-, raw, n, hrest, hbody, -, hv⟩ := (reads_code_iff c).1 hr
        refine ⟨raw, ⟨a, _, by rw [hrest, List.append_assoc]⟩, hbody, ?_⟩
        show (s.next.scan s.cursor).value.map String.ofList = _
        rw [hkind, hv]
        rfl
      · exact body_of_mem_stream (h.after hne hk) ht hc
termination_by s.size
decreasing_by exact TokenKind.size_scan_lt hne hk

end Grammar

/-! ## Code of a template -/

def Grammar.CodeKind.segment : CodeKind → SegmentKind
  | .expression => .expression
  | .helper => .helper
  | .block => .block

/-- Code from a tag in a text, with its body. -/
structure ComesFrom (s : TextSegment) (text : String) (raw : List Char) : Prop where
  tag : ∃ c : CodeKind, s.kind = c.segment ∧ HasTag text.toList c raw
  body : IsBody raw
  text : s.text.toList = Scan.unescapeTags raw

theorem mem_ofText {s : TextSegment} {kind : SegmentKind} {t : Token}
    (h : .segment (.text s) ∈ Item.ofText kind t) : s.kind = kind ∧ s.text = t.value.getD "" := by
  unfold Item.ofText at h
  by_cases he : (t.value.getD "").isEmpty
  · simp [he] at h
  · simp only [if_neg he, List.mem_singleton, Item.segment.injEq, Segment.text.injEq] at h
    rw [h]
    exact ⟨rfl, rfl⟩

theorem not_mem_close {s : TextSegment} {o : Item.Opened} : .segment (.text s) ∉ o.close := by
  unfold Item.Opened.close
  cases o.directive <;> simp

theorem mem_ofTokens {s : TextSegment} (o : Option Item.Opened) (ts : List Token)
    (h : .segment (.text s) ∈ Item.ofTokens o ts) :
    ∃ t ∈ ts, t.kind.segmentKind? = some s.kind ∧ s.text = t.value.getD "" := by
  have hcarries : Item.Carries (fun x => ∀ s, x = .text s →
      ∃ t ∈ ts, t.kind.segmentKind? = some s.kind ∧ s.text = t.value.getD "") (fun _ => True) ts := by
    refine ⟨?_, trivial, fun _ _ _ => id, fun _ _ _ => id, fun _ _ _ => id, ?_⟩
    · rintro t ht kind hk _ hs s rfl
      obtain ⟨rfl, hv⟩ := mem_ofText hs
      exact ⟨t, ht, hk, hv⟩
    · rintro o - _ hs s rfl
      exact absurd hs not_mem_close
  exact hcarries.segments (fun _ _ => trivial) h s rfl

theorem exists_codeKind {k : TokenKind} {kind : SegmentKind} (h : k.segmentKind? = some kind)
    (hne : kind ≠ .content) : ∃ c : CodeKind, k = c.token ∧ kind = c.segment := by
  cases k with
  | block => exact ⟨.block, rfl, (Option.some.inj h).symm⟩
  | expression => exact ⟨.expression, rfl, (Option.some.inj h).symm⟩
  | helper => exact ⟨.helper, rfl, (Option.some.inj h).symm⟩
  | content => exact absurd (Option.some.inj h).symm hne
  | directive | directiveName | directiveValue | eof => cases h

theorem exists_body_of_mem_items {file : Option String} {text : String} {s : TextSegment}
    (h : .segment (.text s) ∈ Template.items file text) (hs : s.kind ≠ .content) :
    ∃ raw, ComesFrom s text raw := by
  obtain ⟨t, ht, hk, hv⟩ := mem_ofTokens _ _ h
  obtain ⟨c, hc, hsc⟩ := exists_codeKind hk hs
  have hin : Inside text.toList (.ofText file text) :=
    ⟨[], rfl, fun c e => by cases c <;> cases e⟩
  obtain ⟨raw, htag, hbody, hval⟩ := body_of_mem_stream hin ht hc
  refine ⟨raw, ⟨c, hsc, htag⟩, hbody, ?_⟩
  rw [hv, hval]
  simp

/-! ## Code of included texts -/

namespace Template

/-- A text that a template is made from: its own, or one that can be included. -/
def MadeFrom (source : IncludeSource) (text t : String) : Prop :=
  t = text ∨ ∃ request i, source.load request = some i ∧ t = i.content

/-- All texts of a template, those of waiting helpers too, have a property. -/
def AllTexts (P : TextSegment → Prop) (t : Template) : Prop :=
  ∀ s, .text s ∈ t.segments ++ t.helpers → P s

theorem AllTexts.add {P : TextSegment → Prop} {t : Template} (h : t.AllTexts P) (inside : Bool)
    {s : Segment} (hs : ∀ s', s = .text s' → P s') : (t.add inside s).AllTexts P := by
  intro s' hs'
  have hmem : .text s' ∈ t.segments ++ t.helpers ∨ s = .text s' := by
    unfold Template.add at hs'
    split at hs' <;> simp only [List.mem_append, List.mem_singleton] at hs' ⊢ <;> tauto
  exact hmem.elim (h s') (hs s')

theorem AllTexts.expand (files : FileTree) {source : IncludeSource} {P : TextSegment → Prop}
    (hP : ∀ request i, source.load request = some i →
      ∀ s, .segment (.text s) ∈ items (some i.name) i.content → P s)
    (active : List String) (file : Option String) (inside : Bool) (ending : Option SyntaxFault)
    (t : Template) (is : List Item) (ht : t.AllTexts P) (his : ∀ s, .segment (.text s) ∈ is → P s) :
    (Template.expand files source active file inside ending t is).1.AllTexts P := by
  have htail : ∀ {x : Item} {is : List Item}, (∀ s, .segment (.text s) ∈ x :: is → P s) →
      ∀ s, .segment (.text s) ∈ is → P s := fun h s hs => h s (List.mem_cons_of_mem _ hs)
  fun_induction Template.expand files source active file inside ending t is with
  | case1 active file inside ending t => exact ht
  | case2 active file inside ending t l is ih => exact ih ht (htail his)
  | case3 active file inside ending t s is ih =>
    refine ih (ht.add inside fun s' h => ?_) (htail his)
    obtain rfl := Segment.text.inj h
    exact his s List.mem_cons_self
  | case4 active file inside ending t d is hd e he ih => exact ih ht (htail his)
  | case5 active file inside ending t d is hd i hi stream t' f hx ih =>
    obtain ⟨request, hr⟩ := load_of_included hi
    have := ih ht (hP request i.val hr)
    rw [hx] at this
    exact this
  | case6 active file inside ending t d is hd i hi stream t' hx ih ih' =>
    obtain ⟨request, hr⟩ := load_of_included hi
    have := ih ht (hP request i.val hr)
    rw [hx] at this
    exact ih' this (htail his)
  | case7 active file inside ending t d is hd ih =>
    exact ih (ht.add inside fun s' h => by cases h) (htail his)

theorem AllTexts.ofText (files : FileTree) (source : IncludeSource) {P : TextSegment → Prop}
    (file : Option String) (text : String)
    (hP : ∀ request i, source.load request = some i →
      ∀ s, .segment (.text s) ∈ items (some i.name) i.content → P s)
    (hroot : ∀ s, .segment (.text s) ∈ items file text → P s) :
    (Template.ofText files source file text).AllTexts P := by
  have h := AllTexts.expand files hP file.toList file false
    (Scanner.ofText file text).stream.fault? { root := file } (items file text) (by simp [AllTexts]) hroot
  rw [ofText_expand]
  generalize Template.expand files source file.toList file false _ _ _ = p at h ⊢
  obtain ⟨t, _ | f⟩ := p
  · intro s hs
    simp only [placeHelpers, List.append_nil] at hs
    exact h s hs
  · exact h

/-- All code of a template is the body of a tag in one of the texts the template is made from. -/
theorem exists_body_of_mem_texts {files : FileTree} {source : IncludeSource} {file : Option String}
    {text : String} {s : TextSegment} (hs : s ∈ (ofText files source file text).texts)
    (hk : s.kind ≠ .content) : ∃ t raw, MadeFrom source text t ∧ ComesFrom s t raw := by
  have hP : ∀ {t : String}, MadeFrom source text t → ∀ {file : Option String} (s : TextSegment),
      .segment (.text s) ∈ items file t → s.kind ≠ .content →
        ∃ t raw, MadeFrom source text t ∧ ComesFrom s t raw := by
    intro t ht file s hs hk
    obtain ⟨raw, hraw⟩ := exists_body_of_mem_items hs hk
    exact ⟨t, raw, ht, hraw⟩
  have hall := AllTexts.ofText files source file text
    (fun request i hi => hP (.inr ⟨request, i, hi, rfl⟩)) (hP (.inl rfl))
  obtain ⟨s', hs', he⟩ := List.mem_filterMap.1 hs
  cases s' with
  | directive d => cases he
  | text s' =>
    obtain rfl := Option.some.inj he
    exact hall s' (List.mem_append_left _ hs') hk

end Template

/-! ## Where code is written -/

theorem Outcome.map_some_eq {α : Type} {o : Outcome α} {a : α} :
    o.map some = .value (some a) ↔ o = .value a := by
  cases o <;> simp [Outcome.map]

namespace GeneratedUnit

/-- All texts of a unit that have entries, in the order of the entries. -/
def emissions (input : UnitInput) : List Emission :=
  transformEmissions input ++ helperEmissions input.template

theorem Agrees.shows {input : UnitInput} {u : GeneratedUnit} {inside after : LineMap} {line : Nat}
    (h : Agrees input u inside after line) :
    List.Forall₂ (Shows (rows u.source)) (emissions input) u.lineMap := by
  rw [h.split]
  exact List.rel_append h.transform h.helpers

/-- Code is written as it stands. -/
def codeEmission (s : TextSegment) : Emission :=
  ⟨s.text, s.start, true⟩

theorem codeEmission_mem {input : UnitInput} {s : TextSegment} (hs : s ∈ input.template.texts)
    (hk : s.kind ≠ .content) : codeEmission s ∈ emissions input := by
  by_cases hh : s.kind = .helper
  · exact List.mem_append_right _ (List.mem_map.2 ⟨s, List.mem_filter.2 ⟨hs, by simp [hh]⟩, rfl⟩)
  · obtain ⟨s', hs', he⟩ := List.mem_filterMap.1 hs
    cases s' with
    | directive d => cases he
    | text s' =>
      obtain rfl := Option.some.inj he
      obtain ⟨n, hn⟩ := List.getElem?_of_mem hs'
      refine List.mem_append_left _ (List.mem_append_right _ (List.mem_filterMap.2
        ⟨(.text s', n), List.mk_mem_zipIdx_iff_getElem?.2 hn, ?_⟩))
      simp only [segmentEmission?, codeEmission]
      cases hkind : s'.kind with
      | content => exact absurd hkind hk
      | helper => exact absurd hkind hh
      | block | expression => rfl

/-- Code and the entry that was made for it. -/
def HasEntry (input : UnitInput) (u : GeneratedUnit) (s : TextSegment) (e : LineMapEntry) : Prop :=
  (codeEmission s, e) ∈ (emissions input).zip u.lineMap

theorem exists_hasEntry {input : UnitInput} {u : GeneratedUnit} {s : TextSegment}
    (h : List.Forall₂ (Shows (rows u.source)) (emissions input) u.lineMap)
    (hs : codeEmission s ∈ emissions input) : ∃ e, HasEntry input u s e := by
  rw [← List.map_fst_zip h.length_eq.le] at hs
  obtain ⟨p, hp, he⟩ := List.mem_map.1 hs
  exact ⟨p.2, by rw [HasEntry, ← he]; exact hp⟩

theorem locate_char_iff {input : UnitInput} {u : GeneratedUnit} {inside after : LineMap} {line : Nat}
    (ha : Agrees input u inside after line) {s : TextSegment} {e : LineMapEntry} (he : HasEntry input u s e)
    {raw : List Char} (hraw : s.text.toList = Scan.unescapeTags raw) {i : Nat}
    (hi : i < s.text.toList.length) :
    u.lineMap.locate (e.first + (s.text.toList.take i).count '\n') (Text.column (s.text.toList.take i) + 1) =
        .value (some (s.start.after (rawBefore raw i))) ↔
      NoLoneReturn (rawBefore raw i) ∧ NoEscapeOnLine raw (rawBefore raw i) ∧
        s.start.Representable ((rawBefore raw i).count '\n') (Text.column (rawBefore raw i)) := by
  obtain ⟨-, hzip⟩ := List.forall₂_iff_zip.1 ha.shows
  have hshow := hzip he
  have hmem := (List.of_mem_zip he).2
  obtain ⟨h₁, h₂, h₃⟩ := ha.bounds e hmem
  have hlast := (hshow.written h₁ h₂ h₃).2 i hi
  have hc : e.covers (e.first + (s.text.toList.take i).count '\n') := by
    simp only [LineMapEntry.covers, Bool.and_eq_true, decide_eq_true_eq]
    exact ⟨Nat.le_add_right _ _, hlast⟩
  obtain ⟨hu, hiff⟩ := unescapes_rawBefore raw i
  rw [← hraw] at hu hiff
  have hloc : e.location = s.start := hshow.location
  rw [LineMap.locate_of_covers ha.ordered hmem hc, Outcome.map_some_eq, ← hloc,
    LineMapEntry.locate_eq_after_iff hshow.verbatim hu.count hu.column, ← hiff, hu.count]
  refine and_congr_right fun _ => and_congr_right fun hcol => ?_
  rw [hcol]

theorem count_unlines_take (source : String) {n : Nat} (h : n ≤ Text.lineFeeds source) :
    (Text.unlines ((rows source).take n)).count '\n' = n := by
  have hlen := length_rows source
  have hfree : ∀ l ∈ (rows source).take n, '\n' ∉ l := fun l hl =>
    Text.not_mem_of_mem_pieces (List.mem_of_mem_take hl)
  rw [Text.count_unlines hfree, List.length_take]
  omega

/-- **Code traces back to its template.** All code of a template is the body of a tag in one of its
texts. The code is written to the unit as it stands, and the line map leads from a character there to
the start of the body advanced over the body up to the character exactly if no carriage return stands
alone before the character, no escaped tag stands before it on its line, and the place has 32-bit
numbers. -/
theorem locate_code_iff {files : FileTree} {source : IncludeSource} {file : Option String} {text : String}
    {input : UnitInput} {kind : UnitKind} {u : GeneratedUnit}
    (ht : input.template = .ofText files source file text) (hu : generate input kind = .ok u)
    {s : TextSegment} (hs : s ∈ input.template.texts) (hk : s.kind ≠ .content) :
    ∃ t raw, Template.MadeFrom source text t ∧ ComesFrom s t raw ∧
      (∀ t' raw', ComesFrom s t' raw' → raw' = raw) ∧
      (∃ e, HasEntry input u s e) ∧
      ∀ e, HasEntry input u s e → ∃ front back, u.source.toList = front ++ s.text.toList ++ back ∧
        front.count '\n' + 1 = e.first ∧ Text.column front = 0 ∧
        ∀ i c, s.text.toList[i]? = some c →
          let before := front ++ s.text.toList.take i
          (∃ y, raw = rawBefore raw i ++ c :: y) ∧
          (u.lineMap.locate (before.count '\n' + 1) (Text.column before + 1) =
              .value (some (s.start.after (rawBefore raw i))) ↔
            NoLoneReturn (rawBefore raw i) ∧ NoEscapeOnLine raw (rawBefore raw i) ∧
              s.start.Representable ((rawBefore raw i).count '\n') (Text.column (rawBefore raw i))) := by
  obtain ⟨inside, after, line, ha⟩ := agrees_of_generate hu
  have hs' := hs
  rw [ht] at hs'
  obtain ⟨t, raw, hmade, hfrom⟩ := Template.exists_body_of_mem_texts hs' hk
  refine ⟨t, raw, hmade, hfrom, fun t' raw' h' => ?_, exists_hasEntry ha.shows (codeEmission_mem hs hk),
    fun e he => ?_⟩
  · exact body_of_unescapeTags h'.body hfrom.body (h'.text.symm.trans hfrom.text)
  · obtain ⟨-, hzip⟩ := List.forall₂_iff_zip.1 ha.shows
    have hmem := (List.of_mem_zip he).2
    obtain ⟨h₁, h₂, h₃⟩ := ha.bounds e hmem
    obtain ⟨back, hback⟩ := ((hzip he).written h₁ h₂ h₃).1
    have hcount := count_unlines_take u.source (n := e.first - 1) (by omega)
    refine ⟨_, back, hback, by omega, Text.column_unlines _, fun i c hc => ⟨?_, ?_⟩⟩
    · rw [hfrom.text] at hc
      exact rawBefore_split raw i c hc
    · have hi : i < s.text.toList.length := (List.getElem?_eq_some_iff.1 hc).1
      have hline : (Text.unlines ((rows u.source).take (e.first - 1)) ++ s.text.toList.take i).count '\n' + 1 =
          e.first + (s.text.toList.take i).count '\n' := by
        rw [List.count_append, hcount]
        omega
      have hcolumn : Text.column (Text.unlines ((rows u.source).take (e.first - 1)) ++ s.text.toList.take i) =
          Text.column (s.text.toList.take i) := by
        rw [Text.column_append, Text.column_unlines]
        by_cases hn : '\n' ∈ s.text.toList.take i
        · rw [if_pos hn]
        · rw [if_neg hn, Text.column_of_not_mem hn, Nat.zero_add]
      rw [hline, hcolumn]
      exact locate_char_iff ha he hfrom.text hi

def returnInput : UnitInput :=
  { blockInput with template := .ofText {} .empty none "<#a\rb#>" }

theorem locate_code_iff_returnInput : ∃ u front back, generate returnInput .executable = .ok u ∧
    u.source.toList = front ++ ['a', '\r', 'b'] ++ back ∧
    u.lineMap.locate ((front ++ ['a', '\r']).count '\n' + 1) (Text.column (front ++ ['a', '\r']) + 1) ≠
      .value (some ⟨none, 2, 1⟩) := by
  have ht : returnInput.template = .ofText {} .empty none "<#a\rb#>" := rfl
  have htexts : returnInput.template.texts =
      [⟨.block, "a\rb", ⟨none, 1, 3⟩, ⟨none, 1, 1⟩, ⟨none, 2, 4⟩⟩] := by cbv
  obtain ⟨u, hu⟩ := generate_executable returnInput
  obtain ⟨t, raw, -, hfrom, -, ⟨e, he⟩, hall⟩ :=
    locate_code_iff ht hu (by rw [htexts]; exact List.mem_singleton_self _) (by simp)
  obtain ⟨front, back, hsource, -, -, hiff⟩ := hall e he
  have hraw : raw = ['a', '\r', 'b'] := by
    rw [← escapeTags_unescapeTags fun _ _ => hfrom.body.escaped, ← hfrom.text]
    rfl
  refine ⟨u, front, back, hu, hsource, fun h => ?_⟩
  obtain ⟨-, hiff⟩ := hiff 2 'b' rfl
  rw [hraw] at hiff
  have := (hiff.1 h).1 ['a'] [] rfl
  simp at this

end GeneratedUnit

end Templating
