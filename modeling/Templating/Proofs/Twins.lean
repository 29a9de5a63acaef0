import Mathlib
import Templating.Engine
import Templating.Proofs.LineEndings
import Templating.Proofs.Splicing
import Templating.Proofs.Variants

/-!
# Templates with CRLF

What is made of a text with CRLF line endings differs from what is made of the text with LF line endings
in the line endings only: the segments have the same kinds and places, and the generated units have the
same line maps (`crlf_twin`).
-/

namespace Templating

open Text

theorem Text.crlf_isEmpty (s : String) : (crlf s).isEmpty = s.isEmpty := by
  have hnil (cs : List Char) : crlfChars cs = [] ↔ cs = [] := by
    cases cs with
    | nil => simp
    | cons c r =>
      by_cases hc : c = '\n'
      · simp [hc]
      · simp [crlfChars_cons hc]
  rw [Bool.eq_iff_iff, String.isEmpty_iff, String.isEmpty_iff, ← String.toList_eq_nil_iff,
    ← String.toList_eq_nil_iff, crlf, String.toList_ofList, hnil]

/-! ## Items -/

/-- A directive with CRLF line endings in the values of its attributes. Names have no line endings. -/
def Directive.crlf (d : Directive) : Directive :=
  { d with attributes := d.attributes.map fun a => (a.1, Text.crlf a.2) }

theorem Directive.setIn_crlf (key value : String) (l : List (String × String)) :
    (setIn key value l).map (fun a => (a.1, Text.crlf a.2)) =
      setIn key (Text.crlf value) (l.map fun a => (a.1, Text.crlf a.2)) := by
  induction l with
  | nil => rfl
  | cons a l ih =>
    simp only [List.map_cons, setIn]
    split
    · rfl
    · rw [List.map_cons, ih]

theorem Directive.setAttribute_crlf (d : Directive) (key value : String) :
    d.crlf.setAttribute key (Text.crlf value) = (d.setAttribute key value).crlf := by
  simp only [setAttribute, crlf, setIn_crlf]

def TextSegment.crlf (s : TextSegment) : TextSegment :=
  { s with text := Text.crlf s.text }

def Segment.crlf : Segment → Segment
  | .text s => .text s.crlf
  | .directive d => .directive d.crlf

def Item.crlf : Item → Item
  | .segment s => .segment s.crlf
  | .namelessValue l => .namelessValue l

namespace Item

def Opened.crlf (o : Opened) : Opened :=
  { o with directive := o.directive.map Directive.crlf }

theorem getD_crlf (v : Option String) : (v.map Text.crlf).getD "" = Text.crlf (v.getD "") := by
  cases v <;> rfl

theorem ofText_crlf (kind : SegmentKind) (t : Token) : ofText kind t.crlf = (ofText kind t).map crlf := by
  simp only [ofText, Token.crlf, getD_crlf, crlf_isEmpty]
  split <;> rfl

theorem close_crlf (o : Opened) : o.crlf.close = o.close.map crlf := by
  cases h : o.directive <;> simp [Opened.close, Opened.crlf, h, crlf, Segment.crlf]

theorem between_crlf (o : Opened) (t : Token) : o.crlf.between t.crlf = (o.between t).crlf := by
  cases h : o.directive <;> simp [Opened.between, Opened.crlf, h, Directive.crlf, Token.crlf]

theorem name_crlf (o : Opened) (t : Token) : o.crlf.name t = (o.name t).crlf := by
  cases h : o.directive <;> simp [Opened.name, Opened.crlf, h, Directive.crlf]

theorem value_crlf (o : Opened) (t : Token) :
    o.crlf.value t.crlf = ((o.value t).1.crlf, (o.value t).2.map crlf) := by
  cases hk : o.key <;> cases hd : o.directive <;>
    simp [Opened.value, Opened.crlf, hk, hd, crlf, Token.crlf, getD_crlf, Directive.setAttribute_crlf]

theorem ofTokens_crlf (o : Option Opened) (ts : List Token)
    (h : ∀ t ∈ ts, t.kind = .directiveName → t.crlf = t) :
    ofTokens (o.map Opened.crlf) (ts.map Token.crlf) = (ofTokens o ts).map crlf := by
  induction ts generalizing o with
  | nil => simp [ofTokens]
  | cons t ts ih =>
    obtain ⟨ht, hts⟩ := List.forall_mem_cons.1 h
    have hnone := ih none hts
    rw [Option.map_none] at hnone
    have hsome (o : Opened) : ofTokens (some o.crlf) (ts.map Token.crlf) = (ofTokens (some o) ts).map crlf :=
      ih (some o) hts
    cases o with
    | none =>
      rw [List.map_cons, Option.map_none]
      cases hk : t.kind.segmentKind? with
      | some kind =>
        rw [ofTokens_text (t := t.crlf) hk, ofTokens_text hk, ofText_crlf, hnone, List.map_append]
      | none =>
        by_cases hd : t.kind = .directive
        · rw [ofTokens_opening (t := t.crlf) hd, ofTokens_opening hd]
          exact hsome {}
        · rw [ofTokens_other (t := t.crlf) hk hd, ofTokens_other hk hd, hnone, List.map_append, List.map_nil]
    | some o =>
      rw [List.map_cons, Option.map_some]
      cases hk : t.kind.segmentKind? with
      | some kind =>
        rw [ofTokens_leave (t := t.crlf) hk, ofTokens_leave hk, ofText_crlf, close_crlf, hnone, List.map_append,
          List.map_append]
      | none =>
        by_cases hn : t.kind = .directiveName
        · rw [ht hn, ofTokens_name hn, ofTokens_name hn, name_crlf, hsome]
        by_cases hv : t.kind = .directiveValue
        · rw [ofTokens_value (t := t.crlf) hv, ofTokens_value hv, value_crlf, hsome, List.map_append]
        have hb : t.kind = .directive ∨ t.kind = .eof := by
          cases hkind : t.kind <;> simp_all [TokenKind.segmentKind?]
        rw [ofTokens_between (t := t.crlf) hb, ofTokens_between hb, between_crlf, hsome]

end Item

/-! ## Templates -/

/-- Two segments alike but for line endings. What comes from an included text stays as it is. -/
inductive Segment.Twin : Segment → Segment → Prop
  | same (s : Segment) : Twin s s
  | crlf (s : Segment) : Twin s s.crlf

/-- Two items alike but for line endings. An `include` has to name the same file. -/
inductive Item.Twin : Item → Item → Prop
  | same (i : Item) : Twin i i
  | text (s : TextSegment) : Twin (.segment (.text s)) (.segment (.text s.crlf))
  | directive {d : Directive} (h : ¬ d.isNamed "include") :
    Twin (.segment (.directive d)) (.segment (.directive d.crlf))

namespace Template

def crlf (t : Template) : Template :=
  { t with segments := t.segments.map Segment.crlf, helpers := t.helpers.map Segment.crlf }

/-- Two templates alike but for line endings. -/
structure Twin (t t' : Template) : Prop where
  root : t'.root = t.root
  segments : List.Forall₂ Segment.Twin t.segments t'.segments
  helpers : List.Forall₂ Segment.Twin t.helpers t'.helpers
  errors : t'.errors = t.errors

theorem items_crlf (file : Option String) {text : String} (h : '\r' ∉ text.toList) :
    items file (Text.crlf text) = (items file text).map Item.crlf := by
  obtain ⟨hstream, hnames⟩ := (Scanner.twin_ofText file h).stream
  unfold items
  rw [hstream]
  exact Item.ofTokens_crlf none _ hnames

theorem fault?_crlf (file : Option String) {text : String} (h : '\r' ∉ text.toList) :
    (Scanner.ofText file (Text.crlf text)).stream.fault? = (Scanner.ofText file text).stream.fault? := by
  rw [(Scanner.twin_ofText file h).stream.1, TokenStream.fault?, TokenStream.fault?, TokenStream.crlf]
  cases (Scanner.ofText file text).stream.ending <;> rfl

theorem addItem_crlf (t : Template) (i : Item) : t.crlf.addItem i.crlf = (t.addItem i).crlf := by
  cases i with
  | namelessValue l => rfl
  | segment s => simp [addItem, Item.crlf, add, crlf]

/-- The template of a text whose `include` directives are ordinary directives. -/
def plain (file : Option String) (text : String) : Template × Option SyntaxFault :=
  parsePlain { root := file } (.ofText file text)

theorem plain_crlf (file : Option String) {text : String} (h : '\r' ∉ text.toList) :
    plain file (Text.crlf text) = ((plain file text).1.crlf, (plain file text).2) := by
  have hfold (is : List Item) (t : Template) :
      (is.map Item.crlf).foldl addItem t.crlf = (is.foldl addItem t).crlf := by
    induction is generalizing t with
    | nil => rfl
    | cons i is ih => rw [List.map_cons, List.foldl_cons, addItem_crlf, ih, List.foldl_cons]
  have hplace (t : Template) : t.crlf.placeHelpers = t.placeHelpers.crlf := by
    simp [placeHelpers, crlf]
  have hitems := items_crlf file h
  unfold items at hitems
  simp only [plain, parsePlain, fault?_crlf file h, hitems]
  have hroot : ({ root := file } : Template) = crlf { root := file } := rfl
  rw [hroot, hfold]
  cases (Scanner.ofText file text).stream.fault? with
  | none => simp only [hplace]; rfl
  | some f => rfl

section
variable {t t' : Template} {s s' : Segment}

theorem Twin.place (h : t.Twin t') (l : Location) : t'.place l = t.place l := by
  simp [Template.place, h.root]

theorem Twin.logError (h : t.Twin t') (code message : String) (l : Location) :
    (t.logError code message l).Twin (t'.logError code message l) := by
  refine ⟨h.root, h.segments, h.helpers, ?_⟩
  simp [Template.logError, h.errors, h.place]

theorem Twin.isHelper (h : s.Twin s') : s'.isHelper = s.isHelper := by
  cases h with
  | same => rfl
  | crlf => cases s <;> rfl

theorem Twin.add (h : t.Twin t') (hs : s.Twin s') (inside : Bool) :
    (t.add inside s).Twin (t'.add inside s') := by
  have hone : List.Forall₂ Segment.Twin [s] [s'] := .cons hs .nil
  unfold Template.add
  rw [Twin.isHelper hs]
  split
  · exact ⟨h.root, h.segments, List.rel_append h.helpers hone, h.errors⟩
  · exact ⟨h.root, List.rel_append h.segments hone, h.helpers, h.errors⟩

theorem Twin.placeHelpers (h : t.Twin t') : t.placeHelpers.Twin t'.placeHelpers :=
  ⟨h.root, List.rel_append h.segments h.helpers, .nil, h.errors⟩

end

theorem expand_twin (files : FileTree) (source : IncludeSource) (active : List String) (file : Option String)
    (inside : Bool) (ending : Option SyntaxFault) (t : Template) (is : List Item) :
    ∀ t' is', t.Twin t' → List.Forall₂ Item.Twin is is' →
      (expand files source active file inside ending t is).1.Twin
        (expand files source active file inside ending t' is').1 ∧
      (expand files source active file inside ending t' is').2 =
        (expand files source active file inside ending t is).2 := by
  fun_induction expand files source active file inside ending t is with
  | case1 active file inside ending t =>
    intro t' is' ht his
    cases his
    exact ⟨by simpa [expand] using ht, by simp [expand]⟩
  | case2 active file inside ending t l is ih =>
    intro t' is' ht his
    obtain ⟨i', is', hi, hrest, rfl⟩ := List.forall₂_cons_left_iff.1 his
    cases hi
    rw [expand]
    exact ih _ _ (ht.logError _ _ l) hrest
  | case3 active file inside ending t s is ih =>
    intro t' is' ht his
    obtain ⟨i', is', hi, hrest, rfl⟩ := List.forall₂_cons_left_iff.1 his
    cases hi with
    | same =>
      rw [expand]
      exact ih _ _ (ht.add (.same _) inside) hrest
    | text =>
      rw [expand]
      exact ih _ _ (ht.add (.crlf (.text s)) inside) hrest
  | case4 active file inside ending t d is hd e he ih =>
    intro t' is' ht his
    obtain ⟨i', is', hi, hrest, rfl⟩ := List.forall₂_cons_left_iff.1 his
    cases hi with
    | same =>
      rw [expand, if_pos hd]
      simp only [he]
      exact ih _ _ (ht.logError _ _ d.start) hrest
    | directive h => exact absurd hd h
  -- An included text is the same for both, and so are its items.
  | case5 active file inside ending t d is hd i hi stream t₁ f hx ih =>
    intro t' is' ht his
    obtain ⟨i', is', hi', hrest, rfl⟩ := List.forall₂_cons_left_iff.1 his
    cases hi' with
    | same =>
      obtain ⟨htwin, hfault⟩ := ih t' _ ht (List.forall₂_same.2 fun i _ => .same i)
      cases hx' : expand files source (i.val.name :: active) (some i.val.name) true stream.fault? t'
        (Item.ofTokens none stream.tokens) with
      | mk t₁' f' =>
        rw [hx, hx'] at htwin hfault
        obtain rfl : f' = some f := hfault
        rw [expand, if_pos hd]
        simp only [hi]
        rw [hx']
        exact ⟨htwin, rfl⟩
    | directive h => exact absurd hd h
  | case6 active file inside ending t d is hd i hi stream t₁ hx ih ih' =>
    intro t' is' ht his
    obtain ⟨i', is', hi', hrest, rfl⟩ := List.forall₂_cons_left_iff.1 his
    cases hi' with
    | same =>
      obtain ⟨htwin, hfault⟩ := ih t' _ ht (List.forall₂_same.2 fun i _ => .same i)
      cases hx' : expand files source (i.val.name :: active) (some i.val.name) true stream.fault? t'
        (Item.ofTokens none stream.tokens) with
      | mk t₁' f' =>
        rw [hx, hx'] at htwin hfault
        obtain rfl : f' = none := hfault
        rw [expand, if_pos hd]
        simp only [hi]
        rw [hx']
        exact ih' t₁' is' htwin hrest
    | directive h => exact absurd hd h
  | case7 active file inside ending t d is hd ih =>
    intro t' is' ht his
    obtain ⟨i', is', hi, hrest, rfl⟩ := List.forall₂_cons_left_iff.1 his
    cases hi with
    | same =>
      rw [expand, if_neg hd]
      exact ih _ _ (ht.add (.same _) inside) hrest
    | directive h =>
      have hd' : ¬ d.crlf.isNamed "include" := h
      rw [expand, if_neg hd']
      exact ih _ _ (ht.add (.crlf (.directive d)) inside) hrest

/-- No attribute of an `include` goes over a line ending, so the same files are asked for. -/
def OneLineIncludes (file : Option String) (text : String) : Prop :=
  ∀ d, .segment (.directive d) ∈ items file text → d.isNamed "include" → d.crlf = d

theorem ofText_twin (files : FileTree) (source : IncludeSource) (file : Option String) {text : String}
    (h : '\r' ∉ text.toList)
    (hinclude : OneLineIncludes file text) :
    (ofText files source file text).Twin (ofText files source file (Text.crlf text)) := by
  have hitems : List.Forall₂ Item.Twin (items file text) (items file (Text.crlf text)) := by
    rw [items_crlf file h, List.forall₂_map_right_iff, List.forall₂_same]
    intro i hi
    cases i with
    | namelessValue l => exact .same _
    | segment s =>
      cases s with
      | text s => exact .text s
      | directive d =>
        by_cases hd : d.isNamed "include"
        · have hsame : Item.crlf (.segment (.directive d)) = .segment (.directive d) := by
            rw [Item.crlf, Segment.crlf, hinclude d hi hd]
          rw [hsame]
          exact .same _
        · exact .directive hd
  obtain ⟨htwin, hfault⟩ := expand_twin files source file.toList file false
    (Scanner.ofText file text).stream.fault? { root := file } (items file text) { root := file } _
    ⟨rfl, .nil, .nil, rfl⟩ hitems
  rw [ofText_expand, ofText_expand, fault?_crlf file h]
  revert htwin hfault
  obtain ⟨t, f⟩ := expand files source file.toList file false (Scanner.ofText file text).stream.fault?
    { root := file } (items file text)
  obtain ⟨t', f'⟩ := expand files source file.toList file false (Scanner.ofText file text).stream.fault?
    { root := file } (items file (Text.crlf text))
  rintro htwin ⟨⟩
  cases f with
  | none => exact htwin.placeHelpers
  | some f => exact htwin.logError _ _ _

theorem Twin.directives_eq_nil {t t' : Template} (h : t.Twin t') (hd : t.directives = []) :
    t'.directives = [] := by
  have hdirectives : List.Forall₂ (fun _ _ => True) t.directives t'.directives := by
    refine List.rel_filterMap (fun s s' hs => ?_) h.segments
    cases hs with
    | same => cases s <;> simp [Segment.directive?]
    | crlf => cases s <;> simp [Segment.directive?, Segment.crlf]
  rw [hd] at hdirectives
  exact List.forall₂_nil_left_iff.1 hdirectives

theorem twin_crlf (t : Template) : t.Twin t.crlf := by
  have hmap (ss : List Segment) : List.Forall₂ Segment.Twin ss (ss.map Segment.crlf) := by
    rw [List.forall₂_map_right_iff, List.forall₂_same]
    exact fun s _ => .crlf s
  exact ⟨rfl, hmap _, hmap _, rfl⟩

end Template

/-! ## Units -/

theorem Text.lineFeeds_crlf (s : String) : lineFeeds (crlf s) = lineFeeds s := by
  have hcount (cs : List Char) : (crlfChars cs).count '\n' = cs.count '\n' := by
    induction cs with
    | nil => rfl
    | cons c r ih =>
      by_cases hc : c = '\n'
      · simp [hc, ih]
      · simp [crlfChars_cons hc, List.count_cons, ih]
  rw [lineFeeds, lineFeeds, crlf, String.toList_ofList, hcount]

theorem Text.getLast?_crlf (s : String) : (crlf s).toList.getLast? = s.toList.getLast? := by
  have hrev : (crlfChars s.toList).reverse = crlfRead s.toList.reverse := by simp [crlfRead]
  rw [crlf, String.toList_ofList, ← List.head?_reverse, ← List.head?_reverse, hrev, head?_crlfRead]

namespace GeneratedUnit

theorem lineFeeds_withoutFinalLineFeed (s : String) : lineFeeds (withoutFinalLineFeed s) =
    lineFeeds s - if s.toList.getLast? = some '\n' then 1 else 0 := by
  unfold withoutFinalLineFeed
  split
  · rename_i r hr
    have hs : s.toList = r.reverse ++ ['\n'] := by
      rw [← List.reverse_reverse s.toList, hr, List.reverse_cons]
    simp [lineFeeds, hs]
  · rename_i hr
    rw [if_neg]
    · rfl
    · intro hlast
      obtain ⟨r, hs⟩ := List.getLast?_eq_some_iff.1 hlast
      exact hr r.reverse (by simp [hs])

/-- A carriage return is left where the line feed is taken off, and it is no line feed. -/
theorem alike_crlf (text : String) (l : Location) (verbatim : Bool) :
    (Piece.mapped text l verbatim).Alike (.mapped (crlf text) l verbatim) := by
  apply Piece.Alike.mapped
  rw [lineFeeds_withoutFinalLineFeed, lineFeeds_withoutFinalLineFeed, lineFeeds_crlf, getLast?_crlf]

theorem alike_of_not_mem {a b : String} (ha : '\n' ∉ a.toList) (hb : '\n' ∉ b.toList) (l : Location)
    (verbatim : Bool) : (Piece.mapped a l verbatim).Alike (.mapped b l verbatim) := by
  apply Piece.Alike.mapped
  rw [lineFeeds_withoutFinalLineFeed, lineFeeds_withoutFinalLineFeed, lineFeeds_of_not_mem ha,
    lineFeeds_of_not_mem hb, Nat.zero_sub, Nat.zero_sub]

theorem textPieces_crlf (s : TextSegment) : List.Forall₂ Piece.Alike (textPieces s) (textPieces s.crlf) := by
  have hquote (text : String) : '\n' ∉ ("self.base.write(" ++ quote text ++ ");").toList := by
    simp [newline_not_mem_quote]
  obtain ⟨kind, text, start, tagStart, ending⟩ := s
  cases kind with
  | content => exact .cons (alike_of_not_mem (hquote _) (hquote _) _ _) .nil
  | expression =>
    exact .cons (.refl _) (.cons (.refl _) (.cons (alike_crlf _ _ _) (alike_refl _)))
  | block => exact .cons (alike_crlf _ _ _) .nil
  | helper => exact .nil

theorem zipIdx_twin {ss ss' : List Segment} (h : List.Forall₂ Segment.Twin ss ss') (n : Nat) :
    List.Forall₂ (fun x x' => x.1.Twin x'.1 ∧ x'.2 = x.2) (ss.zipIdx n) (ss'.zipIdx n) := by
  induction h generalizing n with
  | nil => exact .nil
  | cons hs _ ih =>
    rw [List.zipIdx_cons, List.zipIdx_cons]
    exact .cons ⟨hs, rfl⟩ (ih (n + 1))

section
variable {t t' : Template} (h : t.Twin t')
include h

theorem segmentPieces_twin (code : DirectiveCode) :
    List.Forall₂ Piece.Alike (t.segments.zipIdx.flatMap (segmentPieces code))
      (t'.segments.zipIdx.flatMap (segmentPieces code)) := by
  refine List.rel_flatMap (zipIdx_twin h.segments 0) fun x x' hx => ?_
  obtain ⟨s, i⟩ := x
  obtain ⟨s', i'⟩ := x'
  have hs : s.Twin s' := hx.1
  obtain rfl : i' = i := hx.2
  cases hs with
  | same => exact alike_refl _
  | crlf =>
    cases s with
    | text s => exact textPieces_crlf s
    | directive d => exact alike_refl _

theorem helperPieces_twin (className : String) :
    List.Forall₂ Piece.Alike (helperPieces className t) (helperPieces className t') := by
  have htexts : List.Forall₂ (fun s s' : TextSegment => s' = s ∨ s' = s.crlf) t.texts t'.texts := by
    refine List.rel_filterMap (fun s s' hs => ?_) h.segments
    cases hs with
    | same => cases s <;> simp [Segment.text?]
    | crlf => cases s <;> simp [Segment.text?, Segment.crlf]
  have hhelpers := List.rel_filter (p := (·.kind == .helper)) (q := (·.kind == .helper))
    (fun s s' hs => by rcases hs with rfl | rfl <;> rfl) htexts
  unfold helperPieces
  simp only
  generalize t.texts.filter (·.kind == .helper) = hs at hhelpers
  generalize t'.texts.filter (·.kind == .helper) = hs' at hhelpers
  have hmapped : List.Forall₂ Piece.Alike (hs.map fun s => .mapped s.text s.start true)
      (hs'.map fun s => .mapped s.text s.start true) := by
    refine List.rel_map (fun s s' hs => ?_) hhelpers
    rcases hs with rfl | rfl
    · exact .refl _
    · exact alike_crlf _ _ _
  cases hhelpers with
  | nil => exact .nil
  | cons _ _ => exact .cons (.refl _) (List.rel_append hmapped (alike_refl _))

theorem generate_twin (input : UnitInput) (kind : UnitKind) :
    (generate { input with template := t' } kind).map (·.lineMap) =
      (generate { input with template := t } kind).map (·.lineMap) := by
  have htransform (className : String) : List.Forall₂ Piece.Alike
      (transformPieces className { input with template := t })
      (transformPieces className { input with template := t' }) :=
    List.rel_append (List.rel_append (alike_refl _) (segmentPieces_twin h input.code)) (alike_refl _)
  unfold generate
  cases names kind with
  | error e => rfl
  | ok named =>
    obtain ⟨className, modules⟩ := named
    simp only
    split
    · have hpieces : List.Forall₂ Piece.Alike (pieces { input with template := t } kind className modules)
          (pieces { input with template := t' } kind className modules) :=
        List.rel_append (List.rel_append (List.rel_append (alike_refl _) (htransform className))
          (helperPieces_twin h className)) (alike_refl _)
      simp only [Except.map, write_lineMap, entries_alike _ hpieces]
    · rfl

end

end GeneratedUnit

namespace Routing

theorem ofTemplate_of_no_directives (host : Host) {t : Template} (h : t.directives = []) :
    ofTemplate host t = ({}, []) := by
  have hfold (ss : List Segment) (n : Nat) (hss : ss.filterMap Segment.directive? = []) (r : Routing) :
      (ss.zipIdx n).foldl (step host t.root) r = r := by
    induction ss generalizing n with
    | nil => rfl
    | cons s ss ih =>
      cases s with
      | text s => exact ih (n + 1) hss
      | directive d => cases hss
  unfold ofTemplate
  rw [hfold _ _ h]
  rfl

end Routing

namespace Engine

theorem prepare_twin {files : FileTree} {host : Host} {text text' : String} (kind : UnitKind)
    (h : (Template.ofText files host.includes host.templateFile text).Twin
      (Template.ofText files host.includes host.templateFile text'))
    (hd : (Template.ofText files host.includes host.templateFile text).directives = []) :
    (prepare files host text' kind).diagnostics = (prepare files host text kind).diagnostics ∧
      (prepare files host text' kind).result.map (·.unit.lineMap) =
        (prepare files host text kind).result.map (·.unit.lineMap) := by
  have hd' := h.directives_eq_nil hd
  unfold prepare
  simp only [h.errors, Routing.ofTemplate_of_no_directives host hd,
    Routing.ofTemplate_of_no_directives host hd', TemplateSettings.ofTemplate, hd, hd', List.foldl_nil]
  split
  · exact ⟨rfl, rfl⟩
  · split
    · exact ⟨rfl, rfl⟩
    · have hmap := GeneratedUnit.generate_twin h
        { template := Template.ofText files host.includes host.templateFile text, settings := {}, code := {}
          imports := host.standardImports ++ [], templateFile := host.templateFile } kind
      simp only at hmap
      revert hmap
      generalize GeneratedUnit.generate _ kind = u
      generalize GeneratedUnit.generate _ kind = u'
      rcases u with e | u <;> rcases u' with e' | u' <;> intro hmap
      · obtain rfl := Except.error.inj hmap
        exact ⟨rfl, rfl⟩
      · cases hmap
      · cases hmap
      · exact ⟨rfl, congrArg Except.ok (Except.ok.inj hmap)⟩

end Engine

/-! ## Line endings -/

/-- **Line endings change nothing else.** A text with CRLF line endings has the tokens of the text with LF
line endings, in the same places, or the same fault. Its segments have the same kinds and places, and units
that differ in these segments only have the same line map. So it is for a template with its includes, if
each of them is named on one line; and if that template holds no directives, the same is reported of it. -/
theorem crlf_twin (file : Option String) {text : String} (h : '\r' ∉ text.toList) :
    tokenize file (Text.crlf text) = (tokenize file text).map (List.map Token.crlf) ∧
    Template.plain file (Text.crlf text) =
      ((Template.plain file text).1.crlf, (Template.plain file text).2) ∧
    (∀ (input : UnitInput) (kind : UnitKind), (GeneratedUnit.generate
        { input with template := (Template.plain file (Text.crlf text)).1 } kind).map (·.lineMap) =
      (GeneratedUnit.generate { input with template := (Template.plain file text).1 } kind).map (·.lineMap)) ∧
    (Template.OneLineIncludes file text → ∀ files source,
      (Template.ofText files source file text).Twin (Template.ofText files source file (Text.crlf text))) ∧
    ∀ files host kind, host.templateFile = file → Template.OneLineIncludes file text →
      (Template.ofText files host.includes file text).directives = [] →
      (Engine.prepare files host (Text.crlf text) kind).diagnostics =
          (Engine.prepare files host text kind).diagnostics ∧
        (Engine.prepare files host (Text.crlf text) kind).result.map (·.unit.lineMap) =
          (Engine.prepare files host text kind).result.map (·.unit.lineMap) := by
  have hplain := Template.plain_crlf file h
  refine ⟨tokenize_crlf file h, hplain, fun input kind => ?_, fun hinclude files source =>
    Template.ofText_twin files source file h hinclude, ?_⟩
  · rw [hplain]
    exact GeneratedUnit.generate_twin (Template.twin_crlf _) input kind
  · rintro files host kind rfl hinclude hd
    exact Engine.prepare_twin kind (Template.ofText_twin files host.includes _ h hinclude) hd

/-- Text, a block, and an expression with a line ending in it. -/
def threeLines : String := "a\n<# let x = 1; #>\n<#=\nx #>\n"

theorem crlf_twin_threeLines : '\r' ∉ threeLines.toList ∧
    Text.crlf threeLines = "a\r\n<# let x = 1; #>\r\n<#=\r\nx #>\r\n" ∧
    tokenize none (Text.crlf threeLines) = (tokenize none threeLines).map (List.map Token.crlf) ∧
    (tokenize none (Text.crlf threeLines)).toOption.map (List.map Token.location) =
      some [⟨none, 1, 1⟩, ⟨none, 2, 3⟩, ⟨none, 3, 1⟩, ⟨none, 3, 4⟩, ⟨none, 4, 5⟩, ⟨none, 5, 1⟩] ∧
    Template.OneLineIncludes none threeLines ∧
    (Template.ofText {} .empty none threeLines).directives = [] ∧
    (Engine.prepare {} { templateFile := none } (Text.crlf threeLines) .executable).result.map
        (·.unit.lineMap) =
      (Engine.prepare {} { templateFile := none } threeLines .executable).result.map (·.unit.lineMap) := by
  have h : '\r' ∉ threeLines.toList := by decide
  have hitems : (Template.items none threeLines).filterMap
      (fun i => i.segment?.bind Segment.directive?) = [] := by cbv
  have hinclude : Template.OneLineIncludes none threeLines := by
    intro d hd _
    cases List.filterMap_eq_nil_iff.1 hitems _ hd
  have hdirectives : (Template.ofText {} .empty none threeLines).directives = [] := by cbv
  obtain ⟨htokens, -, -, -, hprepare⟩ := crlf_twin none h
  exact ⟨h, by decide, htokens, by cbv, hinclude, hdirectives,
    (hprepare {} { templateFile := none } .executable rfl hinclude hdirectives).2⟩

end Templating
