import Mathlib
import Templating.Proofs.Quoting
import Templating.Proofs.Twins

/-!
# Literals in a unit

Whatever text a unit holds as a literal, the literal is on one line and reads back as the text. So each
piece of content has one line of its own, which writes exactly this content, and a template without tags
has a unit that makes one write (`literals_closed`).
-/

namespace Templating

/-! ## Lists side by side -/

theorem exists_forall₂_of_sublist {α β : Type} {R : α → β → Prop} : ∀ {as as' : List α} {bs : List β},
    List.Sublist as as' → List.Forall₂ R as' bs → ∃ bs', List.Sublist bs' bs ∧ List.Forall₂ R as bs'
  | _, _, _, .slnil, .nil => ⟨[], .slnil, .nil⟩
  | _, _, _, .cons _ h, .cons _ hs =>
    let ⟨bs', hsub, hbs⟩ := exists_forall₂_of_sublist h hs
    ⟨bs', hsub.cons _, hbs⟩
  | _, _, _, .cons_cons _ h, .cons (b := b) hr hs =>
    let ⟨bs', hsub, hbs⟩ := exists_forall₂_of_sublist h hs
    ⟨b :: bs', hsub.cons_cons _, .cons hr hbs⟩

theorem forall₂_of_mem {α β : Type} {R S : α → β → Prop} {as : List α} {bs : List β}
    (h : List.Forall₂ R as bs) (hS : ∀ a, ∀ b ∈ bs, R a b → S a b) : List.Forall₂ S as bs := by
  induction h with
  | nil => exact .nil
  | cons hr _ ih =>
    refine .cons (hS _ _ List.mem_cons_self hr) (ih fun a b hb => hS a b (List.mem_cons_of_mem _ hb))

/-! ## The line of a write -/

/-- A line that writes a text: behind the call stands a literal of the text, and nothing but the end of the
call behind the literal. -/
def IsWrite (row : List Char) (text : String) : Prop :=
  ∃ argument, row = "self.base.write(".toList ++ argument ∧
    Text.readLiteral argument = some (text.toList, ");".toList)

namespace GeneratedUnit

def writeCall (text : String) : String :=
  "self.base.write(" ++ Text.quote text ++ ");"

theorem isWrite_writeCall (text : String) : IsWrite (writeCall text).toList text := by
  refine ⟨(Text.quote text).toList ++ ");".toList, ?_, Text.readLiteral_quote text _⟩
  simp only [writeCall, String.toList_append, List.append_assoc]

theorem rows_writeCall (text : String) : rows (writeCall text) = [(writeCall text).toList] :=
  rows_of_not_mem (by simp [writeCall, Text.newline_not_mem_quote])

theorem withoutFinalLineFeed_writeCall (text : String) :
    withoutFinalLineFeed (writeCall text) = writeCall text := by
  have hfree : '\n' ∉ (writeCall text).toList := by simp [writeCall, Text.newline_not_mem_quote]
  rcases withoutFinalLineFeed_cases (writeCall text) with h | h
  · exact (String.toList_inj.1 h).symm
  · rw [h] at hfree
    exact absurd (by simp) hfree

/-- An entry on one line of a source, which writes a piece of content. -/
structure WrittenOnce (ls : List (List Char)) (s : TextSegment) (e : LineMapEntry) : Prop where
  oneLine : e.last = e.first
  location : e.location = s.start
  writes : ∃ row, ls[e.first - 1]? = some row ∧ IsWrite row s.text

def contents (t : Template) : List TextSegment :=
  t.texts.filter (·.kind == .content)

def contentEmission (s : TextSegment) : Emission :=
  ⟨writeCall s.text, s.start, false⟩

theorem contentEmissions_sublist (code : DirectiveCode) (ss : List Segment) (n : Nat) :
    List.Sublist (((ss.filterMap Segment.text?).filter (·.kind == .content)).map contentEmission)
      ((ss.zipIdx n).filterMap (segmentEmission? code)) := by
  induction ss generalizing n with
  | nil => exact .slnil
  | cons s ss ih =>
    rw [List.zipIdx_cons, List.filterMap_cons, List.filterMap_cons]
    cases s with
    | directive d =>
      simp only [Segment.text?, segmentEmission?]
      cases occurrence? code n with
      | none => exact ih (n + 1)
      | some text => exact (ih (n + 1)).cons _
    | text s =>
      simp only [Segment.text?, segmentEmission?, List.filter_cons]
      cases hk : s.kind with
      | content => exact (ih (n + 1)).cons_cons _
      | expression => exact (ih (n + 1)).cons _
      | block => exact (ih (n + 1)).cons _
      | helper => exact ih (n + 1)

/-- The lines of an entry are those of its text. -/
theorem Shows.rows_eq {source : String} {m : Emission} {e : LineMapEntry} (h : Shows (rows source) m e)
    (hfirst : 1 ≤ e.first) (hle : e.first ≤ e.last) (hlast : e.last ≤ Text.lineFeeds source) :
    ((rows source).drop (e.first - 1)).take (e.last + 1 - e.first) = rows (withoutFinalLineFeed m.text) := by
  have hlength : (((rows source).drop (e.first - 1)).take (e.last + 1 - e.first)).length =
      e.last + 1 - e.first := by
    rw [List.length_take, List.length_drop, length_rows]
    omega
  have hne : ((rows source).drop (e.first - 1)).take (e.last + 1 - e.first) ≠ [] := by
    rw [← List.length_pos_iff_ne_nil, hlength]
    omega
  have hfree : ∀ l ∈ ((rows source).drop (e.first - 1)).take (e.last + 1 - e.first), '\n' ∉ l :=
    fun l hl => Text.not_mem_of_mem_pieces (List.mem_of_mem_drop (List.mem_of_mem_take hl))
  have hpieces := Text.pieces_intercalate hne hfree
  rw [h.text] at hpieces
  exact hpieces.symm

theorem Shows.writtenOnce {source : String} {s : TextSegment} {e : LineMapEntry}
    (h : Shows (rows source) (contentEmission s) e) (hfirst : 1 ≤ e.first) (hle : e.first ≤ e.last)
    (hlast : e.last ≤ Text.lineFeeds source) : WrittenOnce (rows source) s e := by
  have hown : ((rows source).drop (e.first - 1)).take (e.last + 1 - e.first) =
      [(writeCall s.text).toList] := by
    rw [h.rows_eq hfirst hle hlast, contentEmission, withoutFinalLineFeed_writeCall, rows_writeCall]
  have hlength := congrArg List.length hown
  rw [List.length_take, List.length_drop, length_rows, List.length_singleton] at hlength
  refine ⟨by omega, h.location, _, ?_, isWrite_writeCall s.text⟩
  have hhead := congrArg List.head? hown
  rwa [List.head?_take, if_neg (by omega), List.head?_drop] at hhead

theorem contents_written {input : UnitInput} {kind : UnitKind} {u : GeneratedUnit}
    (h : generate input kind = .ok u) : ∃ es, List.Sublist es u.lineMap ∧
      List.Forall₂ (WrittenOnce (rows u.source)) (contents input.template) es := by
  obtain ⟨inside, after, line, ha⟩ := agrees_of_generate h
  have hsub : List.Sublist ((contents input.template).map contentEmission) (transformEmissions input) :=
    (contentEmissions_sublist input.code input.template.segments 0).trans (List.sublist_append_right _ _)
  obtain ⟨es, hes, hshows⟩ := exists_forall₂_of_sublist hsub ha.transform
  have hmap : List.Sublist es u.lineMap := by
    rw [ha.split]
    exact hes.trans (List.sublist_append_left _ _)
  refine ⟨es, hmap, forall₂_of_mem (List.forall₂_map_left_iff.1 hshows) fun s e he hs => ?_⟩
  obtain ⟨hfirst, hle, hlast⟩ := ha.bounds e (hmap.subset he)
  exact hs.writtenOnce hfirst hle hlast

/-! ## Templates without tags -/

theorem rows_transformBody {input : UnitInput} {kind : UnitKind} {u : GeneratedUnit}
    (h : generate input kind = .ok u) : ∃ before after, rows u.source =
      before ++ transformOpening.toList ::
        ((transformBody input).flatMap (Piece.rows input.settings.linePragmas) ++ takeLine.toList :: after) := by
  obtain ⟨className, modules, hsource, -⟩ := generate_eq h
  obtain ⟨before, after, hpieces, -⟩ := pieces_transform input kind className modules
  have hopening : rows transformOpening = [transformOpening.toList] := by decide
  refine ⟨before.flatMap (Piece.rows input.settings.linePragmas),
    after.flatMap (Piece.rows input.settings.linePragmas) ++ [[]], ?_⟩
  rw [hsource, rows_write, hpieces]
  simp only [List.flatMap_append, List.flatMap_cons, Piece.rows, hopening, rows_takeLine,
    List.append_assoc, List.cons_append, List.nil_append]

end GeneratedUnit

open Grammar

variable {text : String}

theorem tokens_of_noTag (file : Option String) (h : NoTag text.toList) :
    ∃ tagEnd, (Scanner.ofText file text).stream.tokens =
      [⟨.content, some text, .start file, .start file, tagEnd⟩] ∧
      (Scanner.ofText file text).stream.fault? = none := by
  let s := Scanner.ofText file text
  have hfinds : (TokenKind.content.scan s.cursor).Finds .eof (some text.toList) [] :=
    (scan_finds_iff (by decide)).2 (.inl ⟨rfl, h, rfl, rfl⟩)
  obtain ⟨hnext, hvalue, -⟩ := hfinds
  have hopen : s.next ≠ .eof := show TokenKind.content ≠ .eof by decide
  have hstream := Scanner.stream_of_ok (s := s) hopen hnext
  rw [Scanner.stream_of_eof (s := s.after .eof) rfl] at hstream
  refine ⟨(s.after .eof).tagEnd, ?_, ?_⟩
  · show s.stream.tokens = _
    rw [hstream]
    have hread : (s.after .eof).value = some text := by
      show (s.next.scan s.cursor).value.map String.ofList = _
      rw [show s.next = .content from rfl, hvalue, Option.map_some, String.ofList_toList]
    simp only [Scanner.token, hread]
    rfl
  · show s.stream.fault? = none
    rw [hstream]
    rfl

/-- A text without tags is one piece of content, unless it is empty. -/
theorem ofText_of_noTag (files : FileTree) (source : IncludeSource) (file : Option String)
    (h : NoTag text.toList) : ∃ tagEnd, Template.ofText files source file text =
      { root := file
        segments := if text = "" then []
          else [.text ⟨.content, text, .start file, .start file, tagEnd⟩] } := by
  obtain ⟨tagEnd, htokens, hfault⟩ := tokens_of_noTag file h
  refine ⟨tagEnd, ?_⟩
  have hitems : Item.ofTokens none (Scanner.ofText file text).stream.tokens = if text = "" then []
      else [.segment (.text ⟨.content, text, .start file, .start file, tagEnd⟩)] := by
    rw [htokens]
    by_cases hempty : text = "" <;>
      simp [Item.ofTokens, TokenKind.segmentKind?, Item.ofText, hempty]
  unfold Template.ofText Template.parse
  simp only [hitems, hfault]
  by_cases hempty : text = ""
  · simp [hempty, Template.expand, Template.placeHelpers]
  · simp [hempty, Template.expand, Template.placeHelpers, Template.add]

namespace Engine
open GeneratedUnit

variable {files : FileTree} {host : Host} {kind : UnitKind}

/-- What a unit is made from where the template has no tags. -/
def plainInput (host : Host) (t : Template) : UnitInput where
  template := t
  settings := {}
  code := {}
  imports := host.standardImports ++ []
  templateFile := host.templateFile

theorem directives_of_noTag (files : FileTree) (host : Host) (h : NoTag text.toList) :
    (Template.ofText files host.includes host.templateFile text).directives = [] ∧
      (Template.ofText files host.includes host.templateFile text).errors = [] := by
  obtain ⟨tagEnd, ht⟩ := ofText_of_noTag files host.includes host.templateFile h
  rw [ht]
  by_cases hempty : text = "" <;> simp [hempty, Template.directives, Segment.directive?]

theorem prepare_of_noTag (files : FileTree) (host : Host) (h : NoTag text.toList) (kind : UnitKind) :
    (prepare files host text kind).result.map (·.unit) = (generate
      (plainInput host (Template.ofText files host.includes host.templateFile text)) kind).mapError
        fun _ => Stage.codeGenerating := by
  obtain ⟨hd, he⟩ := directives_of_noTag files host h
  unfold prepare
  simp only [he, TemplateSettings.ofTemplate, hd, List.foldl_nil, Routing.ofTemplate_of_no_directives host hd]
  rw [if_neg (by decide), if_neg (by decide)]
  split <;> rename_i hgenerate <;> simp only [plainInput, hgenerate] <;> rfl

/-- Without tags the body of the transformation is the write of the text, behind a pragma for its place. -/
theorem rows_of_noTag (h : NoTag text.toList) {p : Preparation}
    (hp : (prepare files host text kind).result = .ok p) : ∃ before body after,
      rows p.unit.source = before ++ transformOpening.toList :: (body ++ takeLine.toList :: after) ∧
      if text = "" then body = []
      else ∃ row, IsWrite row text ∧ body = [(pragma (.start host.templateFile)).toList, row] := by
  have hprepare := prepare_of_noTag files host h kind
  rw [hp] at hprepare
  obtain ⟨tagEnd, ht⟩ := ofText_of_noTag files host.includes host.templateFile h
  rw [ht] at hprepare
  cases hgenerate : generate (plainInput host _) kind with
  | error e => rw [hgenerate] at hprepare; cases hprepare
  | ok u =>
    rw [hgenerate] at hprepare
    obtain rfl : p.unit = u := Except.ok.inj hprepare
    obtain ⟨before, after, hrows⟩ := rows_transformBody hgenerate
    refine ⟨before, _, after, hrows, ?_⟩
    by_cases hempty : text = ""
    · rw [if_pos hempty]
      simp [transformBody, plainInput, hempty]
    · rw [if_neg hempty]
      have hbody : transformBody (plainInput host { root := host.templateFile, segments := [.text
          ⟨.content, text, .start host.templateFile, .start host.templateFile, tagEnd⟩] }) =
            [.mapped (writeCall text) (.start host.templateFile) false] := rfl
      have hplace : (plainInput host (Template.mk host.templateFile [.text ⟨.content, text,
          .start host.templateFile, .start host.templateFile, tagEnd⟩] [] [])).settings.linePragmas = true ∧
          (1 : Int) ≤ (Location.start host.templateFile).line := ⟨rfl, Int.le_refl 1⟩
      refine ⟨_, isWrite_writeCall text, ?_⟩
      simp only [if_neg hempty, hbody, List.flatMap_singleton, Piece.rows]
      rw [if_pos hplace, rows_pragma, withoutFinalLineFeed_writeCall, rows_writeCall]
      rfl

end Engine

namespace GeneratedUnit

/-- **Literals are closed.** A literal of a text has printable characters only, so no line break; the first
quote in it that no backslash escapes, after the one that opens it, is its last character; and it reads
back as the text, whatever follows. In a unit each piece of content has, in order, one line of its own that
writes it. A template without tags makes one write, of its whole text, unless there is no text. -/
theorem literals_closed :
    (∀ (text : String) (rest : List Char),
      (∀ c ∈ (Text.quote text).toList, Text.isPrintable c ∧ c ≠ '\n' ∧ c ≠ '\r') ∧
      (∃ inside, (Text.quote text).toList = '"' :: (inside ++ ['"']) ∧
        Text.firstQuote? (inside ++ '"' :: rest) = some inside.length) ∧
      Text.readLiteral ((Text.quote text).toList ++ rest) = some (text.toList, rest)) ∧
    (∀ input kind u, generate input kind = .ok u → ∃ es, List.Sublist es u.lineMap ∧
      List.Forall₂ (WrittenOnce (rows u.source)) (contents input.template) es) ∧
    ∀ files host text, NoTag text.toList →
      (∃ p, (Engine.prepare files host text .executable).result = .ok p) ∧
      ∀ kind p, (Engine.prepare files host text kind).result = .ok p → ∃ before body after,
        rows p.unit.source = before ++ transformOpening.toList :: (body ++ takeLine.toList :: after) ∧
        if text = "" then body = []
        else ∃ row, IsWrite row text ∧ body = [(pragma (.start host.templateFile)).toList, row] := by
  refine ⟨fun text rest => ⟨fun c hc => ?_, Text.firstQuote?_quote text rest, Text.readLiteral_quote text rest⟩,
    fun input kind u => contents_written, fun files host text h =>
      ⟨?_, fun kind p => Engine.rows_of_noTag h⟩⟩
  · have hp := Text.isPrintable_of_mem_quote hc
    refine ⟨hp, ?_, ?_⟩
    · rintro rfl
      exact absurd hp (by decide)
    · rintro rfl
      exact absurd hp (by decide)
  · obtain ⟨u, hu⟩ := generate_executable
      (Engine.plainInput host (Template.ofText files host.includes host.templateFile text))
    have hprepare := Engine.prepare_of_noTag files host h .executable
    rw [hu] at hprepare
    cases hresult : (Engine.prepare files host text .executable).result with
    | ok p => exact ⟨p, rfl⟩
    | error e => rw [hresult] at hprepare; cases hprepare

/-- A quote, a backslash, a line break and a combining character. -/
def markedText : String := "a\"\\\n\u0301"

def markedInput : UnitInput where
  template :=
    { root := none, segments := [.text ⟨.content, markedText, .start none, .start none, .start none⟩] }
  settings := {}
  code := {}
  imports := []
  templateFile := none

theorem literals_closed_markedText : NoTag markedText.toList ∧
    (Text.quote markedText).toList = "\"a\\\"\\\\\\n\\u\x7b301\x7d\"".toList ∧
    Text.readLiteral (Text.quote markedText).toList = some (markedText.toList, []) ∧
    (∃ u e, generate markedInput .executable = .ok u ∧ e ∈ u.lineMap ∧ e.last = e.first ∧
      ∃ row, (rows u.source)[e.first - 1]? = some row ∧ IsWrite row markedText) ∧
    ∃ p, (Engine.prepare {} { templateFile := none } markedText .executable).result = .ok p ∧
      ∃ before row after, rows p.unit.source = before ++ transformOpening.toList ::
        ((pragma (.start none)).toList :: row :: takeLine.toList :: after) ∧ IsWrite row markedText := by
  have h : NoTag markedText.toList := fun k hk =>
    absurd (hk.subset List.mem_cons_self) (by decide)
  obtain ⟨hquote, hcontents, hplain⟩ := literals_closed
  have hread := (hquote markedText []).2.2
  rw [List.append_nil] at hread
  obtain ⟨u, hu⟩ := generate_executable markedInput
  obtain ⟨es, hsub, hes⟩ := hcontents markedInput .executable u hu
  obtain ⟨e, es', he, -, rfl⟩ := List.forall₂_cons_left_iff.1 hes
  obtain ⟨⟨p, hp⟩, hbody⟩ := hplain {} { templateFile := none } markedText h
  obtain ⟨before, body, after, hrows, hwrite⟩ := hbody .executable p hp
  rw [if_neg (by decide)] at hwrite
  obtain ⟨row, hrow, rfl⟩ := hwrite
  exact ⟨h, by decide +kernel, hread, ⟨u, e, hu, hsub.subset List.mem_cons_self, he.oneLine, he.writes⟩,
    p, hp, before, row, after, hrows, hrow⟩

end GeneratedUnit

end Templating
