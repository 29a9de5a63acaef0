import Mathlib
import Templating.Proofs.Tracing

/-!
# Embedding code

Any code can stand in a tag once its closing tags are escaped: the body is read back as the code, and
what follows the tag is read as a text of its own (`tokenize_embedded`).
-/

namespace Templating

namespace Grammar

/-! ## Escaped closing tags -/

theorem eq_of_escapeTags_eq {r z : List Char} (h : escapeTags r = '>' :: z) : ∃ r', r = '>' :: r' := by
  unfold escapeTags at h
  split at h
  · simp at h
  · exact ⟨_, congrArg (· :: _) (List.cons.inj h).1⟩
  · cases h

/-- Every closing tag in escaped text has its backslash. -/
theorem escapeTags_escaped {r a z : List Char} (h : escapeTags r = a ++ '#' :: '>' :: z) :
    a.getLast? = some '\\' := by
  fun_induction escapeTags r generalizing a with
  | case1 r ih =>
    -- the tag is the one just escaped if only its backslash stands before it, or it stands further on
    match a, h with
    | [], h => simp at h
    | [x], h => simpa using (List.cons.inj h).1.symm
    | [x, y], h => simp at h
    | x :: y :: w :: a, h =>
      simp only [List.cons_append, List.cons.injEq] at h
      rw [List.getLast?_cons_cons, List.getLast?_cons_cons]
      cases a with
      | nil =>
        have := ih (a := []) h.2.2.2
        simp at this
      | cons v a =>
        rw [List.getLast?_cons_cons]
        exact ih h.2.2.2
  | case2 c r hc ih =>
    cases a with
    | nil =>
      obtain ⟨hsharp, hr⟩ := List.cons.inj h
      obtain ⟨r', rfl⟩ := eq_of_escapeTags_eq hr
      exact (hc r' hsharp rfl).elim
    | cons x a =>
      have := ih (List.cons.inj h).2
      cases a with
      | nil => simp at this
      | cons y a => simpa using this
  | case3 => simp at h

theorem unescapeTags_cons {c : Char} {r : List Char} (h : ∀ z, c = '\\' → r ≠ '#' :: '>' :: z) :
    Scan.unescapeTags (c :: r) = c :: Scan.unescapeTags r := by
  rw [Scan.unescapeTags]
  exact fun z hc hr => h z hc hr

theorem unescapeTags_escapeTags (r : List Char) : Scan.unescapeTags (escapeTags r) = r := by
  fun_induction escapeTags r with
  | case1 r ih => rw [Scan.unescapeTags, ih]
  | case2 c r hc ih =>
    rw [unescapeTags_cons, ih]
    intro z _ hz
    have := escapeTags_escaped (a := []) hz
    simp at this
  | case3 => rfl

theorem replaced_escapeTags (r : List Char) : Replaced ['#', '>'] ['\\', '#', '>'] r (escapeTags r) := by
  fun_induction escapeTags r with
  | case1 r ih =>
    obtain ⟨p, ps, hp, hr, hv⟩ := ih
    refine ⟨[], p :: ps, ?_, ?_, ?_⟩
    · simpa using hp
    · rw [List.intercalate_cons_cons, ← hr]; rfl
    · rw [List.intercalate_cons_cons, ← hv]; rfl
  | case2 c r hc ih =>
    refine ih.cons c ?_
    rintro ⟨z, hz⟩
    simp only [List.cons_append, List.nil_append, List.cons.injEq] at hz
    exact hc z hz.1.symm hz.2.symm
  | case3 => exact ⟨[], [], by simp, rfl, rfl⟩

theorem getLast?_escapeTags (r : List Char) : (escapeTags r).getLast? = r.getLast? := by
  fun_induction escapeTags r with
  | case1 r ih => simp [List.getLast?_cons, ih]
  | case2 c r hc ih => simp [List.getLast?_cons, ih]
  | case3 => rfl

theorem head?_escapeTags (r : List Char) :
    (escapeTags r).head? = r.head? ∨ (escapeTags r).head? = some '\\' := by
  unfold escapeTags
  split <;> simp

theorem isBody_of_escaped {r : List Char} (hclosed : r.getLast? ≠ some '\\')
    (h : ∀ a z, r = a ++ '#' :: '>' :: z → a.getLast? = some '\\') : IsBody r where
  closed := hclosed
  shortest := by
    intro r' hp hr'
    rcases List.prefix_concat_iff.1 (show r' ++ ['#', '>'] <+: (r ++ ['#']) ++ ['>'] by simpa using hp) with
      he | hp'
    · simpa using he
    · exfalso
      rcases List.prefix_concat_iff.1 hp' with he | ⟨z, hz⟩
      · have := congrArg List.getLast? he
        simp at this
      · exact hr' (h r' z (by rw [← hz]; simp))

theorem isBody_escapeTags {code : List Char} (h : code.getLast? ≠ some '\\') : IsBody (escapeTags code) := by
  apply isBody_of_escaped
  · rwa [getLast?_escapeTags]
  · exact fun a z hz => escapeTags_escaped hz

theorem CodeKind.Admits.escapeTags {k : CodeKind} {code : List Char} (h : k.Admits code) :
    k.Admits (escapeTags code) := by
  intro hk c hc
  rcases head?_escapeTags code with he | he
  · rw [he] at hc
    exact h hk c hc
  · rw [he] at hc
    obtain rfl := Option.some.inj hc
    decide

/-! ## What follows a tag -/

/-- A text without the line break that it begins with. -/
def dropLineBreak : List Char → List Char
  | '\r' :: '\n' :: r => r
  | '\r' :: r => r
  | '\n' :: r => r
  | cs => cs

theorem dropLineBreak_spec (cs : List Char) : ∃ n, cs = n ++ dropLineBreak cs ∧ IsLineBreak n (dropLineBreak cs) := by
  have hskip : (Scan.skipLineBreak ⟨cs, 0, .empty, .empty⟩).rest = dropLineBreak cs := by
    unfold Scan.skipLineBreak dropLineBreak
    split <;> simp_all
  have := skipLineBreak_rest ⟨cs, 0, .empty, .empty⟩
  rwa [hskip] at this

def CodeKind.opening : CodeKind → String
  | .expression => "<#="
  | .helper => "<#+"
  | .block => "<#"

/-- What a tag leaves of the text behind it. -/
def CodeKind.leaves (k : CodeKind) (after : String) : String :=
  if k = .expression then after else String.ofList (dropLineBreak after.toList)

theorem CodeKind.leaves_spec (k : CodeKind) (after : String) :
    ∃ n, after.toList = n ++ (k.leaves after).toList ∧ k.Takes n (k.leaves after).toList := by
  unfold leaves Takes
  by_cases hk : k = .expression
  · simp [hk]
  · simpa [hk] using dropLineBreak_spec after.toList

/-! ## Tokens without their places -/

theorem faces?_eq_some_iff {s : Scanner} {fs : List (TokenKind × Option String)} :
    s.stream.faces? = some fs ↔ Run s.next s.cursor.rest fs :=
  ⟨run_of_faces? s, fun h => faces?_eq_some_of_run h s rfl rfl⟩

/-- What is read does not depend on what was read before. -/
theorem faces?_congr {s s' : Scanner} (hnext : s.next = s'.next) (hrest : s.cursor.rest = s'.cursor.rest) :
    s.stream.faces? = s'.stream.faces? := by
  apply Option.ext
  intro fs
  rw [faces?_eq_some_iff, faces?_eq_some_iff, hnext, hrest]

theorem faces?_of_reads {s s' : Scanner} {v : Option (List Char)} (hne : s.next ≠ .eof)
    (hr : Reads s.next s.cursor.rest s'.next v s'.cursor.rest) :
    s.stream.faces? = s'.stream.faces?.map ((s.next, v.map String.ofList) :: ·) := by
  obtain ⟨hk, rfl, ht⟩ := (scan_finds_iff hne).2 hr
  rw [faces?_of_ok hne hk]
  congr 1
  exact faces?_congr rfl ht

/-! ## Texts that have tokens -/

/-- A character that begins no tag makes no difference to whether a text can be read. -/
theorem exists_reading_cons {c : Char} {cs : List Char} (hc : c ≠ '<') :
    (∃ ρ : Reading, ρ.Valid ∧ ρ.source = c :: cs) ↔ ∃ ρ : Reading, ρ.Valid ∧ ρ.source = cs := by
  have hopen : ∀ {x : List Char}, NoOpening (c :: x) ↔ NoOpening x := by
    intro x
    rw [noOpening_cons]
    exact and_iff_left fun _ h => absurd h hc
  have htag : ∀ {x : List Char}, NoTag (c :: x) ↔ NoTag x := by
    intro x
    rw [noTag_cons]
    exact and_iff_left fun _ _ h => absurd h hc
  -- the character belongs to the literal text that every reading begins with
  constructor
  · rintro ⟨ρ, h, e⟩
    cases ρ with
    | text x =>
      obtain rfl : x = c :: cs := e
      exact ⟨.text cs, htag.1 h, rfl⟩
    | code x k r n rest =>
      cases x with
      | nil => exact absurd (List.cons.inj e).1.symm hc
      | cons y x =>
        obtain ⟨rfl, rfl⟩ := List.cons.inj e
        exact ⟨.code x k r n rest, ⟨hopen.1 h.1, h.2⟩, rfl⟩
    | directive x d n rest =>
      cases x with
      | nil => exact absurd (List.cons.inj e).1.symm hc
      | cons y x =>
        obtain ⟨rfl, rfl⟩ := List.cons.inj e
        exact ⟨.directive x d n rest, ⟨hopen.1 h.1, h.2⟩, rfl⟩
  · rintro ⟨ρ, h, rfl⟩
    cases ρ with
    | text x => exact ⟨.text (c :: x), htag.2 h, rfl⟩
    | code x k r n rest => exact ⟨.code (c :: x) k r n rest, ⟨hopen.2 h.1, h.2⟩, rfl⟩
    | directive x d n rest => exact ⟨.directive (c :: x) d n rest, ⟨hopen.2 h.1, h.2⟩, rfl⟩

theorem exists_reading_append {n cs : List Char} (hn : ∀ c ∈ n, c ≠ '<') :
    (∃ ρ : Reading, ρ.Valid ∧ ρ.source = n ++ cs) ↔ ∃ ρ : Reading, ρ.Valid ∧ ρ.source = cs := by
  induction n with
  | nil => rfl
  | cons c n ih =>
    rw [List.cons_append, exists_reading_cons (hn c List.mem_cons_self)]
    exact ih fun x hx => hn x (List.mem_cons_of_mem c hx)

theorem CodeKind.Takes.no_opening {k : CodeKind} {n t : List Char} (h : k.Takes n t) : ∀ c ∈ n, c ≠ '<' := by
  unfold Takes at h
  split at h
  · simp [h]
  · have := h.mem
    simp only [lineBreaks, List.mem_cons, List.not_mem_nil, or_false] at this
    rcases this with rfl | rfl | rfl | rfl <;> simp

end Grammar

open Grammar

/-- The tokens of a text without their places, if it has tokens. -/
def tokenFaces? (file : Option String) (text : String) : Option (List (TokenKind × Option String)) :=
  (tokenize file text).toOption.map (·.map Token.face)

theorem tokenFaces?_eq (file : Option String) (text : String) :
    tokenFaces? file text = (Scanner.ofText file text).stream.faces? := by
  unfold tokenFaces? tokenize TokenStream.faces?
  cases h : (Scanner.ofText file text).stream.ending <;> simp [h, Except.map, Except.toOption]

theorem tokenFaces?_eq_none_iff {file : Option String} {text : String} :
    tokenFaces? file text = none ↔ ¬ ∃ ρ : Reading, ρ.Valid ∧ ρ.source = text.toList := by
  rw [tokenFaces?_eq, Option.eq_none_iff_forall_ne_some, not_exists]
  constructor
  · rintro h ρ ⟨hρ, he⟩
    exact h ρ.faces (faces?_eq_some_iff.2 (run_content_iff.2 ⟨ρ, hρ, he, rfl⟩))
  · intro h fs hfs
    obtain ⟨ρ, hρ, he, -⟩ := run_content_iff.1 (faces?_eq_some_iff.1 hfs)
    exact h ρ ⟨hρ, he⟩

theorem tokenFaces?_leaves_eq_none_iff {file : Option String} (kind : CodeKind) (after : String) :
    tokenFaces? file (kind.leaves after) = none ↔ tokenFaces? file after = none := by
  obtain ⟨n, hafter, hn⟩ := kind.leaves_spec after
  rw [tokenFaces?_eq_none_iff, tokenFaces?_eq_none_iff, hafter, exists_reading_append hn.no_opening]

/-- A text with code in a tag, and text before and after it. -/
def embed (kind : CodeKind) (before code after : String) : String :=
  before ++ kind.opening ++ String.ofList (escapeTags code.toList) ++ "#>" ++ after

theorem embed_toList (kind : CodeKind) (before code after : String) : (embed kind before code after).toList =
    before.toList ++ '<' :: '#' :: (kind.mark ++ (escapeTags code.toList ++ '#' :: '>' :: after.toList)) := by
  cases kind <;> simp [embed, CodeKind.opening, CodeKind.mark]

theorem tokenFaces?_embed (file : Option String) {kind : CodeKind} {before code after : String}
    (hbefore : NoOpening before.toList) (hcode : code.toList.getLast? ≠ some '\\')
    (hkind : kind.Admits code.toList) :
    tokenFaces? file (embed kind before code after) = (tokenFaces? file (kind.leaves after)).map fun fs =>
      (.content, some before) :: (kind.token, some code) :: fs := by
  obtain ⟨n, hafter, hn⟩ := kind.leaves_spec after
  -- the scanners before the literal text, behind the opening of the tag, and behind the tag
  let start := Scanner.ofText file (embed kind before code after)
  let inside : Scanner := { start with
    next := kind.token
    cursor := { start.cursor with rest := escapeTags code.toList ++ '#' :: '>' :: after.toList } }
  let behind := Scanner.ofText file (kind.leaves after)
  have hcontent : Reads start.next start.cursor.rest inside.next (some before.toList) inside.cursor.rest := by
    have := reads_tag (y := '>' :: after.toList) hbefore hkind.escapeTags
    rwa [← embed_toList] at this
  have hbody : Reads inside.next inside.cursor.rest behind.next (some code.toList) behind.cursor.rest := by
    refine (reads_code_iff kind).2 ⟨rfl, escapeTags code.toList, n, ?_, isBody_escapeTags hcode, hn, ?_⟩
    · exact congrArg (escapeTags code.toList ++ '#' :: '>' :: ·) hafter
    · rw [unescapeTags_escapeTags]
  have hne : inside.next ≠ .eof := by cases kind <;> simp [inside, CodeKind.token]
  rw [tokenFaces?_eq, tokenFaces?_eq, faces?_of_reads (by simp [start, Scanner.ofText]) hcontent,
    faces?_of_reads hne hbody, Option.map_map]
  simp [start, inside, behind, Scanner.ofText, Function.comp_def]

/-- **Any code can be embedded.** A text with code in a tag is read as the text before the tag, the code,
and the tokens of the text that the tag leaves; it has no tokens exactly if the text behind the tag has
none. The code stands in the tag with every closing tag in it escaped. -/
theorem tokenize_embedded (file : Option String) (kind : CodeKind) (before code after : String)
    (hbefore : NoOpening before.toList) (hcode : code.toList.getLast? ≠ some '\\')
    (hkind : kind.Admits code.toList) :
    Replaced ['#', '>'] ['\\', '#', '>'] code.toList (escapeTags code.toList) ∧
    (tokenFaces? file (embed kind before code after) = (tokenFaces? file (kind.leaves after)).map fun fs =>
      (.content, some before) :: (kind.token, some code) :: fs) ∧
    (tokenFaces? file (embed kind before code after) = none ↔ tokenFaces? file after = none) := by
  have hread : tokenFaces? file (embed kind before code after) = _ :=
    tokenFaces?_embed file hbefore hcode hkind
  refine ⟨replaced_escapeTags code.toList, hread, ?_⟩
  rw [hread, Option.map_eq_none_iff, tokenFaces?_leaves_eq_none_iff]

theorem tokenize_embedded_closingTag : NoOpening "a<".toList ∧ "#> \\#>#".toList.getLast? ≠ some '\\' ∧
    CodeKind.block.Admits "#> \\#>#".toList ∧
    tokenFaces? none (embed .block "a<" "#> \\#>#" "\r\ny") =
      some [(.content, some "a<"), (.block, some "#> \\#>#"), (.content, some "y"), (.eof, none)] := by
  have hbefore : NoOpening "a<".toList := by simp [NoOpening, List.infix_cons_iff]
  have hcode : "#> \\#>#".toList.getLast? ≠ some '\\' := by decide
  have hkind : CodeKind.block.Admits "#> \\#>#".toList := by simp [CodeKind.Admits]
  refine ⟨hbefore, hcode, hkind, ?_⟩
  rw [(tokenize_embedded none .block "a<" "#> \\#>#" "\r\ny" hbefore hcode hkind).2.1]
  cbv

end Templating
