import Templating.Generator
import Templating.Proofs.Ways

/-!
# What a run looks up

The paths that are followed while a template is prepared: those of all the texts it includes, at any depth,
and those of its references. The engine prepares a template alike on any two file trees that are alike on
the ways of these paths (`prepare_congr`).
-/

namespace Templating

/-! ## Requests -/

namespace Template

variable {files files' : FileTree} {source source' : IncludeSource} {active : List String}
  {file : Option String} {items : List Item} {d : Directive}

/-- The requests that a text makes, itself or through what it includes: who asks, and what for. -/
inductive Requested (files : FileTree) (source : IncludeSource) :
    Option String → List Item → Option String × String → Prop
  | here {file : Option String} {items : List Item} {d : Directive} {f : String} :
      .segment (.directive d) ∈ items → d.isNamed "include" → d.attribute? "file" = some f →
      Requested files source file items (file, f)
  | inside {file : Option String} {items : List Item} {d : Directive} {f : String} {i : Include}
      {q : Option String × String} :
      .segment (.directive d) ∈ items → d.isNamed "include" → d.attribute? "file" = some f →
      source.load (request files file f) = some i →
      Requested files source (some i.name)
        (Item.ofTokens none (Scanner.ofText (some i.name) i.content).stream.tokens) q →
      Requested files source file items q

theorem Requested.cons {item : Item} {q : Option String × String} (h : Requested files source file items q) :
    Requested files source file (item :: items) q := by
  cases h with
  | here hd hn hf => exact .here (List.mem_cons_of_mem _ hd) hn hf
  | inside hd hn hf hi hq => exact .inside (List.mem_cons_of_mem _ hd) hn hf hi hq

section
variable {f : String} (hlength : d.attributes.length = 1) (hf : d.attribute? "file" = some f)
include hlength hf

theorem included_of_unresolved (hload : source.load (request files file f) = none) :
    included files source active file d = .error (.unresolved f) := by
  unfold included
  split
  · rename_i f' _ hf'
    obtain rfl := Option.some.inj (hf.symm.trans hf')
    split
    · rfl
    · rename_i hload'
      cases hload.symm.trans hload'
  · rename_i hplain
    exact absurd hf (hplain f hlength)

theorem included_of_load {i : Include} (hload : source.load (request files file f) = some i) :
    included files source active file d =
      if ha : i.name ∈ active then .error (.cycle i.name) else .ok ⟨i, source.name_mem hload, ha⟩ := by
  unfold included
  split
  · rename_i f' _ hf'
    obtain rfl := Option.some.inj (hf.symm.trans hf')
    split
    · rename_i hload'
      cases hload.symm.trans hload'
    · rename_i j hload'
      obtain rfl := Option.some.inj (hload.symm.trans hload')
      rfl
  · rename_i hplain
    exact absurd hf (hplain f hlength)

end

theorem included_of_attributes (h : d.attributes.length = 1 → d.attribute? "file" = none) :
    included files source active file d = .error .attributes := by
  unfold included
  split
  · rename_i f hlength hf
    cases (h hlength).symm.trans hf
  · rfl

/-- What an `include` directive stands for, without what is known of its name. -/
def asked (files : FileTree) (source : IncludeSource) (active : List String) (file : Option String)
    (d : Directive) : Except IncludeError Include :=
  if d.attributes.length = 1 then
    match d.attribute? "file" with
    | none => .error .attributes
    | some f =>
      match source.load (request files file f) with
      | none => .error (.unresolved f)
      | some i => if i.name ∈ active then .error (.cycle i.name) else .ok i
  else .error .attributes

theorem map_included (files : FileTree) (source : IncludeSource) (active : List String)
    (file : Option String) (d : Directive) :
    (included files source active file d).map (·.val) = asked files source active file d := by
  unfold asked
  by_cases hlength : d.attributes.length = 1
  · rw [if_pos hlength]
    cases hf : d.attribute? "file" with
    | none =>
      rw [included_of_attributes fun _ => hf]
      rfl
    | some f =>
      dsimp only
      cases hload : source.load (request files file f) with
      | none =>
        rw [included_of_unresolved hlength hf hload]
        rfl
      | some i =>
        rw [included_of_load hlength hf hload]
        dsimp only
        by_cases hi : i.name ∈ active
        · rw [dif_pos hi, if_pos hi]
          rfl
        · rw [dif_neg hi, if_neg hi]
          rfl
  · rw [if_neg hlength, included_of_attributes fun h => absurd h hlength]
    rfl

theorem request_of_included {i : { i : Include // i.name ∈ source.names ∧ i.name ∉ active }}
    (h : included files source active file d = .ok i) :
    ∃ f, d.attribute? "file" = some f ∧ source.load (request files file f) = some i.val := by
  have hmap := map_included files source active file d
  rw [h] at hmap
  unfold asked at hmap
  split at hmap
  · split at hmap
    · cases hmap
    · rename_i f hf
      refine ⟨f, hf, ?_⟩
      split at hmap
      · cases hmap
      · rename_i j hload
        split at hmap
        · cases hmap
        · rw [hload]
          exact congrArg some (Except.ok.inj hmap).symm
  · cases hmap

section
variable (h : ∀ f, d.attribute? "file" = some f →
  source'.load (request files' file f) = source.load (request files file f))
include h

theorem map_included_congr : (included files' source' active file d).map (·.val) =
    (included files source active file d).map (·.val) := by
  rw [map_included, map_included]
  unfold asked
  cases hf : d.attribute? "file" with
  | none => rfl
  | some f =>
    dsimp only
    rw [h f hf]

theorem included_error_congr {e : IncludeError} (he : included files source active file d = .error e) :
    included files' source' active file d = .error e := by
  have hmap : (included files' source' active file d).map (·.val) = .error e := by
    rw [map_included_congr h, he]
    rfl
  cases hi : included files' source' active file d with
  | error e' =>
    rw [hi] at hmap
    rw [Except.error.inj hmap]
  | ok i =>
    rw [hi] at hmap
    cases hmap

theorem included_ok_congr {i : { i : Include // i.name ∈ source.names ∧ i.name ∉ active }}
    (hi : included files source active file d = .ok i) :
    ∃ i', included files' source' active file d = .ok i' ∧ i'.val = i.val := by
  have hmap : (included files' source' active file d).map (·.val) = .ok i.val := by
    rw [map_included_congr h, hi]
    rfl
  cases hi' : included files' source' active file d with
  | error e' =>
    rw [hi'] at hmap
    cases hmap
  | ok i' =>
    rw [hi'] at hmap
    exact ⟨i', rfl, Except.ok.inj hmap⟩

end

theorem expand_congr (active : List String) (file : Option String) (inside : Bool)
    (ending : Option SyntaxFault) (t : Template) (items : List Item)
    (h : ∀ q, Requested files source file items q →
      source'.load (request files' q.1 q.2) = source.load (request files q.1 q.2)) :
    expand files' source' active file inside ending t items =
      expand files source active file inside ending t items := by
  fun_induction expand files source active file inside ending t items with
  | case1 active file inside ending t => rw [expand]
  | case2 active file inside ending t l items ih =>
    rw [expand]
    exact ih fun q hq => h q hq.cons
  | case3 active file inside ending t s items ih =>
    rw [expand]
    exact ih fun q hq => h q hq.cons
  | case4 active file inside ending t d items hd e he ih =>
    have he' := included_error_congr (fun f hf => h _ (.here List.mem_cons_self hd hf)) he
    rw [expand, if_pos hd, he']
    exact ih fun q hq => h q hq.cons
  | case5 active file inside ending t d items hd i hi stream t' fault hx ih =>
    obtain ⟨f, hf, hload⟩ := request_of_included hi
    obtain ⟨i', hi', hval⟩ := included_ok_congr (fun f hf => h _ (.here List.mem_cons_self hd hf)) hi
    have hinner := ih fun q hq => h q (.inside List.mem_cons_self hd hf hload hq)
    rw [expand, if_pos hd, hi']
    dsimp only
    rw [hval, hinner.trans hx]
  | case6 active file inside ending t d items hd i hi stream t' hx ih ih' =>
    obtain ⟨f, hf, hload⟩ := request_of_included hi
    obtain ⟨i', hi', hval⟩ := included_ok_congr (fun f hf => h _ (.here List.mem_cons_self hd hf)) hi
    have hinner := ih fun q hq => h q (.inside List.mem_cons_self hd hf hload hq)
    rw [expand, if_pos hd, hi']
    dsimp only
    rw [hval, hinner.trans hx]
    exact ih' fun q hq => h q hq.cons
  | case7 active file inside ending t d items hd ih =>
    rw [expand, if_neg hd]
    exact ih fun q hq => h q hq.cons

/-- The requests of a template. -/
def Requests (files : FileTree) (source : IncludeSource) (file : Option String) (text : String)
    (q : Option String × String) : Prop :=
  Requested files source file (Item.ofTokens none (Scanner.ofText file text).stream.tokens) q

theorem ofText_congr {text : String} (h : ∀ q, Requests files source file text q →
      source'.load (request files' q.1 q.2) = source.load (request files q.1 q.2)) :
    ofText files' source' file text = ofText files source file text := by
  unfold ofText parse
  dsimp only
  have hfile : (Scanner.ofText file text).location.file = file := rfl
  rw [hfile, expand_congr _ file _ _ _ _ h]

/-! ### A text that is an include -/

theorem not_requested (h : ∀ d, .segment (.directive d) ∉ items) (q : Option String × String) :
    ¬ Requested files source file items q := by
  intro hq
  cases hq with
  | here hd => exact h _ hd
  | inside hd => exact h _ hd

section
variable {text f : String} {i : Include}
  (hitems : Item.ofTokens none (Scanner.ofText file text).stream.tokens = [.segment (.directive d)])
  (hf : d.attribute? "file" = some f) (hload : source.load (request files file f) = some i)
include hitems hf hload

theorem eq_of_requests (hinner : ∀ e, .segment (.directive e) ∉
      Item.ofTokens none (Scanner.ofText (some i.name) i.content).stream.tokens)
    {q : Option String × String} (h : Requests files source file text q) : q = (file, f) := by
  unfold Requests at h
  rw [hitems] at h
  cases h with
  | here hd _ hf' =>
    obtain rfl := Segment.directive.inj (Item.segment.inj (List.mem_singleton.1 hd))
    rw [Option.some.inj (hf'.symm.trans hf)]
  | inside hd _ hf' hload' hq =>
    obtain rfl := Segment.directive.inj (Item.segment.inj (List.mem_singleton.1 hd))
    obtain rfl := Option.some.inj (hf'.symm.trans hf)
    obtain rfl := Option.some.inj (hload'.symm.trans hload)
    exact absurd hq (not_requested hinner _)

theorem ofText_include (hfault : (Scanner.ofText file text).stream.fault? = none)
    (hd : d.isNamed "include") (hlength : d.attributes.length = 1) (hnew : i.name ∉ file.toList) :
    ofText files source file text =
      match expand files source (i.name :: file.toList) (some i.name) true
        (Scanner.ofText (some i.name) i.content).stream.fault? { root := file }
        (Item.ofTokens none (Scanner.ofText (some i.name) i.content).stream.tokens) with
      | (t, none) => t.placeHelpers
      | (t, some fault) => t.recordFault fault := by
  have hincluded : included files source file.toList file d = .ok ⟨i, source.name_mem hload, hnew⟩ := by
    rw [included_of_load hlength hf hload, dif_neg hnew]
  have hlocation : (Scanner.ofText file text).location.file = file := rfl
  unfold ofText parse
  dsimp only
  rw [hitems, hfault, hlocation, expand, if_pos hd]
  rw [hincluded]
  dsimp only
  generalize expand files source (i.name :: file.toList) _ _ _ _ _ = expanded
  obtain ⟨t, _ | fault⟩ := expanded
  · dsimp only
    rw [expand]
  · rfl

end

end Template

/-! ## Routing and references -/

namespace Routing

variable {host host' : Host}

/-- Routing takes values and processors from its host, and nothing else. -/
theorem ofTemplate_congr (hvalues : host'.parameter = host.parameter)
    (hprocessors : host'.resolveProcessor = host.resolveProcessor) (t : Template) :
    ofTemplate host' t = ofTemplate host t := by
  have hresolve : resolve host' = resolve host := by
    funext name
    unfold resolve
    rw [hprocessors]
  have hprocess : process host' = process host := by
    funext r name index d l
    unfold process
    rw [hvalues, hresolve]
  have hstep : step host' t.root = step host t.root := by
    funext r s
    unfold step
    rw [hprocess]
  unfold ofTemplate
  rw [hstep]

end Routing

namespace Engine

variable {files files' : FileTree} {host host' : Host} {text : String} {kind : UnitKind}

/-- The references of a template, as they are asked of the host. -/
def referenceNames (files : FileTree) (host : Host) (text : String) : List String :=
  let t := Template.ofText files host.includes host.templateFile text
  host.standardReferences ++ (TemplateSettings.ofTemplate t).1.references ++
    (Routing.ofTemplate host t).1.references

/-- Two hosts that know the same, but for what they take from files. -/
structure SameButFiles (host host' : Host) : Prop where
  templateFile : host'.templateFile = host.templateFile
  standardReferences : host'.standardReferences = host.standardReferences
  standardImports : host'.standardImports = host.standardImports
  parameter : host'.parameter = host.parameter
  resolveProcessor : host'.resolveProcessor = host.resolveProcessor
  session : host'.session = host.session

theorem prepare_congr (hsame : SameButFiles host host')
    (hincludes : ∀ q, Template.Requests files host.includes host.templateFile text q →
      host'.includes.load (Template.request files' q.1 q.2) =
        host.includes.load (Template.request files q.1 q.2))
    (hreferences : ∀ name ∈ referenceNames files host text,
      host'.resolveReference name = host.resolveReference name) :
    prepare files' host' text kind = prepare files host text kind := by
  have htemplate : Template.ofText files' host'.includes host'.templateFile text =
      Template.ofText files host.includes host.templateFile text := by
    rw [hsame.templateFile]
    exact Template.ofText_congr hincludes
  have hrouting := Routing.ofTemplate_congr hsame.parameter hsame.resolveProcessor
    (Template.ofText files host.includes host.templateFile text)
  have hresolved : resolveReferences host' (referenceNames files host text) =
      resolveReferences host (referenceNames files host text) := by
    unfold resolveReferences
    rw [List.map_congr_left hreferences]
  unfold referenceNames at hresolved
  unfold prepare
  dsimp only at hresolved ⊢
  rw [htemplate, hrouting, hsame.standardReferences, hresolved, hsame.standardImports, hsame.templateFile]

end Engine

/-! ## What a generator looks up -/

namespace Generator

variable {g g' : Generator} {files files' : FileTree}

/-- Where a file that is requested in another is looked for first. -/
def besides (file : Option String) (f : String) : List Path :=
  match file.bind fun f => (Path.mk f).parent? with
  | none => []
  | some dir => if (Path.mk f).isAbsolute then [] else [dir.join ⟨f⟩]

/-- A path as seen from the template's directory, before it is resolved. -/
def fromTemplate (g : Generator) (p : Path) : Path :=
  match g.templateDirectory with
  | some dir => dir.join p
  | none => p

/-- The paths that are followed for a requested text. -/
def includeLookups (g : Generator) (files : FileTree) (request : String) : List Path :=
  g.fromTemplate ⟨request⟩ :: g.includeCandidates files request

/-- The paths that are followed for a reference. -/
def referenceLookups (g : Generator) (reference : String) : List Path :=
  let name := Text.trim reference
  ⟨name⟩ :: g.referencePaths.flatMap fun dir =>
    (referenceFileNames name).map fun file => dir.join ⟨file⟩

theorem request_congr {file : Option String} {f : String}
    (h : ∀ p ∈ besides file f, files.SameWay files' p) :
    Template.request files' file f = Template.request files file f := by
  unfold Template.request
  unfold besides at h
  split
  · rfl
  · rename_i dir hdir
    rw [hdir] at h
    dsimp only at h ⊢
    split
    · rfl
    · rename_i hrelative
      rw [if_neg hrelative] at h
      have hsame := h _ (List.mem_singleton_self _)
      rw [hsame.isFile, hsame.canonicalOr]

theorem find?_isFile_congr {ps : List Path} (h : ∀ p ∈ ps, files.SameWay files' p) :
    ps.find? files'.isFile = ps.find? files.isFile := by
  induction ps with
  | nil => rfl
  | cons p ps ih =>
    rw [List.find?_cons, List.find?_cons, (h p List.mem_cons_self).isFile,
      ih fun q hq => h q (List.mem_cons_of_mem _ hq)]

theorem includeCandidates_congr {request : String}
    (h : ∀ p ∈ g.includeLookups files request, files.SameWay files' p) :
    g.includeCandidates files' request = g.includeCandidates files request := by
  have hjoined := (h _ List.mem_cons_self).canonicalOr
  unfold fromTemplate at hjoined
  unfold includeCandidates resolvePath
  cases hdir : g.templateDirectory with
  | none =>
    rw [hdir] at hjoined
    dsimp only at hjoined ⊢
    rw [hjoined]
  | some dir =>
    rw [hdir] at hjoined
    dsimp only at hjoined ⊢
    rw [hjoined]

theorem loadInclude_congr {request : String}
    (h : ∀ p ∈ g.includeLookups files request, files.SameWay files' p) :
    g.loadInclude files' request = g.loadInclude files request := by
  have hcandidates : ∀ p ∈ g.includeCandidates files request, files.SameWay files' p :=
    fun p hp => h p (List.mem_cons_of_mem _ hp)
  unfold loadInclude
  rw [includeCandidates_congr h, find?_isFile_congr hcandidates]
  split
  · rfl
  · rename_i p hp
    have hsame := hcandidates p (List.mem_of_find?_eq_some hp)
    rw [hsame.readTemplate, hsame.canonicalOr]

theorem resolveReference_congr {reference : String}
    (h : ∀ p ∈ g.referenceLookups reference, files.SameWay files' p) :
    g.resolveReference files' reference = g.resolveReference files reference := by
  have hname := h _ List.mem_cons_self
  unfold resolveReference
  dsimp only
  rw [find?_isFile_congr fun p hp => h p (List.mem_cons_of_mem _ hp), hname.isFile, hname.canonicalOr]

end Generator

end Templating
