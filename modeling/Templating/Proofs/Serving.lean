import Mathlib
import Templating.DirectiveRouting
import Templating.Proofs.Buffering

/-!
# Serving directives

All calls that routing makes to processors, in the order in which they are made and with their answers.
Each processor that is started takes one run: its directives in source order, its finish, and then its
code, references and imports are read (`ofTemplate_driven`). What routing gives is read off the calls.
-/

namespace Templating

/-- What is asked of a processor, with its answer. -/
inductive Call
  | start
  | directive (index : Nat) (d : Directive) (answer : Except ProcessorError String)
  | finish
  | preInitialization (answer : Except ProcessorError String)
  | postInitialization (answer : Except ProcessorError String)
  | references (names : List String)
  | imports (paths : List String)

/-- A directive with its index and the answer to it. -/
abbrev Answered :=
  (Nat × Directive) × Except ProcessorError String

def Call.ofAnswered (x : Answered) : Call :=
  .directive x.1.1 x.1.2 x.2

def Call.error? : Call → Option ProcessorError
  | .directive _ _ (.error e) => some e
  | .preInitialization (.error e) => some e
  | .postInitialization (.error e) => some e
  | _ => none

theorem Call.answer_of_error? {x : Answered} {e : ProcessorError} (h : (ofAnswered x).error? = some e) :
    x.2 = .error e := by
  obtain ⟨x, answer⟩ := x
  cases answer with
  | error e' => exact congrArg Except.error (Option.some.inj h)
  | ok fragment => cases h

namespace Processor

inductive Takes (values : ParameterLookup) : Processor → Call → Processor → Prop
  | start {p} : p.startRun.1 = .ok () → Takes values p .start p.startRun.2
  | directive {p} (index : Nat) (d : Directive) : Takes values p
      (.directive index d (p.processDirective values d).1) (p.processDirective values d).2
  | finish {p} : Takes values p .finish p.finishRun
  | preInitialization {p} : Takes values p (.preInitialization p.preCode) p
  | postInitialization {p} : Takes values p (.postInitialization p.postCode) p
  | references {p} : Takes values p (.references p.currentReferences) p
  | imports {p} : Takes values p (.imports p.currentImports) p

/-- Calls one after the other. -/
inductive TakesAll (values : ParameterLookup) (p : Processor) : List Call → Processor → Prop
  | nil : TakesAll values p [] p
  | snoc {q r cs c} : TakesAll values p cs q → Takes values q c r → TakesAll values p (cs ++ [c]) r

end Processor

namespace Routing

/-- What happens while directives are routed. -/
inductive Event
  | unrouted (index : Nat) (d : Directive)
  | unresolved (index : Nat) (d : Directive) (message : String)
  | unstarted (index : Nat) (d : Directive) (e : ProcessorError)
  /-- A call to the processor that was started under a name. -/
  | call (name : String) (c : Call)

namespace Event

def report (root : Option String) : Event → Diagnostics
  | .unrouted _ d =>
    [.error "TT2001" ("directive '" ++ d.name ++ "' has no processor") (d.start.orIn root)]
  | .unresolved _ d message => [.error "TT2001" message (d.start.orIn root)]
  | .unstarted _ d e => [.error "TT2002" e.message (d.start.orIn root)]
  | .call _ (.directive _ d (.error e)) => [.error "TT2002" e.message (d.start.orIn root)]
  | .call _ (.preInitialization (.error e)) => [.error "TT2002" e.message (.whole root)]
  | .call _ (.postInitialization (.error e)) => [.error "TT2002" e.message (.whole root)]
  | .call _ _ => []

def code : Event → DirectiveCode
  | .call _ (.directive index _ (.ok fragment)) => { occurrences := [(index, fragment)] }
  | .call _ (.preInitialization (.ok fragment)) => { preInitialization := fragment }
  | .call _ (.postInitialization (.ok fragment)) => { postInitialization := fragment }
  | .call _ (.references names) => { references := names }
  | .call _ (.imports paths) => { imports := paths }
  | _ => {}

/-- The directive that an event is about, with its index. -/
def directive? : Event → Option (Nat × Directive)
  | .unrouted index d => some (index, d)
  | .unresolved index d _ => some (index, d)
  | .unstarted index d _ => some (index, d)
  | .call _ (.directive index d _) => some (index, d)
  | .call _ _ => none

def started? : Event → Option String
  | .call name .start => some name
  | _ => none

def callTo? (name : String) : Event → Option Call
  | .call n c => if n = name then some c else none
  | _ => none

/-- An event is what it says it is. -/
def Holds (host : Host) : Event → Prop
  | .unrouted _ d => route d = .nowhere
  | .unresolved _ d message => ∃ name, route d = .processor name ∧ resolve host name = .error message
  | .unstarted _ d e => ∃ name p, route d = .processor name ∧ resolve host name = .ok p ∧
      p.startRun.1 = .error e
  | .call _ _ => True

end Event

def codeOf (events : List Event) : DirectiveCode where
  preInitialization := String.join (events.map (·.code.preInitialization))
  postInitialization := String.join (events.map (·.code.postInitialization))
  occurrences := events.flatMap (·.code.occurrences)
  imports := events.flatMap (·.code.imports)
  references := events.flatMap (·.code.references)

def callsTo (name : String) (events : List Event) : List Call :=
  events.filterMap (Event.callTo? name)

/-! ## What a processor has to serve -/

def directive? : Segment × Nat → Option (Nat × Directive)
  | (.directive d, index) => some (index, d)
  | (.text _, _) => none

def isRoutedTo (name : String) (d : Directive) : Bool :=
  match route d with
  | .processor n => Text.sameIgnoringCase n name
  | _ => false

/-- A processor can be started for a directive. -/
def opens (host : Host) (d : Directive) : Bool :=
  match route d with
  | .processor name =>
    match resolve host name with
    | .ok p => p.startRun.1.isOk
    | .error _ => false
  | _ => false

/-- The directives that are routed to a name, from the first that a processor can be started for. -/
def served (host : Host) (name : String) (segments : List (Segment × Nat)) : List (Nat × Directive) :=
  ((segments.filterMap directive?).filter fun x => isRoutedTo name x.2).dropWhile fun x => !opens host x.2

section
variable {host : Host} {name n : String} {segments : List (Segment × Nat)} {d : Directive} {index : Nat}

theorem isRoutedTo_iff (h : route d = .processor n) : isRoutedTo name d ↔ Text.lower n = Text.lower name := by
  simp [isRoutedTo, h, Text.sameIgnoringCase_iff]

theorem served_congr (h : Text.lower n = Text.lower name) : served host n segments = served host name segments := by
  have hrouted : ∀ d, isRoutedTo n d = isRoutedTo name d := by
    intro d
    unfold isRoutedTo
    cases route d <;> simp [Text.sameIgnoringCase, h]
  simp only [served, hrouted]

theorem served_append (x : Segment × Nat) : served host name (segments ++ [x]) =
    if served host name segments = [] then
      (((directive? x).toList.filter fun x => isRoutedTo name x.2).dropWhile fun x => !opens host x.2)
    else served host name segments ++ (directive? x).toList.filter fun x => isRoutedTo name x.2 := by
  have hone : [x].filterMap directive? = (directive? x).toList := by
    cases hx : directive? x <;> simp [hx]
  unfold served
  rw [List.filterMap_append, List.filter_append, List.dropWhile_append, hone]
  simp only [List.isEmpty_iff]

theorem served_skip {x : Segment × Nat} (h : ∀ y ∈ directive? x, ¬ isRoutedTo name y.2) :
    served host name (segments ++ [x]) = served host name segments := by
  have hnone : ((directive? x).toList.filter fun x => isRoutedTo name x.2) = [] := by
    simpa [List.filter_eq_nil_iff] using h
  rw [served_append, hnone]
  by_cases hs : served host name segments = []
  · rw [if_pos hs, hs]
    rfl
  · rw [if_neg hs, List.append_nil]

theorem served_more (index : Nat) (hr : isRoutedTo name d) (hs : served host name segments ≠ []) :
    served host name (segments ++ [(.directive d, index)]) = served host name segments ++ [(index, d)] := by
  rw [served_append, if_neg hs]
  simp [directive?, hr]

theorem served_first (index : Nat) (hr : isRoutedTo name d) (hs : served host name segments = []) (ho : opens host d) :
    served host name (segments ++ [(.directive d, index)]) = [(index, d)] := by
  rw [served_append, if_pos hs]
  simp [directive?, hr, ho]

theorem served_refused (hs : served host name segments = []) (ho : ¬ opens host d) :
    served host name (segments ++ [(.directive d, index)]) = [] := by
  rw [served_append, if_pos hs]
  by_cases hr : isRoutedTo name d <;> simp [directive?, hr, ho]

end

/-! ## Single steps -/

def names (r : Routing) : List String :=
  r.active.map (·.name)

/-- What can come of a segment, with what happens at it. -/
inductive Steps (host : Host) (root : Option String) (r : Routing) :
    Segment × Nat → Routing → List Event → Prop
  | text {s index} : Steps host root r (.text s, index) r []
  | builtIn {d index} : route d = .builtIn → Steps host root r (.directive d, index) r []
  | unrouted {d index} : route d = .nowhere → Steps host root r (.directive d, index)
      (r.report "TT2001" ("directive '" ++ d.name ++ "' has no processor") (d.start.orIn root))
      [.unrouted index d]
  | unresolved {d index name message} : route d = .processor name →
      (∀ n ∈ r.names, Text.lower n ≠ Text.lower name) → resolve host name = .error message →
      Steps host root r (.directive d, index) (r.report "TT2001" message (d.start.orIn root))
        [.unresolved index d message]
  | unstarted {d index name p e} : route d = .processor name →
      (∀ n ∈ r.names, Text.lower n ≠ Text.lower name) → resolve host name = .ok p →
      p.startRun.1 = .error e →
      Steps host root r (.directive d, index) (r.report "TT2002" e.message (d.start.orIn root))
        [.unstarted index d e]
  | opened {d index name} {p : Processor} : route d = .processor name →
      (∀ n ∈ r.names, Text.lower n ≠ Text.lower name) → resolve host name = .ok p →
      p.startRun.1 = .ok () →
      Steps host root r (.directive d, index)
        (Routing.record { r with active := r.active ++
            [⟨name, (p.startRun.2.processDirective host.parameter d).2⟩] }
          index (d.start.orIn root) (p.startRun.2.processDirective host.parameter d).1)
        [.call name .start,
          .call name (.directive index d (p.startRun.2.processDirective host.parameter d).1)]
  | handed {d index name front back} {a : ActiveProcessor} : route d = .processor name →
      r.active = front ++ a :: back → Text.lower a.name = Text.lower name →
      Steps host root r (.directive d, index)
        (Routing.record { r with active := front ++
            ⟨a.name, (a.processor.processDirective host.parameter d).2⟩ :: back }
          index (d.start.orIn root) (a.processor.processDirective host.parameter d).1)
        [.call a.name (.directive index d (a.processor.processDirective host.parameter d).1)]

theorem hand_eq_none {values : ParameterLookup} {name : String} {d : Directive} :
    ∀ {active : List ActiveProcessor}, hand values name d active = none →
      ∀ a ∈ active, Text.lower a.name ≠ Text.lower name
  | [], _, a, ha => by cases ha
  | b :: active, h, a, ha => by
    unfold hand at h
    by_cases hb : Text.sameIgnoringCase b.name name
    · rw [if_pos hb] at h
      cases h
    · rw [if_neg hb, Option.map_eq_none_iff] at h
      rcases List.mem_cons.1 ha with rfl | ha
      · intro he
        exact hb (Text.sameIgnoringCase_iff.2 he)
      · exact hand_eq_none h a ha

theorem hand_eq_some {values : ParameterLookup} {name : String} {d : Directive}
    {answer : Except ProcessorError String} : ∀ {active active' : List ActiveProcessor},
    hand values name d active = some (answer, active') →
      ∃ front a back, active = front ++ a :: back ∧ Text.lower a.name = Text.lower name ∧
        answer = (a.processor.processDirective values d).1 ∧
        active' = front ++ ⟨a.name, (a.processor.processDirective values d).2⟩ :: back
  | [], _, h => by cases h
  | b :: active, active', h => by
    unfold hand at h
    by_cases hb : Text.sameIgnoringCase b.name name
    · rw [if_pos hb] at h
      obtain ⟨rfl, rfl⟩ := Prod.mk.inj (Option.some.inj h)
      exact ⟨[], b, active, rfl, Text.sameIgnoringCase_iff.1 hb, rfl, rfl⟩
    · rw [if_neg hb, Option.map_eq_some_iff] at h
      obtain ⟨x, hx, he⟩ := h
      obtain ⟨rfl, rfl⟩ := Prod.mk.inj he
      obtain ⟨front, a, back, rfl, ha, hanswer, hactive⟩ := hand_eq_some hx
      exact ⟨b :: front, a, back, rfl, ha, hanswer, congrArg (b :: ·) hactive⟩

theorem step_steps (host : Host) (root : Option String) (r : Routing) (x : Segment × Nat) :
    ∃ events, Steps host root r x (r.step host root x) events := by
  obtain ⟨s | d, index⟩ := x
  · exact ⟨_, .text⟩
  · cases hroute : route d with
    | builtIn =>
      have hstep : r.step host root (.directive d, index) = r := by simp only [step, hroute]
      rw [hstep]
      exact ⟨_, .builtIn hroute⟩
    | nowhere =>
      have hstep : r.step host root (.directive d, index) = r.report "TT2001"
          ("directive '" ++ d.name ++ "' has no processor") (d.start.orIn root) := by
        simp only [step, hroute]
      rw [hstep]
      exact ⟨_, .unrouted hroute⟩
    | processor name =>
      have hstep : r.step host root (.directive d, index) =
          r.process host name index d (d.start.orIn root) := by simp only [step, hroute]
      rw [hstep]
      cases hhand : hand host.parameter name d r.active with
      | some handed =>
        obtain ⟨front, a, back, hactive, ha, hanswer, hactive'⟩ := hand_eq_some hhand
        simp only [process, hhand, hanswer, hactive']
        exact ⟨_, .handed hroute hactive ha⟩
      | none =>
        have hfree : ∀ n ∈ r.names, Text.lower n ≠ Text.lower name := by
          intro n hn
          obtain ⟨a, ha, rfl⟩ := List.mem_map.1 hn
          exact hand_eq_none hhand a ha
        cases hresolve : resolve host name with
        | error message =>
          simp only [process, hhand, hresolve]
          exact ⟨_, .unresolved hroute hfree hresolve⟩
        | ok p =>
          simp only [process, hhand, hresolve]
          split
          · rename_i e q hstart
            exact ⟨_, .unstarted hroute hfree hresolve (congrArg Prod.fst hstart)⟩
          · rename_i q hstart
            have hstarted : p.startRun.1 = .ok () := congrArg Prod.fst hstart
            have hopened : Steps host root r (.directive d, index) _ _ :=
              .opened hroute hfree hresolve hstarted
            rw [hstart] at hopened
            exact ⟨_, hopened⟩

/-! ## What a whole run keeps -/

theorem callsTo_append (name : String) (events events' : List Event) :
    callsTo name (events ++ events') = callsTo name events ++ callsTo name events' :=
  List.filterMap_append

theorem codeOf_append (events events' : List Event) : codeOf (events ++ events') =
    { preInitialization := (codeOf events).preInitialization ++ (codeOf events').preInitialization
      postInitialization := (codeOf events).postInitialization ++ (codeOf events').postInitialization
      occurrences := (codeOf events).occurrences ++ (codeOf events').occurrences
      imports := (codeOf events).imports ++ (codeOf events').imports
      references := (codeOf events).references ++ (codeOf events').references } := by
  simp [codeOf]

/-- The calls to a processor that was resolved for a name, up to the end of its directives. -/
structure Served (host : Host) (segments : List (Segment × Nat)) (calls : List Call) (name : String)
    (q : Processor) : Prop where
  taken : ∃ p, resolve host name = .ok p ∧ p.TakesAll host.parameter calls q
  calls : ∃ answered : List Answered,
    calls = .start :: answered.map Call.ofAnswered ∧
      answered.map Prod.fst = served host name segments
  nonempty : served host name segments ≠ []

/-- What holds after some segments. -/
structure Kept (host : Host) (root : Option String) (segments : List (Segment × Nat)) (r : Routing)
    (events : List Event) : Prop where
  code : r.code = codeOf events
  diagnostics : r.diagnostics = events.flatMap (Event.report root)
  distinct : (r.names.map Text.lower).Nodup
  serving : ∀ a ∈ r.active, Served host segments (callsTo a.name events) a.name a.processor
  idle : ∀ name, (∀ n ∈ r.names, Text.lower n ≠ Text.lower name) → served host name segments = []
  known : ∀ name c, .call name c ∈ events → name ∈ r.names
  started : events.filterMap Event.started? = r.names
  directives : events.filterMap Event.directive? =
    (segments.filterMap directive?).filter fun x => route x.2 ≠ .builtIn
  holds : ∀ e ∈ events, e.Holds host

section
variable {host : Host} {root : Option String} {segments : List (Segment × Nat)} {r : Routing}
  {events : List Event} {d : Directive} {index : Nat} {name : String}

theorem kept_nil (host : Host) (root : Option String) : Kept host root [] {} [] := by
  constructor <;> simp [codeOf, served, names]

theorem code_record (r : Routing) (index : Nat) (l : Location) (name : String) (d : Directive)
    (answer : Except ProcessorError String) (hr : r.code = codeOf events) :
    (r.record index l answer).code = codeOf (events ++ [.call name (.directive index d answer)]) := by
  rw [codeOf_append, ← hr]
  cases answer <;> simp [record, Routing.report, codeOf, Event.code]

theorem diagnostics_record (r : Routing) (index : Nat) (name : String) (d : Directive)
    (answer : Except ProcessorError String) (hr : r.diagnostics = events.flatMap (Event.report root)) :
    (r.record index (d.start.orIn root) answer).diagnostics =
      (events ++ [Event.call name (.directive index d answer)]).flatMap (Event.report root) := by
  rw [List.flatMap_append, ← hr]
  cases answer <;> simp [record, Routing.report, Event.report]

theorem active_record (r : Routing) (index : Nat) (l : Location) (answer : Except ProcessorError String) :
    (r.record index l answer).active = r.active := by
  cases answer <;> rfl

theorem names_record (r : Routing) (index : Nat) (l : Location) (answer : Except ProcessorError String) :
    (r.record index l answer).names = r.names := by
  rw [names, names, active_record]

theorem Served.of_same {calls : List Call} {q : Processor} {x : Segment × Nat}
    (h : Served host segments calls name q)
    (hx : served host name (segments ++ [x]) = served host name segments) :
    Served host (segments ++ [x]) calls name q := by
  refine ⟨h.taken, ?_, ?_⟩
  · rw [hx]
    exact h.calls
  · rw [hx]
    exact h.nonempty

theorem Served.more {calls : List Call} {q : Processor} (index : Nat) (h : Served host segments calls name q)
    (hr : isRoutedTo name d) :
    Served host (segments ++ [(.directive d, index)])
      (calls ++ [.directive index d (q.processDirective host.parameter d).1]) name
      (q.processDirective host.parameter d).2 := by
  have hmore := served_more index hr h.nonempty
  obtain ⟨p, hp, htaken⟩ := h.taken
  obtain ⟨answered, hcalls, hserved⟩ := h.calls
  refine ⟨⟨p, hp, htaken.snoc (.directive index d)⟩,
    ⟨answered ++ [((index, d), (q.processDirective host.parameter d).1)], ?_, ?_⟩, ?_⟩
  · simp [hcalls, Call.ofAnswered]
  · rw [hmore, ← hserved]
    simp
  · rw [hmore]
    simp

theorem Served.first {p : Processor} (hp : resolve host name = .ok p) (hstart : p.startRun.1 = .ok ())
    (hr : isRoutedTo name d) (hs : served host name segments = []) (ho : opens host d) :
    Served host (segments ++ [(.directive d, index)])
      [.start, .directive index d (p.startRun.2.processDirective host.parameter d).1] name
      (p.startRun.2.processDirective host.parameter d).2 := by
  have hfirst := served_first index hr hs ho
  refine ⟨⟨p, hp, ?_⟩, ⟨[((index, d), (p.startRun.2.processDirective host.parameter d).1)], rfl, ?_⟩, ?_⟩
  · exact ((Processor.TakesAll.nil (p := p)).snoc (.start hstart)).snoc (.directive index d)
  · rw [hfirst]
    rfl
  · rw [hfirst]
    simp

theorem not_routed_of_ne {n : String} (hroute : route d = .processor n) (h : Text.lower n ≠ Text.lower name) :
    ∀ y ∈ directive? (.directive d, index), ¬ isRoutedTo name y.2 := by
  intro y hy
  obtain rfl := Option.some.inj hy
  rw [isRoutedTo_iff hroute]
  exact h

theorem served_of_unrouted {x : Segment × Nat} (h : ∀ y ∈ directive? x, ∀ n, route y.2 ≠ .processor n)
    (name : String) : served host name (segments ++ [x]) = served host name segments := by
  apply served_skip
  intro y hy
  unfold isRoutedTo
  split
  · rename_i n hn
    exact absurd hn (h y hy n)
  · simp

theorem Kept.directives_append {event : List Event} {x : Segment × Nat} (h : Kept host root segments r events)
    (hdirective : event.filterMap Event.directive? =
      (directive? x).toList.filter fun y => route y.2 ≠ .builtIn) :
    (events ++ event).filterMap Event.directive? =
      ((segments ++ [x]).filterMap directive?).filter fun y => route y.2 ≠ .builtIn := by
  have hone : [x].filterMap directive? = (directive? x).toList := by
    cases hx : directive? x <;> simp [hx]
  rw [List.filterMap_append, h.directives, hdirective, List.filterMap_append, List.filter_append, hone]

/-- A segment without a processor of its own changes no calls. -/
theorem Kept.pass {x : Segment × Nat} {r' : Routing} {event : List Event} (h : Kept host root segments r events)
    (hactive : r'.active = r.active) (hcode : r'.code = codeOf (events ++ event))
    (hdiagnostics : r'.diagnostics = (events ++ event).flatMap (Event.report root))
    (hcall : ∀ e ∈ event, ∀ name c, e ≠ .call name c) (hholds : ∀ e ∈ event, e.Holds host)
    (hdirective : event.filterMap Event.directive? =
      (directive? x).toList.filter fun y => route y.2 ≠ .builtIn)
    (hserved : ∀ name, served host name (segments ++ [x]) = served host name segments) :
    Kept host root (segments ++ [x]) r' (events ++ event) := by
  have hcalls : ∀ name, callsTo name (events ++ event) = callsTo name events := by
    intro name
    rw [callsTo_append]
    have hnone : callsTo name event = [] := by
      refine List.filterMap_eq_nil_iff.2 fun e he => ?_
      cases e with
      | call n c => exact absurd rfl (hcall _ he n c)
      | _ => rfl
    rw [hnone, List.append_nil]
  have hstarted : event.filterMap Event.started? = [] := by
    refine List.filterMap_eq_nil_iff.2 fun e he => ?_
    cases e with
    | call n c => exact absurd rfl (hcall _ he n c)
    | _ => rfl
  have hnames : r'.names = r.names := by rw [names, names, hactive]
  refine ⟨hcode, hdiagnostics, ?_, ?_, ?_, ?_, ?_, ?_, ?_⟩
  · rw [hnames]
    exact h.distinct
  · intro a ha
    rw [hactive] at ha
    rw [hcalls]
    exact (h.serving a ha).of_same (hserved a.name)
  · intro name hfree
    rw [hnames] at hfree
    rw [hserved, h.idle name hfree]
  · intro name c hmem
    rw [hnames]
    rcases List.mem_append.1 hmem with hmem | hmem
    · exact h.known name c hmem
    · exact absurd rfl (hcall _ hmem name c)
  · rw [List.filterMap_append, hstarted, List.append_nil, hnames]
    exact h.started
  · exact h.directives_append hdirective
  · exact List.forall_mem_append.2 ⟨h.holds, hholds⟩

/-- A directive that no processor takes is told, and that is all. -/
theorem Kept.refuse {e : Event} {code message : String} (h : Kept host root segments r events)
    (hroute : route d = .processor name) (hfree : ∀ n ∈ r.names, Text.lower n ≠ Text.lower name)
    (hopens : ¬ opens host d) (hcode : e.code = {}) (hcall : ∀ n c, e ≠ .call n c) (hholds : e.Holds host)
    (hdirective : e.directive? = some (index, d))
    (hreport : e.report root = [.error code message (d.start.orIn root)]) :
    Kept host root (segments ++ [(.directive d, index)]) (r.report code message (d.start.orIn root))
      (events ++ [e]) := by
  apply h.pass
  · rfl
  · rw [codeOf_append, ← h.code]
    simp [Routing.report, codeOf, hcode]
  · rw [List.flatMap_append, ← h.diagnostics]
    simp [Routing.report, hreport]
  · simpa using hcall
  · simpa using hholds
  · simp [hdirective, directive?, hroute]
  · intro n
    by_cases hn : Text.lower name = Text.lower n
    · have hs := h.idle n fun m hm => hn ▸ hfree m hm
      rw [hs, served_refused hs hopens]
    · exact served_skip (not_routed_of_ne hroute hn)

theorem Kept.opened {p : Processor} (h : Kept host root segments r events) (hroute : route d = .processor name)
    (hfree : ∀ n ∈ r.names, Text.lower n ≠ Text.lower name) (hresolve : resolve host name = .ok p)
    (hstart : p.startRun.1 = .ok ()) :
    Kept host root (segments ++ [(.directive d, index)])
      (Routing.record { r with active := r.active ++
          [⟨name, (p.startRun.2.processDirective host.parameter d).2⟩] }
        index (d.start.orIn root) (p.startRun.2.processDirective host.parameter d).1)
      (events ++ [.call name .start,
        .call name (.directive index d (p.startRun.2.processDirective host.parameter d).1)]) := by
  generalize hanswer : p.startRun.2.processDirective host.parameter d = answered
  have hrouted : isRoutedTo name d := (isRoutedTo_iff hroute).2 rfl
  have hopens : opens host d := by simp [opens, hroute, hresolve, hstart, Except.isOk, Except.toBool]
  have hnew : name ∉ r.names := fun hmem => hfree name hmem rfl
  have hnames : Routing.names { r with active := r.active ++ [⟨name, answered.2⟩] } = r.names ++ [name] := by
    simp [names]
  have hcalls : ∀ n, n ≠ name → callsTo n (events ++ [.call name .start,
      .call name (.directive index d answered.1)]) = callsTo n events := by
    intro n hn
    simp [callsTo, Event.callTo?, hn.symm]
  have hnone : callsTo name events = [] := by
    refine List.filterMap_eq_nil_iff.2 fun e he => ?_
    cases e with
    | call n c =>
      have hne : n ≠ name := fun e => hnew (e ▸ h.known n c he)
      simp [Event.callTo?, hne]
    | _ => rfl
  have hsplit : ∀ c : Call, events ++ [Event.call name .start, .call name c] =
      (events ++ [.call name .start]) ++ [.call name c] := by simp
  refine ⟨?_, ?_, ?_, ?_, ?_, ?_, ?_, ?_, ?_⟩
  · rw [hsplit]
    apply code_record
    rw [codeOf_append, h.code]
    simp [codeOf, Event.code]
  · rw [hsplit]
    apply diagnostics_record
    rw [List.flatMap_append, ← h.diagnostics]
    simp [Event.report]
  · rw [names_record, hnames, List.map_append, List.map_singleton]
    refine List.nodup_append.2 ⟨h.distinct, by simp, ?_⟩
    intro x hx y hy
    obtain ⟨n, hn, rfl⟩ := List.mem_map.1 hx
    obtain rfl := List.mem_singleton.1 hy
    exact hfree n hn
  · rw [active_record]
    intro a ha
    rcases List.mem_append.1 ha with ha | ha
    · have hmem : a.name ∈ r.names := List.mem_map.2 ⟨a, ha, rfl⟩
      have hne : a.name ≠ name := fun e => hnew (e ▸ hmem)
      rw [hcalls a.name hne]
      exact (h.serving a ha).of_same (served_skip (not_routed_of_ne hroute (hfree a.name hmem).symm))
    · obtain rfl := List.mem_singleton.1 ha
      rw [callsTo_append, hnone, ← hanswer]
      simpa [callsTo, Event.callTo?] using
        Served.first hresolve hstart hrouted (h.idle name hfree) hopens
  · rw [names_record, hnames]
    intro n hn
    have hne : Text.lower name ≠ Text.lower n := hn _ (List.mem_append_right _ (List.mem_singleton_self _))
    rw [served_skip (not_routed_of_ne hroute hne)]
    exact h.idle n fun m hm => hn m (List.mem_append_left _ hm)
  · rw [names_record, hnames]
    intro n c hmem
    rcases List.mem_append.1 hmem with hmem | hmem
    · exact List.mem_append_left _ (h.known n c hmem)
    · have hn : n = name := by
        simp only [List.mem_cons, Event.call.injEq, List.not_mem_nil, or_false] at hmem
        rcases hmem with ⟨hn, -⟩ | ⟨hn, -⟩ <;> exact hn
      exact List.mem_append_right _ (List.mem_singleton.2 hn)
  · rw [names_record, hnames]
    simp [h.started, Event.started?]
  · apply h.directives_append
    simp [directive?, Event.directive?, List.filterMap_cons, hroute]
  · refine List.forall_mem_append.2 ⟨h.holds, ?_⟩
    simp [Event.Holds]

theorem Kept.handed {front back : List ActiveProcessor} {a : ActiveProcessor}
    (h : Kept host root segments r events) (hroute : route d = .processor name)
    (hactive : r.active = front ++ a :: back) (ha : Text.lower a.name = Text.lower name) :
    Kept host root (segments ++ [(.directive d, index)])
      (Routing.record { r with active := front ++
          ⟨a.name, (a.processor.processDirective host.parameter d).2⟩ :: back }
        index (d.start.orIn root) (a.processor.processDirective host.parameter d).1)
      (events ++ [.call a.name (.directive index d (a.processor.processDirective host.parameter d).1)]) := by
  have hrouted : isRoutedTo a.name d := (isRoutedTo_iff hroute).2 ha.symm
  have hserving := (h.serving a (by simp [hactive])).more index hrouted
  generalize a.processor.processDirective host.parameter d = answered at hserving ⊢
  have hnames : Routing.names { r with active := front ++ ⟨a.name, answered.2⟩ :: back } = r.names := by
    simp [names, hactive]
  have hmem : a.name ∈ r.names := by simp [names, hactive]
  -- The names of the other processors differ, so what they have to do and were asked is as before.
  have hothers : ∀ b ∈ front ++ back, Text.lower b.name ≠ Text.lower a.name := by
    intro b hb e
    have hdistinct := h.distinct
    rw [names, hactive, List.map_append, List.map_cons, List.map_append, List.map_cons, List.nodup_middle,
      List.nodup_cons, ← List.map_append, ← List.map_append] at hdistinct
    exact hdistinct.1 (List.mem_map.2 ⟨b.name, List.mem_map.2 ⟨b, hb, rfl⟩, e⟩)
  have hkept : ∀ b ∈ front ++ back, Served host (segments ++ [(.directive d, index)])
      (callsTo b.name (events ++ [.call a.name (.directive index d answered.1)])) b.name b.processor := by
    intro b hb
    have hne : a.name ≠ b.name := fun e => hothers b hb (by rw [e])
    have hroutes : Text.lower name ≠ Text.lower b.name := ha ▸ (hothers b hb).symm
    have hcalls : callsTo b.name (events ++ [.call a.name (.directive index d answered.1)]) =
        callsTo b.name events := by simp [callsTo, Event.callTo?, hne]
    have hb' : b ∈ r.active := by
      rw [hactive]
      rcases List.mem_append.1 hb with hb | hb
      · exact List.mem_append_left _ hb
      · exact List.mem_append_right _ (List.mem_cons_of_mem a hb)
    rw [hcalls]
    exact (h.serving b hb').of_same (served_skip (not_routed_of_ne hroute hroutes))
  refine ⟨?_, ?_, ?_, ?_, ?_, ?_, ?_, ?_, ?_⟩
  · apply code_record
    exact h.code
  · apply diagnostics_record
    exact h.diagnostics
  · rw [names_record, hnames]
    exact h.distinct
  · rw [active_record]
    intro b hb
    rcases List.mem_append.1 hb with hb | hb
    · exact hkept b (List.mem_append_left _ hb)
    · rcases List.mem_cons.1 hb with rfl | hb
      · rw [callsTo_append]
        simpa [callsTo, Event.callTo?] using hserving
      · exact hkept b (List.mem_append_right _ hb)
  · rw [names_record, hnames]
    intro n hn
    have hne : Text.lower name ≠ Text.lower n := ha ▸ hn a.name hmem
    rw [served_skip (not_routed_of_ne hroute hne)]
    exact h.idle n hn
  · rw [names_record, hnames]
    intro n c hcall
    rcases List.mem_append.1 hcall with hcall | hcall
    · exact h.known n c hcall
    · obtain ⟨rfl, -⟩ := Event.call.inj (List.mem_singleton.1 hcall)
      exact hmem
  · rw [names_record, hnames, List.filterMap_append, h.started]
    simp [Event.started?]
  · apply h.directives_append
    simp [directive?, Event.directive?, hroute]
  · refine List.forall_mem_append.2 ⟨h.holds, ?_⟩
    simp [Event.Holds]

theorem Kept.step {x : Segment × Nat} {r' : Routing} {event : List Event}
    (h : Kept host root segments r events) (hx : Steps host root r x r' event) :
    Kept host root (segments ++ [x]) r' (events ++ event) := by
  cases hx with
  | text =>
    apply h.pass
    · rfl
    · simp [h.code]
    · simp [h.diagnostics]
    · simp
    · simp
    · rfl
    · exact served_of_unrouted (by simp [directive?])
  | @builtIn d index hroute =>
    apply h.pass
    · rfl
    · simp [h.code]
    · simp [h.diagnostics]
    · simp
    · simp
    · simp [directive?, hroute]
    · exact served_of_unrouted (by simp [directive?, hroute])
  | @unrouted d index hroute =>
    apply h.pass
    · rfl
    · rw [codeOf_append, ← h.code]
      simp [Routing.report, codeOf, Event.code]
    · rw [List.flatMap_append, ← h.diagnostics]
      simp [Routing.report, Event.report]
    · simp
    · simpa [Event.Holds] using hroute
    · simp [directive?, Event.directive?, hroute]
    · exact served_of_unrouted (by simp [directive?, hroute])
  | unresolved hroute hfree hresolve =>
    apply h.refuse hroute hfree
    · simp [opens, hroute, hresolve]
    · simp [Event.code]
    · simp
    · exact ⟨_, hroute, hresolve⟩
    · rfl
    · rfl
  | unstarted hroute hfree hresolve hstart =>
    apply h.refuse hroute hfree
    · simp [opens, hroute, hresolve, hstart, Except.isOk, Except.toBool]
    · simp [Event.code]
    · simp
    · exact ⟨_, _, hroute, hresolve, hstart⟩
    · rfl
    · rfl
  | opened hroute hfree hresolve hstart => exact h.opened hroute hfree hresolve hstart
  | handed hroute hactive ha => exact h.handed hroute hactive ha

theorem Kept.steps : ∀ (xs : List (Segment × Nat)) {segments : List (Segment × Nat)} {r : Routing}
    {events : List Event}, Kept host root segments r events →
    ∃ events', Kept host root (segments ++ xs) (xs.foldl (Routing.step host root) r) (events ++ events')
  | [], segments, r, events, h => ⟨[], by simpa using h⟩
  | x :: xs, segments, r, events, h => by
    obtain ⟨event, hx⟩ := step_steps host root r x
    obtain ⟨events', hxs⟩ := Kept.steps xs (h.step hx)
    refine ⟨event ++ events', ?_⟩
    simpa using hxs

end

/-! ## The end of a run -/

/-- The calls that end the run of a processor. -/
def lastCalls (p : Processor) : List Call :=
  [.finish, .preInitialization p.finishRun.preCode, .postInitialization p.finishRun.postCode,
    .references p.finishRun.currentReferences, .imports p.finishRun.currentImports]

def closing (a : ActiveProcessor) : List Event :=
  (lastCalls a.processor).map (.call a.name)

theorem takesAll_lastCalls {values : ParameterLookup} {p q : Processor} {calls : List Call}
    (h : p.TakesAll values calls q) : p.TakesAll values (calls ++ lastCalls q) q.finishRun := by
  have hall := ((((h.snoc .finish).snoc .preInitialization).snoc .postInitialization).snoc
    .references).snoc .imports
  simpa [lastCalls] using hall

section
variable {root : Option String} {r : Routing} {events : List Event}

theorem finish_closing (a : ActiveProcessor) (hcode : r.code = codeOf events)
    (hdiagnostics : r.diagnostics = events.flatMap (Event.report root)) :
    (r.finish root a).code = codeOf (events ++ closing a) ∧
      (r.finish root a).diagnostics = (events ++ closing a).flatMap (Event.report root) := by
  rw [codeOf_append, ← hcode, List.flatMap_append, ← hdiagnostics]
  unfold finish part closing lastCalls
  dsimp only
  generalize a.processor.finishRun.preCode = pre
  generalize a.processor.finishRun.postCode = post
  cases pre <;> cases post <;> simp [codeOf, Event.code, Event.report, Routing.report]

theorem finish_closings (active : List ActiveProcessor) : ∀ {r : Routing} {events : List Event},
    r.code = codeOf events → r.diagnostics = events.flatMap (Event.report root) →
    (active.foldl (finish root) r).code = codeOf (events ++ active.flatMap closing) ∧
      (active.foldl (finish root) r).diagnostics =
        (events ++ active.flatMap closing).flatMap (Event.report root) := by
  induction active with
  | nil =>
    intro r events hcode hdiagnostics
    simpa using ⟨hcode, hdiagnostics⟩
  | cons a active ih =>
    intro r events hcode hdiagnostics
    obtain ⟨hcode', hdiagnostics'⟩ := finish_closing a hcode hdiagnostics
    simpa using ih hcode' hdiagnostics'

theorem callsTo_closing_of_ne {a : ActiveProcessor} {name : String} (h : a.name ≠ name) :
    callsTo name (closing a) = [] := by
  simp [callsTo, closing, lastCalls, Event.callTo?, h]

theorem callsTo_closings {active : List ActiveProcessor} (hdistinct : (active.map (·.name)).Nodup)
    {a : ActiveProcessor} (ha : a ∈ active) :
    callsTo a.name (active.flatMap closing) = lastCalls a.processor := by
  obtain ⟨front, back, rfl⟩ := List.append_of_mem ha
  rw [List.map_append, List.map_cons, List.nodup_middle, List.nodup_cons, ← List.map_append] at hdistinct
  have hother : ∀ bs : List ActiveProcessor, (∀ b ∈ bs, b ∈ front ++ back) →
      callsTo a.name (bs.flatMap closing) = [] := by
    intro bs hbs
    induction bs with
    | nil => rfl
    | cons b bs ih =>
      have hb : b.name ≠ a.name := fun e =>
        hdistinct.1 (List.mem_map.2 ⟨b, hbs b List.mem_cons_self, e⟩)
      rw [List.flatMap_cons, callsTo_append, callsTo_closing_of_ne hb,
        ih fun c hc => hbs c (List.mem_cons_of_mem b hc)]
      rfl
  rw [List.flatMap_append, List.flatMap_cons, callsTo_append, callsTo_append,
    hother front fun b hb => List.mem_append_left _ hb,
    hother back fun b hb => List.mem_append_right _ hb]
  simp [callsTo, closing, lastCalls, Event.callTo?]

end

end Routing

/-! ## Processors of required and provided values -/

def ProcessorError.OutOfTurn : ProcessorError → Prop
  | .alreadyProcessing _ => True
  | .notProcessing _ => True
  | _ => False

namespace RequiresProvides

variable {g : CodeGenerator} {values : ParameterLookup}

theorem resolve_error {d : Directive} {e : ProcessorError} (h : resolve g values d = .error e) :
    ¬ e.OutOfTurn := by
  obtain ⟨a, -, rfl⟩ := resolve_eq_error_iff.1 h
  exact id

/-- A directive in a run is answered, and the run goes on. -/
theorem process_running (g : CodeGenerator) (values : ParameterLookup) (d : Directive) {r : Run}
    (hr : r.running) :
    (∀ e, (process g values d r).1 = .error e → ¬ e.OutOfTurn) ∧ (process g values d r).2.running := by
  unfold process
  rw [if_pos hr]
  split
  · rename_i e he
    refine ⟨fun e' h => ?_, hr⟩
    obtain rfl := Except.error.inj h
    exact resolve_error he
  · exact ⟨nofun, hr⟩

/-- The processor in the middle of a run, or after it. -/
def At (g : CodeGenerator) (running : Bool) (p : Processor) : Prop :=
  ∃ r : Run, p = (processor g).onto r ∧ r.running = running

theorem At.directive {p : Processor} (h : At g true p) (values : ParameterLookup) (d : Directive) :
    (∀ e, (p.processDirective values d).1 = .error e → ¬ e.OutOfTurn) ∧
      At g true (p.processDirective values d).2 := by
  obtain ⟨r, rfl, hr⟩ := h
  obtain ⟨hanswer, hrunning⟩ := process_running g values d hr
  exact ⟨hanswer, _, rfl, hrunning⟩

end RequiresProvides

def Call.InTurn (c : Call) : Prop :=
  ∀ e, c.error? = some e → ¬ e.OutOfTurn

theorem Processor.eq_of_takesAll_nil {values : ParameterLookup} {p q : Processor}
    (h : p.TakesAll values [] q) : q = p := by
  generalize hall : [] = all at h
  cases h with
  | nil => rfl
  | snoc => simp at hall

theorem Processor.takesAll_snoc {values : ParameterLookup} {p r : Processor} {cs : List Call} {c : Call}
    (h : p.TakesAll values (cs ++ [c]) r) : ∃ q, p.TakesAll values cs q ∧ q.Takes values c r := by
  generalize hall : cs ++ [c] = all at h
  cases h with
  | nil => simp at hall
  | snoc htaken hlast =>
    obtain ⟨rfl, hone⟩ := List.append_inj' hall rfl
    obtain rfl := List.singleton_inj.1 hone
    exact ⟨_, htaken, hlast⟩

namespace RequiresProvides

variable {g : CodeGenerator} {values : ParameterLookup}

theorem takesAll_inTurn (answered : List Answered) :
    ∀ {q : Processor}, (processor g).TakesAll values
      (.start :: answered.map Call.ofAnswered) q →
    At g true q ∧ ∀ c ∈ Call.start :: answered.map Call.ofAnswered, c.InTurn := by
  induction answered using List.reverseRecOn with
  | nil =>
    intro q h
    have hfirst : (processor g).TakesAll values ([] ++ [.start]) q := h
    obtain ⟨p, hnone, hstart⟩ := Processor.takesAll_snoc hfirst
    obtain rfl := Processor.eq_of_takesAll_nil hnone
    cases hstart with
    | start => exact ⟨⟨_, rfl, rfl⟩, by simp [Call.InTurn, Call.error?]⟩
  | append_singleton answered x ih =>
    intro q h
    rw [List.map_append, ← List.cons_append] at h ⊢
    obtain ⟨p, hbefore, hlast⟩ := Processor.takesAll_snoc h
    obtain ⟨hat, hturn⟩ := ih hbefore
    obtain ⟨⟨index, d⟩, answer⟩ := x
    simp only [Call.ofAnswered] at hlast
    cases hlast with
    | directive =>
      obtain ⟨hanswer, hafter⟩ := hat.directive values d
      refine ⟨hafter, fun c hc => ?_⟩
      rcases List.mem_append.1 hc with hc | hc
      · exact hturn c hc
      · obtain rfl := List.mem_singleton.1 hc
        exact fun e he => hanswer e (Call.answer_of_error? he)

theorem At.lastCalls_inTurn {q : Processor} (h : At g true q) : ∀ c ∈ Routing.lastCalls q, c.InTurn := by
  obtain ⟨r, rfl, -⟩ := h
  intro c hc e he
  have hpre : ((processor g).onto r).finishRun.preCode = .ok r.pre := rfl
  have hpost : ((processor g).onto r).finishRun.postCode = .ok r.post := rfl
  rw [Routing.lastCalls, hpre, hpost] at hc
  simp only [List.mem_cons, List.not_mem_nil, or_false] at hc
  rcases hc with rfl | rfl | rfl | rfl | rfl <;> cases he

end RequiresProvides

namespace Routing

/-! ## All calls of a run -/

/-- What happens when the directives of a template are routed. -/
structure Driven (host : Host) (t : Template) (events : List Event) : Prop where
  /-- Every directive that is not built in is handed to a processor or told, once. -/
  directives : events.filterMap Event.directive? =
    (t.segments.zipIdx.filterMap directive?).filter fun x => route x.2 ≠ .builtIn
  holds : ∀ e ∈ events, e.Holds host
  /-- No two processors go by the same name. -/
  distinct : ((events.filterMap Event.started?).map Text.lower).Nodup
  known : ∀ name c, .call name c ∈ events → name ∈ events.filterMap Event.started?
  complete : ∀ name, served host name t.segments.zipIdx ≠ [] ↔
    ∃ n ∈ events.filterMap Event.started?, Text.lower n = Text.lower name
  calls : ∀ name ∈ events.filterMap Event.started?, ∃ p q,
    ∃ answered : List Answered, resolve host name = .ok p ∧
    p.TakesAll host.parameter (callsTo name events) q.finishRun ∧
    callsTo name events = .start :: answered.map Call.ofAnswered ++ lastCalls q ∧
    answered.map Prod.fst = served host name t.segments.zipIdx
  /-- The processors end in the order in which they were started. -/
  order : ∃ scanned, ∃ ended : List ActiveProcessor, events = scanned ++ ended.flatMap closing ∧
    ended.map (·.name) = scanned.filterMap Event.started?
  builtIn : ∀ name, Text.lower name = Text.lower RequiresProvides.processorName →
    resolve host name = .ok (RequiresProvides.processor RequiresProvides.sessionGenerator)
  inTurn : ∀ name g, resolve host name = .ok (RequiresProvides.processor g) →
    (∀ c ∈ callsTo name events, c.InTurn) ∧
      ∀ index d e, .unstarted index d e ∈ events → route d ≠ .processor name

theorem mem_callsTo {name : String} {c : Call} {events : List Event} :
    c ∈ callsTo name events ↔ .call name c ∈ events := by
  constructor
  · intro h
    obtain ⟨e, he, hc⟩ := List.mem_filterMap.1 h
    cases e with
    | call n c' =>
      by_cases hn : n = name
      · simp only [Event.callTo?, hn, if_true, Option.some.injEq] at hc
        rwa [hn, hc] at he
      · simp [Event.callTo?, hn] at hc
    | _ => cases hc
  · intro h
    exact List.mem_filterMap.2 ⟨_, h, by simp [Event.callTo?]⟩

theorem started?_closing (a : ActiveProcessor) : (closing a).filterMap Event.started? = [] := by
  simp [closing, lastCalls, Event.started?]

theorem directive?_closing (a : ActiveProcessor) : (closing a).filterMap Event.directive? = [] := rfl

theorem eq_call_of_mem_closings {active : List ActiveProcessor} {e : Event} (he : e ∈ active.flatMap closing) :
    ∃ a ∈ active, ∃ c, e = .call a.name c := by
  obtain ⟨a, ha, he⟩ := List.mem_flatMap.1 he
  obtain ⟨c, -, rfl⟩ := List.mem_map.1 he
  exact ⟨a, ha, c, rfl⟩

theorem filterMap_closings {α : Type} {f : Event → Option α} (h : ∀ a, (closing a).filterMap f = [])
    (active : List ActiveProcessor) : (active.flatMap closing).filterMap f = [] := by
  induction active with
  | nil => rfl
  | cons a active ih => rw [List.flatMap_cons, List.filterMap_append, h, ih, List.append_nil]

section
variable {host : Host} {root : Option String} {segments : List (Segment × Nat)} {r : Routing}
  {events : List Event}

theorem Served.inTurn {calls : List Call} {name : String} {q : Processor} {g : CodeGenerator}
    (h : Served host segments calls name q) (hp : resolve host name = .ok (RequiresProvides.processor g)) :
    ∀ c ∈ calls ++ lastCalls q, c.InTurn := by
  obtain ⟨p, hp', htaken⟩ := h.taken
  obtain rfl := Except.ok.inj (hp.symm.trans hp')
  obtain ⟨answered, rfl, -⟩ := h.calls
  obtain ⟨hat, hturn⟩ := RequiresProvides.takesAll_inTurn answered htaken
  intro c hc
  rcases List.mem_append.1 hc with hc | hc
  · exact hturn c hc
  · exact hat.lastCalls_inTurn c hc

/-- A run that is ended in the order in which its processors were started. -/
theorem Kept.driven {t : Template} (h : Kept host root t.segments.zipIdx r events) :
    Driven host t (events ++ r.active.flatMap closing) := by
  have hstarted : (events ++ r.active.flatMap closing).filterMap Event.started? = r.names := by
    rw [List.filterMap_append, filterMap_closings started?_closing, List.append_nil, h.started]
  have hnames : r.names.Nodup := List.Nodup.of_map _ h.distinct
  have hcalls : ∀ a ∈ r.active, callsTo a.name (events ++ r.active.flatMap closing) =
      callsTo a.name events ++ lastCalls a.processor := by
    intro a ha
    rw [callsTo_append, callsTo_closings hnames ha]
  have hknown : ∀ name c, .call name c ∈ events ++ r.active.flatMap closing → name ∈ r.names := by
    intro name c hc
    rcases List.mem_append.1 hc with hc | hc
    · exact h.known name c hc
    · obtain ⟨a, ha, c', he⟩ := eq_call_of_mem_closings hc
      obtain ⟨rfl, -⟩ := Event.call.inj he
      exact List.mem_map.2 ⟨a, ha, rfl⟩
  constructor
  · rw [List.filterMap_append, filterMap_closings directive?_closing, List.append_nil]
    exact h.directives
  · refine List.forall_mem_append.2 ⟨h.holds, fun e he => ?_⟩
    obtain ⟨a, -, c, rfl⟩ := eq_call_of_mem_closings he
    trivial
  · rw [hstarted]
    exact h.distinct
  · rw [hstarted]
    exact hknown
  · intro name
    rw [hstarted]
    constructor
    · intro hserved
      by_contra hnone
      push Not at hnone
      exact hserved (h.idle name hnone)
    · rintro ⟨n, hn, hname⟩
      obtain ⟨a, ha, rfl⟩ := List.mem_map.1 hn
      rw [← served_congr hname]
      exact (h.serving a ha).nonempty
  · intro name hname
    rw [hstarted] at hname
    obtain ⟨a, ha, rfl⟩ := List.mem_map.1 hname
    have hserved := h.serving a ha
    obtain ⟨p, hp, htaken⟩ := hserved.taken
    obtain ⟨answered, hall, hanswered⟩ := hserved.calls
    rw [hcalls a ha]
    refine ⟨p, a.processor, answered, hp, takesAll_lastCalls htaken, ?_, hanswered⟩
    rw [hall]
  · refine ⟨events, r.active, rfl, ?_⟩
    rw [h.started]
    rfl
  · intro name hname
    unfold resolve
    rw [if_pos (Text.sameIgnoringCase_iff.2 hname)]
    rfl
  · intro name g hp
    constructor
    · intro c hc
      obtain ⟨a, ha, rfl⟩ := List.mem_map.1 (hknown name c (mem_callsTo.1 hc))
      rw [hcalls a ha] at hc
      exact (h.serving a ha).inTurn hp c hc
    · intro index d e hmem hroute
      rcases List.mem_append.1 hmem with hmem | hmem
      · obtain ⟨n, p, hroute', hp', hstart⟩ := h.holds _ hmem
        obtain rfl := Route.processor.inj (hroute.symm.trans hroute')
        obtain rfl := Except.ok.inj (hp.symm.trans hp')
        cases hstart
      · obtain ⟨a, -, c, he⟩ := eq_call_of_mem_closings hmem
        cases he

end

/-- **Driving processors.** What routing gives is read off all that happens, in order: the answers to the
calls of the processors, and the directives that come to none. Each processor that is started takes one
run, with the directives routed to its name from the first on that it could be started for. -/
theorem ofTemplate_driven (host : Host) (t : Template) :
    ∃ events, Driven host t events ∧
      ofTemplate host t = (codeOf events, events.flatMap (Event.report t.root)) := by
  obtain ⟨events, hkept⟩ := (kept_nil host t.root).steps t.segments.zipIdx
  rw [List.nil_append, List.nil_append] at hkept
  refine ⟨_, hkept.driven, ?_⟩
  obtain ⟨hcode, hdiagnostics⟩ :=
    finish_closings (t.segments.zipIdx.foldl (Routing.step host t.root) {}).active hkept.code hkept.diagnostics
  exact Prod.ext hcode hdiagnostics

/-! ## Spellings of a name -/

end Routing

/-- Answers every directive with the same code. -/
def Processor.steady : Processor where
  State := Unit
  state := ()
  friendlyName := "steady"
  start _ := (.ok (), ())
  process _ _ _ := (.ok "x", ())
  finish _ := ()
  preInitialization _ := .ok ""
  postInitialization _ := .ok ""

/-- Knows a processor under one spelling of its name. -/
def Host.exacting : Host where
  templateFile := none
  resolveProcessor name :=
    if name = "foo" then .ok Processor.steady else .error ("no processor " ++ name)

namespace Routing

def spelled (name processor : String) : Directive :=
  ⟨name, [("processor", processor)], .start none, .start none, .start none⟩

def twoSpellings : Template :=
  { root := none, segments := [.directive (spelled "a" "Foo"), .directive (spelled "b" "foo")] }

/-- A directive is not handed to the processor of its name if it spells the name in a way that no processor
was found for. -/
theorem ofTemplate_twoSpellings : isRoutedTo "foo" (spelled "a" "Foo") ∧ isRoutedTo "foo" (spelled "b" "foo") ∧
    (resolve .exacting "foo").map (fun p => p.startRun.1.isOk) = .ok true ∧
    ofTemplate .exacting twoSpellings =
      ({ occurrences := [(1, "x")] }, [.error "TT2001" "no processor Foo" (.start none)]) := by
  refine ⟨by decide +kernel, by decide +kernel, by cbv, ?_⟩
  cbv

end Routing

end Templating
