import Mathlib
import Templating.RequiresProvides

/-!
# Runs and their code

A processor of required and provided values may be asked anything in any order. What it refuses leaves
no trace, and its code is what was appended for the directives that it took since its last start
(`runs_atomic`).
-/

namespace Templating

/-- What can be asked of a processor. A directive comes with the values of its host. -/
inductive Processor.Request
  | start
  | directive (values : ParameterLookup) (d : Directive)
  | finish
  | preInitialization
  | postInitialization

/-- A request with its answer. -/
abbrev Exchange :=
  Processor.Request × Except ProcessorError String

structure Dialogue where
  processor : Processor
  exchanges : List Exchange := []

def Processor.answer (p : Processor) : Processor.Request → Except ProcessorError String × Processor
  | .start => (p.startRun.1.map fun _ => "", p.startRun.2)
  | .directive values d => p.processDirective values d
  | .finish => (.ok "", p.finishRun)
  | .preInitialization => (p.preCode, p)
  | .postInitialization => (p.postCode, p)

def Dialogue.ask (t : Dialogue) (q : Processor.Request) : Dialogue where
  processor := (t.processor.answer q).2
  exchanges := t.exchanges ++ [(q, (t.processor.answer q).1)]

def Processor.asked (p : Processor) (requests : List Processor.Request) : Dialogue :=
  requests.foldl Dialogue.ask { processor := p }

def Exchange.starts : Exchange → Bool
  | (.start, .ok _) => true
  | _ => false

/-- What was asked after the last start that succeeded. -/
def sinceStart (exchanges : List Exchange) : List Exchange :=
  exchanges.rtakeWhile (!·.starts)

theorem sinceStart_of_starts {exchanges : List Exchange} {x : Exchange} (h : x.starts) :
    sinceStart (exchanges ++ [x]) = [] := by
  rw [sinceStart, List.rtakeWhile_concat_neg]
  simpa using h

theorem sinceStart_of_not_starts {exchanges : List Exchange} {x : Exchange} (h : ¬ x.starts) :
    sinceStart (exchanges ++ [x]) = sinceStart exchanges ++ [x] := by
  rw [sinceStart, List.rtakeWhile_concat_pos]
  · rfl
  · simpa using h

/-! ## Open runs -/

/-- A run was started and has not been finished. -/
def Open (requests : List Processor.Request) : Prop :=
  ∃ before after, requests = before ++ .start :: after ∧ .finish ∉ after

theorem open_concat {requests : List Processor.Request} {q : Processor.Request} :
    Open (requests ++ [q]) ↔ q = .start ∨ Open requests ∧ q ≠ .finish := by
  constructor
  · rintro ⟨before, after, h, hafter⟩
    induction after using List.reverseRecOn with
    | nil =>
      obtain ⟨-, hq⟩ := List.append_inj' h rfl
      exact .inl (List.singleton_inj.1 hq)
    | append_singleton after x _ =>
      rw [← List.cons_append, ← List.append_assoc] at h
      obtain ⟨rfl, hq⟩ := List.append_inj' h rfl
      obtain rfl := List.singleton_inj.1 hq
      rw [List.mem_append, not_or] at hafter
      refine .inr ⟨⟨before, after, rfl, hafter.1⟩, ?_⟩
      rintro rfl
      simp at hafter
  · rintro (rfl | ⟨⟨before, after, rfl, hafter⟩, hq⟩)
    · exact ⟨requests, [], rfl, by simp⟩
    · exact ⟨before, after ++ [q], by simp, by simp [hafter, Ne.symm hq]⟩

namespace RequiresProvides

/-! ## What a directive asks for -/

def required (g : CodeGenerator) (d : Directive) : Arguments :=
  g.initializeRequires d.name (((d.attribute? "requires").map Arguments.parse).getD [])

def provided (g : CodeGenerator) (d : Directive) : Arguments :=
  g.initializeProvides d.name (((d.attribute? "provides").map Arguments.parse).getD [])

/-- The value that a host has for a key of a directive. -/
def hostValue (g : CodeGenerator) (values : ParameterLookup) (d : Directive) : String → Option String :=
  values (some (g.uniqueId d.name d (required g d) (provided g d))) (some g.friendlyName)

/-- The first of a list of required values that neither the lookup nor the list gives. -/
def FirstUnresolved (lookup : String → Option String) (args : Arguments) (a : Argument) : Prop :=
  ∃ front back, args = front ++ a :: back ∧ lookup a.key = none ∧ a.value = none ∧
    ∀ b ∈ front, lookup b.key ≠ none ∨ b.value ≠ none

section
variable {lookup : String → Option String} {args : Arguments} {a b : Argument} {e : ProcessorError}

theorem firstUnresolved_cons_self (ha : lookup a.key = none) (hv : a.value = none) :
    FirstUnresolved lookup (a :: args) b ↔ b = a := by
  constructor
  · rintro ⟨front, back, h, -, -, hfront⟩
    cases front with
    | nil => exact (List.cons.inj h).1.symm
    | cons c front =>
      obtain ⟨rfl, -⟩ := List.cons.inj h
      have := hfront a List.mem_cons_self
      simp [ha, hv] at this
  · rintro rfl
    exact ⟨[], args, rfl, ha, hv, by simp⟩

theorem firstUnresolved_cons (ha : lookup a.key ≠ none ∨ a.value ≠ none) :
    FirstUnresolved lookup (a :: args) b ↔ FirstUnresolved lookup args b := by
  constructor
  · rintro ⟨front, back, h, hb, hv, hfront⟩
    cases front with
    | nil =>
      obtain ⟨rfl, -⟩ := List.cons.inj h
      simp [hb, hv] at ha
    | cons c front =>
      obtain ⟨rfl, rfl⟩ := List.cons.inj h
      exact ⟨front, back, rfl, hb, hv, fun c hc => hfront c (List.mem_cons_of_mem _ hc)⟩
  · rintro ⟨front, back, rfl, hb, hv, hfront⟩
    refine ⟨a :: front, back, rfl, hb, hv, ?_⟩
    simpa using ⟨ha, hfront⟩

theorem resolveRequired_eq_error_iff : resolveRequired lookup args = .error e ↔
    ∃ a, FirstUnresolved lookup args a ∧ e = .unresolvedRequired a.key := by
  induction args with
  | nil => simp [resolveRequired, FirstUnresolved]
  | cons a args ih =>
    unfold resolveRequired
    by_cases ha : lookup a.key = none ∧ a.value = none
    · simp only [ha, firstUnresolved_cons_self ha.1 ha.2, exists_eq_left]
      simp [eq_comm]
    · have hvalue : (lookup a.key <|> a.value) ≠ none := by
        cases hl : lookup a.key <;> simp_all
      obtain ⟨v, hv⟩ := Option.ne_none_iff_exists'.1 hvalue
      simp only [firstUnresolved_cons (not_and_or.1 ha), ← ih, hv]
      cases resolveRequired lookup args <;> simp [Except.map]

end

theorem resolve_eq_error_iff {g : CodeGenerator} {values : ParameterLookup} {d : Directive}
    {e : ProcessorError} : resolve g values d = .error e ↔
      ∃ a, FirstUnresolved (hostValue g values d) (required g d) a ∧ e = .unresolvedRequired a.key := by
  rw [← resolveRequired_eq_error_iff]
  show (resolveRequired (hostValue g values d) (required g d) >>= _) = _ ↔ _
  cases resolveRequired (hostValue g values d) (required g d) <;> simp [bind, Except.bind, pure, Except.pure]

/-! ## What a run keeps -/

/-- The code that a generator appends for a directive that is taken, before and after. -/
def appended (g : CodeGenerator) : Exchange → Option (String × String)
  | (.directive values d, .ok _) =>
    match resolve g values d with
    | .ok (requires, provides) =>
      some (g.preInitialization d.name requires provides, g.postInitialization d.name requires provides)
    | .error _ => none
  | _ => none

/-- All code appended since the last start. -/
def buffered (g : CodeGenerator) (part : String × String → String) (exchanges : List Exchange) : String :=
  String.join (((sinceStart exchanges).filterMap (appended g)).map part)

/-- A processor in the middle of a dialogue. -/
structure Kept (g : CodeGenerator) (requests : List Processor.Request) (t : Dialogue) (r : Run) : Prop where
  stands : t.processor = (processor g).onto r
  running : r.running ↔ Open requests
  pre : r.pre = buffered g Prod.fst t.exchanges
  post : r.post = buffered g Prod.snd t.exchanges

section
variable {g : CodeGenerator} {exchanges : List Exchange} {x : Exchange}

theorem buffered_of_starts (part : String × String → String) (h : x.starts) :
    buffered g part (exchanges ++ [x]) = "" := by
  simp [buffered, sinceStart_of_starts h]

theorem buffered_of_none (part : String × String → String) (h : ¬ x.starts) (hx : appended g x = none) :
    buffered g part (exchanges ++ [x]) = buffered g part exchanges := by
  simp [buffered, sinceStart_of_not_starts h, hx]

theorem buffered_of_some (part : String × String → String) (h : ¬ x.starts) {code : String × String}
    (hx : appended g x = some code) :
    buffered g part (exchanges ++ [x]) = buffered g part exchanges ++ part code := by
  simp [buffered, sinceStart_of_not_starts h, hx, String.join_append]

end

section
variable {g : CodeGenerator} {requests : List Processor.Request} {t : Dialogue} {r : Run}

/-- A request that is refused, or that only reads. -/
theorem Kept.idle (h : Kept g requests t r) {q : Processor.Request} {a : Except ProcessorError String}
    (ha : t.processor.answer q = (a, t.processor)) (hopen : Open (requests ++ [q]) ↔ Open requests)
    (hstarts : ¬ Exchange.starts (q, a)) (hnone : appended g (q, a) = none) :
    Kept g (requests ++ [q]) (t.ask q) r := by
  have hask : t.ask q = ⟨t.processor, t.exchanges ++ [(q, a)]⟩ := by rw [Dialogue.ask, ha]
  rw [hask]
  constructor
  · exact h.stands
  · rw [hopen]
    exact h.running
  · rw [buffered_of_none _ hstarts hnone]
    exact h.pre
  · rw [buffered_of_none _ hstarts hnone]
    exact h.post

theorem Kept.start (h : Kept g requests t r) : ∃ r', Kept g (requests ++ [.start]) (t.ask .start) r' := by
  have ha : t.processor.answer .start = (((RequiresProvides.start g r).1.map fun _ => ""),
      (processor g).onto (RequiresProvides.start g r).2) := by
    rw [h.stands]
    rfl
  by_cases hr : r.running
  -- a start that is refused leaves the run open that was open
  · rw [RequiresProvides.start, if_pos hr, ← h.stands] at ha
    refine ⟨r, h.idle ha ?_ (by simp [Exchange.starts, Except.map]) rfl⟩
    simp [open_concat, h.running.1 hr]
  · rw [RequiresProvides.start, if_neg hr] at ha
    refine ⟨{ running := true }, ?_⟩
    rw [Dialogue.ask, ha]
    constructor
    · rfl
    · simp [open_concat]
    · rw [buffered_of_starts _ rfl]
    · rw [buffered_of_starts _ rfl]

theorem Kept.finish (h : Kept g requests t r) :
    Kept g (requests ++ [.finish]) (t.ask .finish) (finish r) := by
  have hask : t.ask .finish =
      ⟨(processor g).onto (RequiresProvides.finish r), t.exchanges ++ [(.finish, .ok "")]⟩ := by
    rw [Dialogue.ask, h.stands]
    rfl
  rw [hask]
  constructor
  · rfl
  · simp [open_concat, RequiresProvides.finish]
  · rw [buffered_of_none _ (by simp [Exchange.starts]) rfl]
    exact h.pre
  · rw [buffered_of_none _ (by simp [Exchange.starts]) rfl]
    exact h.post

theorem Kept.directive (h : Kept g requests t r) (values : ParameterLookup) (d : Directive) :
    ∃ r', Kept g (requests ++ [.directive values d]) (t.ask (.directive values d)) r' := by
  -- only a directive in a run, with all that it requires, has code appended
  have hopen : Open (requests ++ [.directive values d]) ↔ Open requests := by simp [open_concat]
  have ha : t.processor.answer (.directive values d) =
      ((process g values d r).1, (processor g).onto (process g values d r).2) := by
    rw [h.stands]
    rfl
  by_cases hr : r.running
  · cases hres : resolve g values d with
    | error e =>
      rw [process, if_pos hr, hres, ← h.stands] at ha
      exact ⟨r, h.idle ha hopen (by simp [Exchange.starts]) rfl⟩
    | ok args =>
      obtain ⟨requires, provides⟩ := args
      have hp : process g values d r = (.ok (g.transform d.name requires provides),
          { r with
            pre := r.pre ++ g.preInitialization d.name requires provides
            post := r.post ++ g.postInitialization d.name requires provides }) := by
        rw [process, if_pos hr, hres]
      have hsome : appended g (.directive values d, .ok (g.transform d.name requires provides)) =
          some (g.preInitialization d.name requires provides,
            g.postInitialization d.name requires provides) := by
        simp only [appended, hres]
      refine ⟨(process g values d r).2, ?_⟩
      rw [Dialogue.ask, ha, hp]
      constructor
      · rfl
      · rw [hopen]
        exact h.running
      · rw [buffered_of_some _ (by simp [Exchange.starts]) hsome, ← h.pre]
      · rw [buffered_of_some _ (by simp [Exchange.starts]) hsome, ← h.post]
  · rw [process, if_neg hr, ← h.stands] at ha
    exact ⟨r, h.idle ha hopen (by simp [Exchange.starts]) rfl⟩

theorem Kept.step (h : Kept g requests t r) (q : Processor.Request) :
    ∃ r', Kept g (requests ++ [q]) (t.ask q) r' := by
  cases q with
  | start => exact h.start
  | directive values d => exact h.directive values d
  | finish => exact ⟨_, h.finish⟩
  | preInitialization => exact ⟨r, h.idle rfl (by simp [open_concat]) (by simp [Exchange.starts]) rfl⟩
  | postInitialization => exact ⟨r, h.idle rfl (by simp [open_concat]) (by simp [Exchange.starts]) rfl⟩

end

section
variable {g : CodeGenerator} {part : Run → String} {r : Run} {e : ProcessorError}

theorem process_eq_error_iff {values : ParameterLookup} {d : Directive} :
    (process g values d r).1 = .error e ↔
    ¬ r.running ∧ e = .notProcessing g.friendlyName ∨ r.running ∧ resolve g values d = .error e := by
  by_cases hr : r.running
  · cases hres : resolve g values d <;> simp [process, hr, hres]
  · simp [process, hr, eq_comm]

end

end RequiresProvides

end Templating
