import Mathlib
import Templating.Scheduler

/-!
# Debouncing

Requests, passes of the timer and receptions in any order. A pass queues exactly the keys whose latest
request was not withdrawn and has come to rest (`mem_added_pass`, `mem_deadlines_iff`), so each request is
queued once or still has its deadline, and what is queued is received in order (`debounced`).
-/

namespace Templating

/-- Where an element stands in a list that is one element longer. -/
theorem split_append_singleton {α : Type} {past before since : List α} {e e' : α} :
    past ++ [e] = before ++ e' :: since ↔ (before = past ∧ e' = e ∧ since = []) ∨
      ∃ since', since = since' ++ [e] ∧ past = before ++ e' :: since' := by
  rcases List.eq_nil_or_concat' since with rfl | ⟨since', last, rfl⟩
  · constructor
    · intro h
      obtain ⟨hpast, he⟩ := List.append_inj' h rfl
      exact .inl ⟨hpast.symm, (List.singleton_inj.1 he).symm, rfl⟩
    · rintro (⟨rfl, rfl, -⟩ | ⟨since', h, -⟩)
      · rfl
      · simp at h
  · constructor
    · intro h
      rw [← List.cons_append, ← List.append_assoc] at h
      obtain ⟨hpast, he⟩ := List.append_inj' h rfl
      obtain rfl := List.singleton_inj.1 he
      exact .inr ⟨since', rfl, hpast⟩
    · rintro (⟨-, -, h⟩ | ⟨since'', h, rfl⟩)
      · simp at h
      · rw [h]
        simp

namespace Scheduler

/-! ## Events -/

/-- What can happen to a scheduler. A request without a delay withdraws the pending one and sends its key,
and something else may happen between the two. -/
inductive Event (κ : Type)
  | schedule (now : Nat) (key : κ) (delay : Nat)
  | cancel (key : κ)
  | send (key : κ)
  | pass (now : Nat)
  | receive

section
variable {κ : Type} {s : Scheduler κ} {e : Event κ} {key : κ} {time now : Nat}

namespace Event

/-- A request for a key, or its withdrawal. -/
def Asks (key : κ) : Event κ → Prop
  | schedule _ k _ => k = key
  | cancel k => k = key
  | _ => False

/-- Gives a key this deadline. -/
def Sets (key : κ) (time : Nat) : Event κ → Prop
  | schedule now k delay => k = key ∧ 0 < delay ∧ now + delay = time
  | _ => False

/-- Takes this deadline from a key. -/
def Ends (key : κ) (time : Nat) : Event κ → Prop
  | schedule _ k _ => k = key
  | cancel k => k = key
  | pass now => time ≤ now
  | _ => False

/-- Passes and receptions concern all keys. -/
def keeps (keep : κ → Bool) : Event κ → Bool
  | schedule _ k _ => keep k
  | cancel k => keep k
  | send k => keep k
  | _ => true

theorem Sets.asks (h : e.Sets key time) : e.Asks key := by
  cases e with
  | schedule now k delay => exact h.1
  | _ => exact h.elim

theorem ends_iff : e.Ends key time ↔ e.Asks key ∨ ∃ now, e = .pass now ∧ time ≤ now := by
  cases e <;> simp [Ends, Asks]

end Event

/-- What an event puts on the queue. -/
def added (s : Scheduler κ) : Event κ → List κ
  | .schedule _ key delay => if delay = 0 then [key] else []
  | .send key => [key]
  | .pass now => (s.due now).map (·.1)
  | .cancel _ | .receive => []

/-- What an event takes from the queue. -/
def taken (s : Scheduler κ) : Event κ → List κ
  | .receive => s.receive.1.toList
  | _ => []

theorem deadlines_receive (s : Scheduler κ) : s.receive.2.deadlines = s.deadlines := by
  unfold receive
  split <;> rfl

theorem queue_receive (s : Scheduler κ) : s.queue = s.receive.1.toList ++ s.receive.2.queue := by
  unfold receive
  split <;> simp_all

theorem not_mem_added_of_not_keeps {keep : κ → Bool} (hkey : keep key) (he : ¬ e.keeps keep) :
    key ∉ s.added e := by
  have hother : ∀ k, ¬ keep k → key ∉ [k] := by
    intro k hk hmem
    exact hk (List.mem_singleton.1 hmem ▸ hkey)
  cases e with
  | schedule now k delay =>
    show key ∉ if delay = 0 then [k] else []
    split
    · exact hother k he
    · exact List.not_mem_nil
  | cancel k => exact List.not_mem_nil
  | send k => exact hother k he
  | _ => exact absurd rfl he

/-- A wait is a reception, or a pass and then a reception. -/
theorem await_eq (s : Scheduler κ) (now : Nat) (limit : Option Nat) :
    s.await now limit = (s.receive.1, now, s.receive.2) ∨
      ∃ t, now ≤ t ∧ s.await now limit = ((s.pass t).receive.1, t, (s.pass t).receive.2) := by
  unfold await
  split
  · rename_i key rest hqueue
    refine .inl ?_
    rw [receive, hqueue]
  · exact .inr ⟨_, Nat.le_max_left _ _, rfl⟩

/-! ### Passes -/

theorem mem_due {d : κ × Nat} : d ∈ s.due now ↔ d ∈ s.deadlines ∧ d.2 ≤ now := by
  simp [due, List.mem_mergeSort]

theorem pairwise_due (s : Scheduler κ) (now : Nat) : (s.due now).Pairwise fun a b => a.2 ≤ b.2 := by
  have hsorted := @List.pairwise_mergeSort _ (fun a b : κ × Nat => decide (a.2 ≤ b.2))
    (fun a b c => by simpa using Nat.le_trans) (fun a b => by simpa using Nat.le_total a.2 b.2)
    (s.deadlines.filter fun d => d.2 ≤ now)
  exact hsorted.imp (by simp)

theorem perm_added_pass (s : Scheduler κ) (now : Nat) :
    (s.added (.pass now)).Perm ((s.deadlines.filter fun d => d.2 ≤ now).map Prod.fst) :=
  (List.mergeSort_perm _ _).map Prod.fst

theorem mem_added_pass : key ∈ s.added (.pass now) ↔ ∃ time ≤ now, (key, time) ∈ s.deadlines := by
  rw [(s.perm_added_pass now).mem_iff]
  simp [and_comm]

theorem nodup_added_pass (hkeys : (s.deadlines.map Prod.fst).Nodup) (now : Nat) :
    (s.added (.pass now)).Nodup :=
  (s.perm_added_pass now).nodup_iff.2 (hkeys.sublist (List.filter_sublist.map _))

end

/-! ## Runs -/

variable {κ : Type} [DecidableEq κ]

def act (s : Scheduler κ) : Event κ → Scheduler κ
  | .schedule now key delay => s.schedule now key delay
  | .cancel key => (s.cancel key).2
  | .send key => { s with queue := s.queue ++ [key] }
  | .pass now => s.pass now
  | .receive => s.receive.2

/-- A scheduler with all that was put on its queue and taken from it. -/
structure Log (κ : Type) where
  scheduler : Scheduler κ := {}
  queued : List κ := []
  received : List κ := []

def Log.act (l : Log κ) (e : Event κ) : Log κ :=
  { scheduler := l.scheduler.act e
    queued := l.queued ++ l.scheduler.added e
    received := l.received ++ l.scheduler.taken e }

def run (past : List (Event κ)) : Log κ :=
  past.foldl Log.act {}

theorem run_append_singleton (past : List (Event κ)) (e : Event κ) : run (past ++ [e]) = (run past).act e :=
  List.foldl_append ..

section
variable {s : Scheduler κ} {e : Event κ} {key : κ} {time : Nat} {past : List (Event κ)}

/-! ### Deadlines -/

theorem mem_without {d : κ × Nat} : d ∈ s.without key ↔ d ∈ s.deadlines ∧ d.1 ≠ key := by
  simp [without]

theorem mem_deadlines_act : (key, time) ∈ (s.act e).deadlines ↔
    e.Sets key time ∨ ((key, time) ∈ s.deadlines ∧ ¬ e.Ends key time) := by
  cases e with
  | schedule now k delay =>
    unfold act schedule
    dsimp only
    split
    · rename_i hzero
      simp [mem_without, Event.Sets, Event.Ends, hzero, eq_comm]
    · rename_i hpos
      simp [mem_without, Event.Sets, Event.Ends, Nat.pos_of_ne_zero hpos, eq_comm, or_comm]
  | cancel k => simp [act, cancel, mem_without, Event.Sets, Event.Ends, eq_comm]
  | send k => simp [act, Event.Sets, Event.Ends]
  | pass now => simp [act, pass, Event.Sets, Event.Ends]
  | receive => simp [act, deadlines_receive, Event.Sets, Event.Ends]

/-- A deadline stands exactly if it was set and not taken since. -/
theorem mem_deadlines_iff : (key, time) ∈ (run past).scheduler.deadlines ↔
    ∃ before e since, past = before ++ e :: since ∧ e.Sets key time ∧ ∀ e' ∈ since, ¬ e'.Ends key time := by
  induction past using List.reverseRecOn with
  | nil => simp [run]
  | append_singleton past e ih =>
    rw [run_append_singleton, Log.act, mem_deadlines_act, ih]
    constructor
    · rintro (hsets | ⟨⟨before, e', since, rfl, hsets, hsince⟩, hends⟩)
      · exact ⟨past, e, [], rfl, hsets, nofun⟩
      · refine ⟨before, e', since ++ [e], by simp, hsets, ?_⟩
        simpa [or_imp, forall_and] using ⟨hsince, hends⟩
    · rintro ⟨before, e', since, hpast, hsets, hsince⟩
      rcases split_append_singleton.1 hpast with ⟨-, rfl, -⟩ | ⟨since', rfl, rfl⟩
      · exact .inl hsets
      · exact .inr ⟨⟨before, e', since', rfl, hsets, fun x hx => hsince x (List.mem_append_left _ hx)⟩,
          hsince e (by simp)⟩

/-- Every key has at most one deadline. -/
theorem nodup_keys_act (h : (s.deadlines.map Prod.fst).Nodup) :
    ((s.act e).deadlines.map Prod.fst).Nodup := by
  have hfilter : ∀ p : κ × Nat → Bool, ((s.deadlines.filter p).map Prod.fst).Nodup :=
    fun p => h.sublist (List.filter_sublist.map _)
  cases e with
  | schedule now k delay =>
    unfold act schedule
    dsimp only
    split
    · exact hfilter _
    · rw [List.map_append]
      refine List.nodup_append_comm.1 (List.nodup_cons.2 ⟨fun hmem => ?_, hfilter _⟩)
      obtain ⟨d, hd, hk⟩ := List.mem_map.1 hmem
      exact (mem_without.1 hd).2 hk
  | cancel k => exact hfilter _
  | send k => exact h
  | pass now => exact hfilter _
  | receive => rwa [act, deadlines_receive]

theorem nodup_keys (past : List (Event κ)) : ((run past).scheduler.deadlines.map Prod.fst).Nodup := by
  induction past using List.reverseRecOn with
  | nil => exact .nil
  | append_singleton past e ih =>
    rw [run_append_singleton]
    exact nodup_keys_act ih

theorem mem_of_deadline? (h : s.deadline? key = some time) : (key, time) ∈ s.deadlines := by
  obtain ⟨before, after, he, -⟩ := List.lookup_eq_some_iff.1 h
  rw [he]
  simp

theorem deadline?_iff (hkeys : (s.deadlines.map Prod.fst).Nodup) :
    s.deadline? key = some time ↔ (key, time) ∈ s.deadlines := by
  refine ⟨mem_of_deadline?, fun hmem => ?_⟩
  cases hfound : s.deadline? key with
  | none =>
    have hmissing := List.lookup_eq_none_iff.1 hfound _ hmem
    simp at hmissing
  | some time' =>
    obtain ⟨-, rfl⟩ := Prod.mk.inj (List.inj_on_of_nodup_map hkeys (mem_of_deadline? hfound) hmem rfl)
    rfl

theorem deadline?_eq_none (h : ∀ time, (key, time) ∉ s.deadlines) : s.deadline? key = none :=
  Option.eq_none_iff_forall_ne_some.2 fun time he => h time (mem_of_deadline? he)

/-! ### The latest request -/

section
variable {before since : List (Event κ)} {now delay : Nat}

/-- A pass queues a key exactly if the latest request for it has come to rest and was not queued yet. -/
theorem mem_added_run_iff {t : Nat} : key ∈ (run past).scheduler.added (.pass t) ↔
    ∃ before now delay since, past = before ++ .schedule now key delay :: since ∧
      (∀ e ∈ since, ¬ e.Asks key) ∧ 0 < delay ∧ now + delay ≤ t ∧
      ∀ t', .pass t' ∈ since → t' < now + delay := by
  simp only [mem_added_pass, mem_deadlines_iff, Event.ends_iff, not_or]
  constructor
  · rintro ⟨time, hle, before, e, since, rfl, hsets, hsince⟩
    cases e with
    | schedule now k delay =>
      obtain ⟨rfl, hpos, rfl⟩ := hsets
      refine ⟨before, now, delay, since, rfl, fun e he => (hsince e he).1, hpos, hle, fun t' ht' => ?_⟩
      exact Nat.lt_of_not_le fun hle' => (hsince _ ht').2 ⟨t', rfl, hle'⟩
    | _ => exact hsets.elim
  · rintro ⟨before, now, delay, since, rfl, hasks, hpos, hle, hpasses⟩
    refine ⟨now + delay, hle, before, _, since, rfl, ⟨rfl, hpos, rfl⟩, fun e he => ⟨hasks e he, ?_⟩⟩
    rintro ⟨t', rfl, hle'⟩
    exact absurd (hpasses t' he) (Nat.not_lt.2 hle')

/-- Without a request a key gets no deadline. -/
theorem no_deadline_append (hnone : ∀ time, (key, time) ∉ (run past).scheduler.deadlines)
    (hsince : ∀ e ∈ since, ¬ e.Asks key) :
    ∀ time, (key, time) ∉ (run (past ++ since)).scheduler.deadlines := by
  induction since using List.reverseRecOn with
  | nil => rwa [List.append_nil]
  | append_singleton since e ih =>
    intro time
    rw [← List.append_assoc, run_append_singleton, Log.act, mem_deadlines_act]
    rintro (hsets | ⟨hmem, -⟩)
    · exact hsince e (by simp) hsets.asks
    · exact ih (fun x hx => hsince x (List.mem_append_left _ hx)) time hmem

theorem no_deadline_of_added {t : Nat} (h : key ∈ (run past).scheduler.added (.pass t)) :
    ∀ time, (key, time) ∉ (run (past ++ [.pass t])).scheduler.deadlines := by
  intro time
  obtain ⟨time', hle, hmem⟩ := mem_added_pass.1 h
  rw [run_append_singleton, Log.act, mem_deadlines_act]
  rintro (hsets | ⟨hmem', hends⟩)
  · exact hsets
  · obtain ⟨-, rfl⟩ := Prod.mk.inj (List.inj_on_of_nodup_map (nodup_keys _) hmem' hmem rfl)
    exact hends hle

theorem pending_or_queued (before : List (Event κ)) (now delay : Nat) (hsince : ∀ e ∈ since, ¬ e.Asks key) :
    (0 < delay ∧
      (key, now + delay) ∈ (run (before ++ .schedule now key delay :: since)).scheduler.deadlines) ∨
    (∀ time, (key, time) ∉ (run (before ++ .schedule now key delay :: since)).scheduler.deadlines) ∧
      (delay = 0 ∨ ∃ since₁ t since₂, since = since₁ ++ .pass t :: since₂ ∧
        key ∈ (run (before ++ .schedule now key delay :: since₁)).scheduler.added (.pass t)) := by
  -- On what happened since: nothing asks for the key there, so only a pass can end its deadline.
  induction since using List.reverseRecOn with
  | nil =>
    rw [run_append_singleton, Log.act]
    simp only [mem_deadlines_act]
    rcases Nat.eq_zero_or_pos delay with rfl | hpos
    · refine .inr ⟨fun time => ?_, .inl rfl⟩
      rintro (⟨-, hpos, -⟩ | ⟨-, hends⟩)
      · exact Nat.lt_irrefl 0 hpos
      · exact hends rfl
    · exact .inl ⟨hpos, .inl ⟨rfl, hpos, rfl⟩⟩
  | append_singleton since e ih =>
    have hasks : ¬ e.Asks key := hsince e (by simp)
    have hlonger : before ++ .schedule now key delay :: (since ++ [e]) =
        (before ++ .schedule now key delay :: since) ++ [e] := by simp
    rcases ih fun x hx => hsince x (List.mem_append_left _ hx) with ⟨hpos, hmem⟩ | ⟨hnone, hqueued⟩
    · by_cases hends : e.Ends key (now + delay)
      · obtain ⟨t, rfl, hle⟩ := (Event.ends_iff.1 hends).resolve_left hasks
        have hadded := mem_added_pass.2 ⟨now + delay, hle, hmem⟩
        rw [hlonger]
        exact .inr ⟨no_deadline_of_added hadded, .inr ⟨since, t, [], rfl, hadded⟩⟩
      · refine .inl ⟨hpos, ?_⟩
        rw [hlonger, run_append_singleton, Log.act, mem_deadlines_act]
        exact .inr ⟨hmem, hends⟩
    · rw [hlonger]
      refine .inr ⟨no_deadline_append hnone (by simpa using hasks), hqueued.imp_right ?_⟩
      rintro ⟨since₁, t, since₂, rfl, hadded⟩
      exact ⟨since₁, t, since₂ ++ [e], by simp, hadded⟩

end

/-! ### Keys by themselves -/

section
variable {keep : κ → Bool} {s' : Scheduler κ}

theorem deadlines_act_of_keeps (h : s'.deadlines = s.deadlines.filter (keep ·.1)) (he : e.keeps keep) :
    (s'.act e).deadlines = (s.act e).deadlines.filter (keep ·.1) := by
  have hfilter : ∀ p : κ × Nat → Bool, s'.deadlines.filter p = (s.deadlines.filter p).filter (keep ·.1) := by
    intro p
    rw [h, List.filter_filter, List.filter_filter]
    simp only [Bool.and_comm]
  cases e with
  | schedule now k delay =>
    have hk : keep k := he
    unfold act schedule
    dsimp only
    split
    · exact hfilter _
    · simp [without, hfilter, hk]
  | cancel k => exact hfilter _
  | send k => exact h
  | pass now => exact hfilter _
  | receive => rw [act, act, deadlines_receive, deadlines_receive, h]

theorem deadlines_act_of_not_keeps (he : ¬ e.keeps keep) :
    (s.act e).deadlines.filter (keep ·.1) = s.deadlines.filter (keep ·.1) := by
  have hwithout : ∀ k, ¬ keep k → (s.without k).filter (keep ·.1) = s.deadlines.filter (keep ·.1) := by
    intro k hk
    rw [without, List.filter_filter]
    refine List.filter_congr fun d _ => ?_
    by_cases hd : d.1 = k
    · simp [hd, hk]
    · simp [hd]
  cases e with
  | schedule now k delay =>
    have hk : ¬ keep k := he
    unfold act schedule
    dsimp only
    split
    · exact hwithout k hk
    · rw [List.filter_append, hwithout k hk]
      simp [hk]
  | cancel k => exact hwithout k he
  | send k => rfl
  | _ => exact absurd rfl he

theorem count_added_of_keeps (h : s'.deadlines = s.deadlines.filter (keep ·.1)) (hkey : keep key)
    (e : Event κ) : (s'.added e).count key = (s.added e).count key := by
  cases e with
  | pass now =>
    rw [(s'.perm_added_pass now).count_eq, (s.perm_added_pass now).count_eq, h]
    simp only [List.count_eq_countP, List.countP_map, List.countP_filter]
    refine List.countP_congr fun d _ => ?_
    simp only [Function.comp_apply, Bool.and_eq_true, beq_iff_eq]
    refine and_iff_left_of_imp ?_
    rintro ⟨rfl, -⟩
    exact hkey
  | _ => rfl

/-- What happens to a key does not depend on the requests for others. -/
theorem run_filter (keep : κ → Bool) (past : List (Event κ)) :
    (run (past.filter (·.keeps keep))).scheduler.deadlines =
        (run past).scheduler.deadlines.filter (keep ·.1) ∧
      ∀ key, keep key →
        (run (past.filter (·.keeps keep))).queued.count key = (run past).queued.count key := by
  -- The deadlines carry the induction: a pass queues a key by its own deadline alone.
  induction past using List.reverseRecOn with
  | nil => exact ⟨rfl, fun _ _ => rfl⟩
  | append_singleton past e ih =>
    obtain ⟨hdeadlines, hcount⟩ := ih
    rw [List.filter_append, run_append_singleton]
    by_cases he : e.keeps keep
    · rw [List.filter_cons_of_pos he, List.filter_nil, run_append_singleton]
      refine ⟨deadlines_act_of_keeps hdeadlines he, fun key hkey => ?_⟩
      simp only [Log.act, List.count_append, hcount key hkey, count_added_of_keeps hdeadlines hkey]
    · rw [List.filter_cons_of_neg he, List.filter_nil, List.append_nil]
      refine ⟨hdeadlines.trans (deadlines_act_of_not_keeps he).symm, fun key hkey => ?_⟩
      rw [hcount key hkey, Log.act, List.count_append,
        List.count_eq_zero_of_not_mem (not_mem_added_of_not_keeps hkey he), Nat.add_zero]

end

/-! ### The queue -/

theorem queue_act (s : Scheduler κ) (e : Event κ) : s.queue ++ s.added e = s.taken e ++ (s.act e).queue := by
  cases e with
  | schedule now k delay =>
    unfold act schedule added taken
    dsimp only
    split <;> simp
  | cancel k => simp [act, cancel, added, taken]
  | send k => rfl
  | pass now => rfl
  | receive =>
    rw [added, List.append_nil]
    exact queue_receive s

/-- What was put on the queue was received in order, or still waits on it. -/
theorem queued_run (past : List (Event κ)) :
    (run past).queued = (run past).received ++ (run past).scheduler.queue := by
  induction past using List.reverseRecOn with
  | nil => rfl
  | append_singleton past e ih =>
    rw [run_append_singleton, Log.act, ih, List.append_assoc, queue_act, List.append_assoc]

end

/-! ## What debouncing promises -/

/-- What holds of requests and their keys after any past. -/
structure Debounced (past : List (Event κ)) : Prop where
  /-- A pass queues a key for its latest request, if that was not withdrawn, had a delay that is over, and
  was not queued by an earlier pass. -/
  timer : ∀ key t, key ∈ (run past).scheduler.added (.pass t) ↔
    ∃ before now delay since, past = before ++ .schedule now key delay :: since ∧
      (∀ e ∈ since, ¬ e.Asks key) ∧ 0 < delay ∧ now + delay ≤ t ∧
      ∀ t', .pass t' ∈ since → t' < now + delay
  once : ∀ t, ((run past).scheduler.added (.pass t)).Nodup
  never_again : ∀ before key t since t', past = before ++ .pass t :: since →
    key ∈ (run before).scheduler.added (.pass t) → (∀ e ∈ since, ¬ e.Asks key) →
      key ∉ (run past).scheduler.added (.pass t')
  /-- The latest request for a key still has its deadline, or it was queued. -/
  latest : ∀ before now key delay since, past = before ++ .schedule now key delay :: since →
    (∀ e ∈ since, ¬ e.Asks key) →
      (0 < delay ∧ (run past).scheduler.deadline? key = some (now + delay)) ∨
      (run past).scheduler.deadline? key = none ∧
        (delay = 0 ∨ ∃ since₁ t since₂, since = since₁ ++ .pass t :: since₂ ∧
          key ∈ (run (before ++ .schedule now key delay :: since₁)).scheduler.added (.pass t))
  /-- Without a delay a key is queued at once, and has no deadline any more. -/
  immediate : ∀ now key, (run past).scheduler.added (.schedule now key 0) = [key] ∧
    ((run past).scheduler.act (.schedule now key 0)).deadline? key = none ∧
    (run past).scheduler.act (.schedule now key 0) =
      ((run past).scheduler.act (.cancel key)).act (.send key)
  /-- A key fares as it would without the requests for other keys. -/
  apart : ∀ keep key, keep key →
    (run (past.filter (·.keeps keep))).scheduler.deadline? key = (run past).scheduler.deadline? key ∧
      (run (past.filter (·.keeps keep))).queued.count key = (run past).queued.count key
  /-- A pass queues what is due in the order of the deadlines. -/
  ordered : ∀ t, ∃ ds : List (κ × Nat), (run past).scheduler.added (.pass t) = ds.map Prod.fst ∧
    ds.Pairwise (fun a b => a.2 ≤ b.2) ∧
    ∀ key time, (key, time) ∈ ds ↔ (run past).scheduler.deadline? key = some time ∧ time ≤ t
  received : (run past).queued = (run past).received ++ (run past).scheduler.queue
  waits : ∀ now limit, (run past).scheduler.await now limit =
      ((run past).scheduler.receive.1, now, (run past).scheduler.receive.2) ∨
    ∃ t, now ≤ t ∧ (run past).scheduler.await now limit =
      (((run past).scheduler.pass t).receive.1, t, ((run past).scheduler.pass t).receive.2)

/-- **Debouncing loses, repeats and hastens nothing.** Whatever happened before. -/
theorem debounced (past : List (Event κ)) : Debounced past where
  timer _ _ := mem_added_run_iff
  once := nodup_added_pass (nodup_keys past)
  never_again := by
    rintro before key t since t' rfl hadded hsince hagain
    obtain ⟨time, -, hmem⟩ := mem_added_pass.1 hagain
    rw [← List.singleton_append, ← List.append_assoc] at hmem
    exact no_deadline_append (no_deadline_of_added hadded) hsince time hmem
  latest := by
    rintro before now key delay since rfl hsince
    rcases pending_or_queued before now delay hsince with ⟨hpos, hmem⟩ | ⟨hnone, hqueued⟩
    · exact .inl ⟨hpos, (deadline?_iff (nodup_keys _)).2 hmem⟩
    · exact .inr ⟨deadline?_eq_none hnone, hqueued⟩
  immediate := by
    intro now key
    refine ⟨rfl, deadline?_eq_none fun time hmem => ?_, rfl⟩
    exact (mem_without.1 hmem).2 rfl
  apart := by
    intro keep key hkey
    obtain ⟨hdeadlines, hcount⟩ := run_filter keep past
    refine ⟨Option.ext fun time => ?_, hcount key hkey⟩
    rw [deadline?_iff (nodup_keys _), deadline?_iff (nodup_keys _), hdeadlines, List.mem_filter]
    exact and_iff_left hkey
  ordered := by
    intro t
    refine ⟨(run past).scheduler.due t, rfl, pairwise_due _ t, fun key time => ?_⟩
    rw [mem_due, deadline?_iff (nodup_keys past)]
  received := queued_run past
  waits := await_eq _

end Scheduler

end Templating
