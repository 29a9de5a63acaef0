import Mathlib
import Templating.Watcher
import Templating.Proofs.Debouncing

/-!
# Templates that are not watched any more

A template that is untracked, or that is gone when the watcher looks, loses its deadline. What the timer
made ready before stays in the queue and is still given out: later receptions return the template exactly
as often as it waited there (`returned_after_stop_iff`).
-/

namespace Templating

theorem Path.same_iff {p q : Path} : p.same q ↔ p.components = q.components :=
  beq_iff_eq

/-! ## Runs -/

/-- A watcher and the files around it. -/
structure Watching where
  watcher : Watcher := {}
  files : FileTree

namespace Watching

/-- What can happen to a watcher. A poll looks at all templates at once, or comes to one after the other
while something else happens. -/
inductive Event
  | track (p : Path)
  | untrack (p : Path)
  | change (files : FileTree)
  | poll (now : Nat)
  | look (now : Nat) (p : Path)
  | pass (now : Nat)
  | receive
  | await (now limit : Nat)

/-- Looks again at the templates that are selected. -/
def look (w : Watcher) (files : FileTree) (now : Nat) (select : Path → Bool) : Watcher :=
  let seen := (w.templates.filter (select ·.path)).map (Watcher.examine files)
  { templates := w.templates.map fun t => if select t.path then (Watcher.examine files t).2 else t
    scheduler := seen.foldl (Watcher.note now) w.scheduler }

def act (s : Watching) : Event → Watching
  | .track p => { s with watcher := (s.watcher.track s.files p).2 }
  | .untrack p => { s with watcher := (s.watcher.untrack p).2 }
  | .change files => { s with files }
  | .poll now => { s with watcher := (s.watcher.poll s.files now).2 }
  | .look now p => { s with watcher := look s.watcher s.files now (·.same p) }
  | .pass now => { s with watcher := { s.watcher with scheduler := s.watcher.scheduler.pass now } }
  | .receive => { s with watcher := s.watcher.receive.2 }
  | .await now limit => { s with watcher := (s.watcher.await now limit).2.2 }

/-- The template that an event returns to its caller. -/
def returned (s : Watching) : Event → Option Path
  | .receive => s.watcher.receive.1
  | .await now limit => (s.watcher.await now limit).1
  | _ => none

def run (s : Watching) (events : List Event) : Watching :=
  events.foldl act s

def returns (s : Watching) : List Event → List Path
  | [] => []
  | e :: events => (s.returned e).toList ++ (s.act e).returns events

/-- A template is untracked, or is found gone by a poll. -/
def Stops (s : Watching) (t : Path) : Event → Prop
  | .untrack p => p.same t
  | .poll _ => ∃ u ∈ s.watcher.templates, u.path.same t ∧ (Watcher.examine s.files u).1 = .gone
  | .look _ p => p.same t ∧
    ∃ u ∈ s.watcher.templates, u.path.same t ∧ (Watcher.examine s.files u).1 = .gone
  | _ => False

/-- A poll schedules a template. -/
def Schedules (s : Watching) (t : Path) : Event → Prop
  | .poll _ => ∃ u ∈ s.watcher.templates, u.path.same t ∧ (Watcher.examine s.files u).1 = .changed
  | .look _ p => p.same t ∧
    ∃ u ∈ s.watcher.templates, u.path.same t ∧ (Watcher.examine s.files u).1 = .changed
  | _ => False

/-- A template is not scheduled in a run. -/
def Quiet (t : Path) : Watching → List Event → Prop
  | _, [] => True
  | s, e :: events => ¬ s.Schedules t e ∧ Quiet t (s.act e) events

/-- How a template waits in the queue, under whatever texts its path has. -/
def waiting (s : Watching) (t : Path) : List Path :=
  s.watcher.scheduler.queue.filter (·.same t)

theorem act_poll (s : Watching) (now : Nat) :
    s.act (.poll now) = { s with watcher := look s.watcher s.files now fun _ => true } := by
  simp [act, Watcher.poll, look]

theorem path_examine (files : FileTree) (t : WatchedTemplate) :
    (Watcher.examine files t).2.path = t.path := by
  unfold Watcher.examine
  dsimp only
  split
  · rfl
  · split <;> rfl

/-! ## What is tracked -/

/-- Templates have different paths, and only their paths have deadlines. -/
structure Sound (w : Watcher) : Prop where
  apart : (w.templates.map (·.path.components)).Nodup
  tracked : ∀ d ∈ w.scheduler.deadlines, ∃ u ∈ w.templates, u.path = d.1

section
variable {w : Watcher} {files : FileTree} {now : Nat} {p t : Path} {select : Path → Bool}
  {s : Scheduler Path} {seen : Watcher.Change × WatchedTemplate} {d : Path × Nat}

theorem mem_of_find? {u : WatchedTemplate} (h : w.find? p = some u) : u ∈ w.templates ∧ u.path.same p := by
  have hfound := List.find?_some (p := fun u : WatchedTemplate => u.path.same p) h
  exact ⟨List.mem_of_find?_eq_some h, hfound⟩

theorem not_same_of_find? (h : w.find? p = none) : ∀ u ∈ w.templates, ¬ u.path.same p :=
  List.find?_eq_none.1 h

theorem Sound.eq_of_same (h : Sound w) {u v : WatchedTemplate} (hu : u ∈ w.templates)
    (hv : v ∈ w.templates) (hut : u.path.same t) (hvt : v.path.same t) : u = v :=
  List.inj_on_of_nodup_map h.apart hu hv ((Path.same_iff.1 hut).trans (Path.same_iff.1 hvt).symm)

theorem Sound.of_eq {w' : Watcher} (h : Sound w)
    (hpaths : w'.templates.map (·.path) = w.templates.map (·.path))
    (hdeadlines : ∀ d ∈ w'.scheduler.deadlines, d ∈ w.scheduler.deadlines ∨ ∃ u ∈ w.templates, u.path = d.1) :
    Sound w' := by
  have hcomponents : ∀ w : Watcher, w.templates.map (·.path.components) =
      (w.templates.map (·.path)).map Path.components := by
    intro w
    rw [List.map_map]
    rfl
  refine ⟨?_, fun d hd => ?_⟩
  · rw [hcomponents, hpaths, ← hcomponents]
    exact h.apart
  · have htracked : ∃ u ∈ w.templates, u.path = d.1 := (hdeadlines d hd).elim (h.tracked d) id
    rw [← List.mem_map, hpaths.symm, List.mem_map] at htracked
    exact htracked

/-! ### Looking again -/

theorem mem_deadlines_note (h : d ∈ (Watcher.note now s seen).deadlines) :
    d ∈ s.deadlines ∨ seen.1 = .changed ∧ d.1 = seen.2.path := by
  unfold Watcher.note at h
  split at h
  · exact .inl h
  · rename_i hchanged
    have hact : (d.1, d.2) ∈ (s.act (.schedule now seen.2.path seen.2.options.triggerDelay)).deadlines := h
    rcases Scheduler.mem_deadlines_act.1 hact with hsets | ⟨hmem, -⟩
    · exact .inr ⟨hchanged, hsets.1.symm⟩
    · exact .inl hmem
  · exact .inl (Scheduler.mem_without.1 h).1

theorem mem_deadlines_notes {all : List (Watcher.Change × WatchedTemplate)} :
    ∀ {s : Scheduler Path}, d ∈ (all.foldl (Watcher.note now) s).deadlines →
      d ∈ s.deadlines ∨ ∃ seen ∈ all, seen.1 = .changed ∧ d.1 = seen.2.path := by
  induction all with
  | nil => exact .inl
  | cons seen all ih =>
    intro s h
    rcases ih h with h | ⟨x, hx, he⟩
    · rcases mem_deadlines_note h with h | he
      · exact .inl h
      · exact .inr ⟨seen, List.mem_cons_self, he⟩
    · exact .inr ⟨x, List.mem_cons_of_mem _ hx, he⟩

theorem waiting_note (h : ¬ (seen.1 = .changed ∧ seen.2.path.same t)) :
    (Watcher.note now s seen).queue.filter (·.same t) = s.queue.filter (·.same t) := by
  unfold Watcher.note
  split
  · rfl
  · rename_i hchanged
    have hother : ¬ seen.2.path.same t := fun hsame => h ⟨hchanged, hsame⟩
    unfold Scheduler.schedule
    split
    · simp [hother]
    · rfl
  · rfl

theorem waiting_notes {all : List (Watcher.Change × WatchedTemplate)} :
    ∀ {s : Scheduler Path}, (∀ seen ∈ all, ¬ (seen.1 = .changed ∧ seen.2.path.same t)) →
      (all.foldl (Watcher.note now) s).queue.filter (·.same t) = s.queue.filter (·.same t) := by
  induction all with
  | nil => exact fun _ => rfl
  | cons seen all ih =>
    intro s h
    rw [List.foldl_cons, ih fun x hx => h x (List.mem_cons_of_mem _ hx),
      waiting_note (h seen List.mem_cons_self)]

theorem Sound.look (h : Sound w) (files : FileTree) (now : Nat) (select : Path → Bool) :
    Sound (look w files now select) := by
  refine h.of_eq ?_ fun d hd => ?_
  · rw [Watching.look, List.map_map]
    refine List.map_congr_left fun u _ => ?_
    simp only [Function.comp_apply]
    split
    · exact path_examine files u
    · rfl
  · rcases mem_deadlines_notes hd with hd | ⟨seen, hseen, -, hpath⟩
    · exact .inl hd
    · obtain ⟨u, hu, rfl⟩ := List.mem_map.1 hseen
      exact .inr ⟨u, (List.mem_filter.1 hu).1, by rw [hpath, path_examine]⟩

end

theorem mem_deadlines_await {w : Watcher} {now limit : Nat} {d : Path × Nat}
    (h : d ∈ (w.await now limit).2.2.scheduler.deadlines) : d ∈ w.scheduler.deadlines := by
  have hd : d ∈ (w.scheduler.await now (some limit)).2.2.deadlines := h
  rcases w.scheduler.await_eq now (some limit) with he | ⟨t, -, he⟩
  · rwa [he, Scheduler.deadlines_receive] at hd
  · rw [he, Scheduler.deadlines_receive] at hd
    exact (List.mem_filter.1 hd).1

theorem Sound.act {s : Watching} (h : Sound s.watcher) (e : Event) : Sound (s.act e).watcher := by
  cases e with
  | track p =>
    show Sound (s.watcher.track s.files p).2
    unfold Watcher.track
    split
    · exact h
    · rename_i hfind
      refine ⟨?_, fun d hd => ?_⟩
      · rw [List.map_append]
        refine List.nodup_append_comm.1 (List.nodup_cons.2 ⟨fun hmem => ?_, h.apart⟩)
        obtain ⟨u, hu, hsame⟩ := List.mem_map.1 hmem
        exact not_same_of_find? hfind u hu (Path.same_iff.2 hsame)
      · obtain ⟨u, hu, hpath⟩ := h.tracked d hd
        exact ⟨u, List.mem_append_left _ hu, hpath⟩
  | untrack p =>
    show Sound (s.watcher.untrack p).2
    unfold Watcher.untrack
    split
    · exact h
    · rename_i u hfind
      obtain ⟨hu, hup⟩ := mem_of_find? hfind
      refine ⟨h.apart.sublist (List.filter_sublist.map _), fun d hd => ?_⟩
      obtain ⟨hd, hne⟩ := Scheduler.mem_without.1 hd
      obtain ⟨v, hv, hpath⟩ := h.tracked d hd
      refine ⟨v, List.mem_filter.2 ⟨hv, ?_⟩, hpath⟩
      simp only [Bool.not_eq_true', Bool.eq_false_iff]
      intro hvp
      rw [h.eq_of_same hv hu hvp hup] at hpath
      exact hne hpath.symm
  | change files => exact h
  | poll now =>
    rw [act_poll]
    show Sound (Watching.look s.watcher s.files now fun _ => true)
    exact h.look ..
  | look now p =>
    show Sound (Watching.look s.watcher s.files now (·.same p))
    exact h.look ..
  | pass now => exact h.of_eq rfl fun d hd => .inl (List.mem_filter.1 hd).1
  | receive =>
    refine h.of_eq rfl fun d hd => .inl ?_
    rwa [← Scheduler.deadlines_receive]
  | await now limit => exact h.of_eq rfl fun d hd => .inl (mem_deadlines_await hd)

theorem sound_run {s : Watching} (h : Sound s.watcher) (events : List Event) :
    Sound (s.run events).watcher := by
  induction events generalizing s with
  | nil => exact h
  | cons e events ih => exact ih (h.act e)

/-! ## Templates without a deadline -/

/-- No text of a template's path has a deadline. -/
def Free (t : Path) (s : Scheduler Path) : Prop :=
  ∀ d ∈ s.deadlines, ¬ d.1.same t

section
variable {s : Scheduler Path} {t : Path}

theorem Free.notes (h : Free t s) (now : Nat) {all : List (Watcher.Change × WatchedTemplate)}
    (hall : ∀ seen ∈ all, ¬ (seen.1 = .changed ∧ seen.2.path.same t)) :
    Free t (all.foldl (Watcher.note now) s) := by
  intro d hd hsame
  rcases mem_deadlines_notes hd with hd | ⟨seen, hseen, hchanged, hpath⟩
  · exact h d hd hsame
  · exact hall seen hseen ⟨hchanged, hpath ▸ hsame⟩

/-- A pass makes no other key ready. -/
theorem Free.waiting_pass (h : Free t s) (now : Nat) :
    (s.pass now).queue.filter (·.same t) = s.queue.filter (·.same t) := by
  have hnone : ((s.due now).map (·.1)).filter (·.same t) = [] := by
    refine List.filter_eq_nil_iff.2 fun p hp => ?_
    obtain ⟨d, hd, rfl⟩ := List.mem_map.1 hp
    exact h d (Scheduler.mem_due.1 hd).1
  rw [Scheduler.pass, List.filter_append, hnone, List.append_nil]

theorem Free.pass (h : Free t s) (now : Nat) : Free t (s.pass now) :=
  fun d hd => h d (List.mem_filter.1 hd).1

theorem Free.receive (h : Free t s) : Free t s.receive.2 := by
  intro d hd
  rw [Scheduler.deadlines_receive] at hd
  exact h d hd

theorem waiting_receive (s : Scheduler Path) (t : Path) :
    s.receive.1.toList.filter (·.same t) ++ s.receive.2.queue.filter (·.same t) =
      s.queue.filter (·.same t) := by
  rw [← List.filter_append, ← Scheduler.queue_receive]

end

theorem mem_deadlines_untrack {w : Watcher} {p : Path} {d : Path × Nat}
    (h : d ∈ (w.untrack p).2.scheduler.deadlines) :
    d ∈ w.scheduler.deadlines ∧ ∀ u, w.find? p = some u → d.1 ≠ u.path := by
  unfold Watcher.untrack at h
  split at h
  · rename_i hfind
    exact ⟨h, fun u hu => by cases hfind.symm.trans hu⟩
  · rename_i u hfind
    obtain ⟨hd, hne⟩ := Scheduler.mem_without.1 h
    refine ⟨hd, fun v hv => ?_⟩
    obtain rfl := Option.some.inj (hfind.symm.trans hv)
    exact hne

theorem queue_untrack (w : Watcher) (p : Path) : (w.untrack p).2.scheduler.queue = w.scheduler.queue := by
  unfold Watcher.untrack
  split <;> rfl

theorem notes_of_not_changed (w : Watcher) (files : FileTree) (t : Path) (select : Path → Bool)
    (h : ∀ u ∈ w.templates, select u.path → u.path.same t → (Watcher.examine files u).1 ≠ .changed) :
    ∀ seen ∈ (w.templates.filter (select ·.path)).map (Watcher.examine files),
      ¬ (seen.1 = .changed ∧ seen.2.path.same t) := by
  rintro seen hseen ⟨hchanged, hsame⟩
  obtain ⟨u, hu, rfl⟩ := List.mem_map.1 hseen
  obtain ⟨hu, hselect⟩ := List.mem_filter.1 hu
  rw [path_examine] at hsame
  exact h u hu hselect hsame hchanged

/-- An event that only returns a template does so from the queue. -/
theorem await_of_free {w : Watcher} {t : Path} (h : Free t w.scheduler) (now limit : Nat) :
    (w.await now limit).1.toList.filter (·.same t) ++
      (w.await now limit).2.2.scheduler.queue.filter (·.same t) = w.scheduler.queue.filter (·.same t) := by
  show (w.scheduler.await now (some limit)).1.toList.filter (·.same t) ++
    (w.scheduler.await now (some limit)).2.2.queue.filter (·.same t) = _
  rcases w.scheduler.await_eq now (some limit) with he | ⟨time, -, he⟩ <;> rw [he]
  · exact waiting_receive _ t
  · rw [waiting_receive, h.waiting_pass]

/-- While a template without a deadline is not scheduled, it is returned only from the queue. -/
theorem act_of_free {s : Watching} {t : Path} {e : Event} (h : Free t s.watcher.scheduler)
    (he : ¬ s.Schedules t e) : Free t (s.act e).watcher.scheduler ∧
      (s.returned e).toList.filter (·.same t) ++ (s.act e).waiting t = s.waiting t := by
  cases e with
  | track p =>
    have hkept : (s.act (.track p)).watcher.scheduler = s.watcher.scheduler := by
      show (s.watcher.track s.files p).2.scheduler = _
      unfold Watcher.track
      split <;> rfl
    rw [waiting, hkept]
    exact ⟨h, rfl⟩
  | untrack p =>
    refine ⟨fun d hd => h d (mem_deadlines_untrack hd).1, ?_⟩
    rw [waiting, act, queue_untrack]
    rfl
  | change files => exact ⟨h, rfl⟩
  | poll now =>
    have hall := notes_of_not_changed s.watcher s.files t (fun _ => true)
      fun u hu _ hsame hchanged => he ⟨u, hu, hsame, hchanged⟩
    rw [act_poll]
    exact ⟨h.notes now hall, waiting_notes hall⟩
  | look now p =>
    have hall := notes_of_not_changed s.watcher s.files t (·.same p)
      fun u hu hup hut hchanged => he ⟨?_, u, hu, hut, hchanged⟩
    · exact ⟨h.notes now hall, waiting_notes hall⟩
    · rw [Path.same_iff] at hup hut ⊢
      exact hup.symm.trans hut
  | pass now => exact ⟨h.pass now, h.waiting_pass now⟩
  | receive => exact ⟨h.receive, waiting_receive _ t⟩
  | await now limit => exact ⟨fun d hd => h d (mem_deadlines_await hd), await_of_free h now limit⟩

theorem returns_of_free {s : Watching} {t : Path} (events : List Event) (h : Free t s.watcher.scheduler)
    (hquiet : Quiet t s events) : Free t (s.run events).watcher.scheduler ∧
      (s.returns events).filter (·.same t) ++ (s.run events).waiting t = s.waiting t := by
  induction events generalizing s with
  | nil => exact ⟨h, rfl⟩
  | cons e events ih =>
    obtain ⟨he, hquiet⟩ := hquiet
    obtain ⟨hfree, hwaiting⟩ := act_of_free h he
    obtain ⟨hfree', hwaiting'⟩ := ih hfree hquiet
    refine ⟨hfree', ?_⟩
    rw [returns, List.filter_append, List.append_assoc]
    exact (congrArg _ hwaiting').trans hwaiting

/-! ## Stopping -/

/-- A template that is found gone loses its deadline. -/
theorem look_of_gone {w : Watcher} (h : Sound w) (select : Path → Bool) {files : FileTree} {now : Nat}
    {t : Path} {u : WatchedTemplate} (hu : u ∈ w.templates) (hselect : select u.path) (hut : u.path.same t)
    (hgone : (Watcher.examine files u).1 = .gone) :
    Free t (look w files now select).scheduler ∧
      (look w files now select).scheduler.queue.filter (·.same t) = w.scheduler.queue.filter (·.same t) := by
  have hall := notes_of_not_changed w files t select
    fun v hv _ hvt hchanged => by
      rw [h.eq_of_same hv hu hvt hut, hgone] at hchanged
      cases hchanged
  refine ⟨?_, waiting_notes hall⟩
  have hmem : Watcher.examine files u ∈ (w.templates.filter (select ·.path)).map (Watcher.examine files) :=
    List.mem_map_of_mem (List.mem_filter.2 ⟨hu, hselect⟩)
  obtain ⟨earlier, later, hsplit⟩ := List.append_of_mem hmem
  intro d hd hdt
  -- The deadline goes when this template's turn comes, and no other one brings it back.
  have hquiet : ∀ seen ∈ earlier ++ Watcher.examine files u :: later,
      ¬ (seen.1 = .changed ∧ d.1 = seen.2.path) := by
    rintro seen hseen ⟨hchanged, hpath⟩
    exact hall seen (hsplit ▸ hseen) ⟨hchanged, hpath ▸ hdt⟩
  rw [Watching.look, hsplit] at hd
  dsimp only at hd
  rw [List.foldl_append, List.foldl_cons] at hd
  rcases mem_deadlines_notes hd with hd | ⟨seen, hseen, hx⟩
  · rw [Watcher.note, hgone] at hd
    obtain ⟨hd, hne⟩ := Scheduler.mem_without.1 hd
    rw [path_examine] at hne
    rcases mem_deadlines_notes hd with hd | ⟨seen, hseen, hx⟩
    · obtain ⟨v, hv, hpath⟩ := h.tracked d hd
      rw [h.eq_of_same hv hu (hpath ▸ hdt) hut] at hpath
      exact hne hpath.symm
    · exact hquiet seen (List.mem_append_left _ hseen) hx
  · exact hquiet seen (List.mem_append_right _ (List.mem_cons_of_mem _ hseen)) hx

theorem untrack_of_sound {w : Watcher} (h : Sound w) {p t : Path} (hpt : p.same t) :
    Free t (w.untrack p).2.scheduler := by
  intro d hd hdt
  obtain ⟨hd, hne⟩ := mem_deadlines_untrack hd
  obtain ⟨v, hv, hpath⟩ := h.tracked d hd
  have hvt : v.path.same t := hpath ▸ hdt
  cases hfind : w.find? p with
  | none =>
    refine not_same_of_find? hfind v hv ?_
    rw [Path.same_iff] at hvt hpt ⊢
    exact hvt.trans hpt.symm
  | some u =>
    obtain ⟨hu, hup⟩ := mem_of_find? hfind
    have hut : u.path.same t := Path.same_iff.2 ((Path.same_iff.1 hup).trans (Path.same_iff.1 hpt))
    rw [h.eq_of_same hv hu hvt hut] at hpath
    exact hne u hfind hpath.symm

/-- Stopping takes the deadline and leaves the queue. -/
theorem act_of_stops {s : Watching} (h : Sound s.watcher) {t : Path} {stop : Event} (hstop : s.Stops t stop) :
    Free t (s.act stop).watcher.scheduler ∧ (s.act stop).waiting t = s.waiting t := by
  cases stop with
  | untrack p =>
    refine ⟨untrack_of_sound h hstop, ?_⟩
    rw [waiting, act, queue_untrack]
    rfl
  | poll now =>
    obtain ⟨u, hu, hut, hgone⟩ := hstop
    rw [act_poll]
    exact look_of_gone h (fun _ => true) hu rfl hut hgone
  | look now p =>
    obtain ⟨hpt, u, hu, hut, hgone⟩ := hstop
    have hup : u.path.same p := Path.same_iff.2 ((Path.same_iff.1 hut).trans (Path.same_iff.1 hpt).symm)
    exact look_of_gone h (·.same p) hu hup hut hgone
  | _ => exact hstop.elim

/-- Receptions alone return what waits. -/
theorem returns_receptions {s : Watching} {queue : List Path} (h : s.watcher.scheduler.queue = queue) :
    s.returns (List.replicate queue.length .receive) = queue := by
  induction queue generalizing s with
  | nil => rfl
  | cons p queue ih =>
    have hreceive : s.watcher.scheduler.receive = (some p, { s.watcher.scheduler with queue }) := by
      rw [Scheduler.receive, h]
    have hreturned : s.returned .receive = some p := by
      rw [returned, Watcher.receive, hreceive]
    have hqueue : (s.act .receive).watcher.scheduler.queue = queue := by
      rw [act, Watcher.receive, hreceive]
    rw [List.length_cons, List.replicate_succ, returns, hreturned, ih hqueue]
    rfl

theorem quiet_receptions (t : Path) (n : Nat) : ∀ s : Watching, Quiet t s (List.replicate n .receive) := by
  induction n with
  | zero => exact fun _ => trivial
  | succ n ih => exact fun s => ⟨id, ih _⟩

/-! ## Returned after all -/

/-- **A stopped template is returned if the timer was faster.** After a template is untracked or found gone,
it has no deadline until a poll schedules it again. Until then it is returned from the queue only, as
often as it waited there when it was stopped. So it can still be returned exactly if it waited there. -/
theorem returned_after_stop_iff (files : FileTree) (before : List Event) (t : Path) (stop : Event)
    (hstop : (run { files } before).Stops t stop) :
    (∀ after, Quiet t ((run { files } before).act stop) after →
      Free t (((run { files } before).act stop).run after).watcher.scheduler ∧
      (((run { files } before).act stop).returns after).filter (·.same t) ++
        (((run { files } before).act stop).run after).waiting t = (run { files } before).waiting t) ∧
    ((∃ after, Quiet t ((run { files } before).act stop) after ∧
        ∃ p ∈ ((run { files } before).act stop).returns after, p.same t) ↔
      ∃ p ∈ (run { files } before).watcher.scheduler.queue, p.same t) := by
  have hsound := sound_run (s := { files }) ⟨.nil, nofun⟩ before
  generalize run { files } before = s at hstop hsound ⊢
  obtain ⟨hfree, hwaiting⟩ := act_of_stops hsound hstop
  have hreturns : ∀ after, Quiet t (s.act stop) after → _ := fun after => returns_of_free after hfree
  rw [hwaiting] at hreturns
  refine ⟨hreturns, ?_, ?_⟩
  · rintro ⟨after, hquiet, p, hp, hsame⟩
    have hmem : p ∈ s.waiting t := by
      rw [← (hreturns after hquiet).2]
      exact List.mem_append_left _ (List.mem_filter.2 ⟨hp, hsame⟩)
    exact ⟨p, (List.mem_filter.1 hmem).1, hsame⟩
  · rintro ⟨p, hp, hsame⟩
    have hmem : p ∈ (s.act stop).waiting t := by
      rw [hwaiting]
      exact List.mem_filter.2 ⟨hp, hsame⟩
    refine ⟨_, quiet_receptions t (s.act stop).watcher.scheduler.queue.length _, p, ?_, hsame⟩
    rw [returns_receptions rfl]
    exact (List.mem_filter.1 hmem).1

/-- A template is edited and polled, and the timer is faster than the call that untracks it. -/
def hurried : List Event :=
  [.track ⟨"/t.tt"⟩, .change { entries := [(["t.tt"], .file "new".toUTF8 1)], clock := 2 }, .poll 0,
    .pass 500]

theorem returned_after_stop_iff_hurried :
    (run { files := {} } hurried).Stops ⟨"/t.tt"⟩ (.untrack ⟨"/t.tt"⟩) ∧
    ∃ after, Quiet ⟨"/t.tt"⟩ ((run { files := {} } hurried).act (.untrack ⟨"/t.tt"⟩)) after ∧
      ∃ p ∈ ((run { files := {} } hurried).act (.untrack ⟨"/t.tt"⟩)).returns after, p.same ⟨"/t.tt"⟩ := by
  have hstop : (run { files := {} } hurried).Stops ⟨"/t.tt"⟩ (.untrack ⟨"/t.tt"⟩) :=
    Path.same_iff.2 rfl
  refine ⟨hstop, (returned_after_stop_iff {} hurried _ _ hstop).2.2 ⟨⟨"/t.tt"⟩, ?_, Path.same_iff.2 rfl⟩⟩
  decide +kernel

end Watching

end Templating
