import Mathlib
import Templating.Sandbox
import Templating.Proofs.Naming

/-!
# Recycling sandboxes

Loads are asked for and handles dropped in any order, and the directory of a sandbox that was torn down
is removed some time later. However that goes, a sandbox is there exactly as long as one of its handles
is held, takes no more loads than it may, and no two loads get in each other's way (`recycling_safe`).
-/

namespace Templating

/-- Where the module of a handle is loaded to, in the directory of its sandbox. -/
def SandboxHandle.target (h : SandboxHandle) (directory : Path) : Path :=
  directory.join ⟨h.fileName⟩

namespace Recycler

/-! ## Runs -/

inductive Action
  /-- Asks for a load. Should a directory be made for it, this is how that ends. -/
  | acquire (directory : Except FileError Path)
  | release (h : SandboxHandle)
  /-- Removes the directory of a sandbox that was torn down. -/
  | remove (id : Nat)

/-- A recycler with what became of its handles and directories. -/
structure Ledger where
  recycler : Recycler
  /-- Every handle that was ever given out. -/
  given : List SandboxHandle := []
  /-- The handles that were not dropped yet. -/
  held : List SandboxHandle := []
  /-- The directory that was made for each sandbox. -/
  made : List (Nat × Path) := []
  /-- The directories that were not removed yet. -/
  standing : List (Nat × Path) := []
  /-- The sandboxes that were torn down, but whose directories were not removed yet. -/
  doomed : List Nat := []

namespace Ledger

/-- No directory can be made where one is. -/
def place (l : Ledger) (directory : Except FileError Path) : Except FileError Path :=
  directory.bind fun p => if l.standing.any (·.2.same p) then .error .exists else .ok p

/-- What an acquisition makes of a ledger: a new sandbox has a new directory. -/
def acquire (l : Ledger) (directory : Except FileError Path) : Ledger :=
  match l.recycler.acquire ((l.place directory).map fun _ => ()) with
  | (.error _, r) => { l with recycler := r }
  | (.ok h, r) =>
    let fresh := if l.recycler.current.isSome then [] else
      (l.place directory).toOption.toList.map fun p => (h.sandbox, p)
    { l with
      recycler := r
      given := l.given ++ [h]
      held := l.held ++ [h]
      made := l.made ++ fresh
      standing := l.standing ++ fresh }

/-- Only a handle that is held can be dropped. -/
def release (l : Ledger) (h : SandboxHandle) : Ledger :=
  if h ∈ l.held then
    let r := l.recycler.release h.sandbox
    { l with
      recycler := r
      held := l.held.erase h
      doomed := if r.isLive h.sandbox then l.doomed else l.doomed ++ [h.sandbox] }
  else l

def remove (l : Ledger) (id : Nat) : Ledger :=
  if id ∈ l.doomed then
    { l with
      standing := l.standing.filter (·.1 ≠ id)
      doomed := l.doomed.erase id }
  else l

def step (l : Ledger) : Action → Ledger
  | .acquire directory => l.acquire directory
  | .release h => l.release h
  | .remove id => l.remove id

end Ledger

def run (maxUses : Nat) (actions : List Action) : Ledger :=
  actions.foldl Ledger.step { recycler := .new maxUses }

/-! ## Single steps -/

section
variable {r : Recycler} {id : Nat} {s t : Sandbox} {ss : List Sandbox}

theorem mem_live : s ∈ r.live ↔ r.current = some s ∨ s ∈ r.retired := by
  simp [live]

theorem isLive_iff : r.isLive id ↔ ∃ s ∈ r.live, s.id = id := by
  simp [isLive]

/-- A sandbox with one load and one handle more. -/
def loaded (s : Sandbox) : Sandbox :=
  { s with uses := s.uses + 1, handles := s.handles + 1 }

theorem handle_reserve (r : Recycler) (s : Sandbox) : (r.reserve s).1 = ⟨s.id, s.uses + 1⟩ := by
  unfold reserve
  dsimp only
  split <;> rfl

theorem reserve_eq (r : Recycler) (s : Sandbox) : (r.reserve s).2 =
    if r.maxUses ≤ s.uses + 1 then { r with current := none, retired := r.retired ++ [loaded s] }
    else { r with current := some (loaded s) } := by
  unfold reserve
  dsimp only
  split <;> rfl

theorem live_reserve (r : Recycler) (s : Sandbox) :
    (r.reserve s).2.live.Perm (loaded s :: r.retired) := by
  rw [reserve_eq]
  split
  · exact List.perm_append_singleton _ _
  · exact .refl _

theorem nextId_reserve (r : Recycler) (s : Sandbox) : (r.reserve s).2.nextId = r.nextId := by
  rw [reserve_eq]
  split <;> rfl

theorem live_release (r : Recycler) (id : Nat) : (r.release id).live = releaseIn id r.live := by
  unfold release live
  split
  · rename_i s hs
    rw [hs]
    split
    · rename_i hid
      simp only [releaseIn, hid, if_true, Option.toList_some, List.singleton_append]
      split <;> rfl
    · rename_i hid
      simp [releaseIn, hid]
  · rename_i hs
    rw [hs]
    rfl

theorem release_keeps (r : Recycler) (id : Nat) : (r.release id).maxUses = r.maxUses ∧
    (r.release id).nextId = r.nextId ∧ (r.release id).created = r.created := by
  unfold release
  split
  · split <;> exact ⟨rfl, rfl, rfl⟩
  · exact ⟨rfl, rfl, rfl⟩

theorem mem_of_mem_releaseIn (h : t ∈ releaseIn id ss) :
    ∃ s ∈ ss, t.id = s.id ∧ t.uses = s.uses := by
  induction ss with
  | nil => cases h
  | cons s ss ih =>
    rw [releaseIn] at h
    split at h
    · dsimp only at h
      split at h
      · exact ⟨t, List.mem_cons_of_mem _ h, rfl, rfl⟩
      · rcases List.mem_cons.1 h with rfl | h
        · exact ⟨s, List.mem_cons_self, rfl, rfl⟩
        · exact ⟨t, List.mem_cons_of_mem _ h, rfl, rfl⟩
    · rcases List.mem_cons.1 h with rfl | h
      · exact ⟨_, List.mem_cons_self, rfl, rfl⟩
      · obtain ⟨s', hs', he⟩ := ih h
        exact ⟨s', List.mem_cons_of_mem _ hs', he⟩

theorem current_release (h : (r.release id).current = some t) :
    ∃ s, r.current = some s ∧ t.uses = s.uses := by
  unfold release at h
  split at h
  · rename_i s hs
    split at h
    · obtain ⟨s', hs', -, huses⟩ := mem_of_mem_releaseIn (List.mem_of_mem_head? h)
      obtain rfl := List.mem_singleton.1 hs'
      exact ⟨_, hs, huses⟩
    · exact ⟨t, h, rfl⟩
  · rename_i hs
    cases hs.symm.trans h

theorem retired_release (h : t ∈ (r.release id).retired) : ∃ s ∈ r.retired, t.uses = s.uses := by
  have hreleased : t ∈ r.retired ∨ t ∈ releaseIn id r.retired := by
    unfold release at h
    split at h
    · split at h
      · exact .inl h
      · exact .inr h
    · exact .inr h
  rcases hreleased with h | h
  · exact ⟨t, h, rfl⟩
  · obtain ⟨s, hs, -, huses⟩ := mem_of_mem_releaseIn h
    exact ⟨s, hs, huses⟩

theorem releaseIn_ids_sublist (id : Nat) (ss : List Sandbox) :
    ((releaseIn id ss).map (·.id)).Sublist (ss.map (·.id)) := by
  induction ss with
  | nil => exact .slnil
  | cons s ss ih =>
    rw [releaseIn]
    split
    · dsimp only
      split
      · exact List.sublist_cons_self _ _
      · exact .refl _
    · exact ih.cons_cons _

theorem mem_releaseIn_cons_self :
    t ∈ releaseIn s.id (s :: ss) ↔ t ∈ ss ∨ t = dropHandle s ∧ t.handles ≠ 0 := by
  rw [releaseIn, if_pos rfl]
  dsimp only
  split
  · rename_i hzero
    refine ⟨.inl, fun h => h.resolve_right ?_⟩
    rintro ⟨rfl, hne⟩
    exact hne hzero
  · rename_i hne
    rw [List.mem_cons, or_comm]
    refine or_congr_right ⟨?_, And.left⟩
    rintro rfl
    exact ⟨rfl, hne⟩

/-- Where ids are different, releasing changes the sandbox of this id and no other. -/
theorem mem_releaseIn (hids : (ss.map (·.id)).Nodup) : t ∈ releaseIn id ss ↔
    (t ∈ ss ∧ t.id ≠ id) ∨ ∃ s ∈ ss, s.id = id ∧ t = dropHandle s ∧ t.handles ≠ 0 := by
  induction ss with
  | nil => simp [releaseIn]
  | cons s ss ih =>
    obtain ⟨hs, hids⟩ := List.nodup_cons.1 hids
    by_cases hid : s.id = id
    · subst hid
      have hother : ∀ t ∈ ss, t.id ≠ s.id := fun t ht he => hs (List.mem_map.2 ⟨t, ht, he⟩)
      rw [mem_releaseIn_cons_self]
      constructor
      · rintro (ht | ht)
        · exact .inl ⟨List.mem_cons_of_mem _ ht, hother t ht⟩
        · exact .inr ⟨s, List.mem_cons_self, rfl, ht⟩
      · rintro (⟨ht, hne⟩ | ⟨s', hs', hid, ht⟩)
        · refine .inl ((List.mem_cons.1 ht).resolve_left ?_)
          rintro rfl
          exact hne rfl
        · rcases List.mem_cons.1 hs' with rfl | hs'
          · exact .inr ht
          · exact absurd hid (hother s' hs')
    · have hthis : t ∈ s :: ss ∧ t.id ≠ id ↔ t = s ∨ t ∈ ss ∧ t.id ≠ id := by
        rw [List.mem_cons, or_and_right]
        refine or_congr_left ⟨And.left, ?_⟩
        rintro rfl
        exact ⟨rfl, hid⟩
      rw [releaseIn, if_neg hid, List.mem_cons, ih hids, hthis, or_assoc]
      simp [hid]

end

/-! ## What holds all along -/

/-- A recycler by itself: the current sandbox has room, the retired ones are full. -/
structure Formed (bound : Nat) (r : Recycler) : Prop where
  bound_pos : 0 < bound
  maxUses : r.maxUses = bound
  created : r.created = r.nextId
  ids : (r.live.map (·.id)).Nodup
  old : ∀ s ∈ r.live, s.id < r.nextId
  room : ∀ s, r.current = some s → s.uses < bound
  full : ∀ s ∈ r.retired, s.uses = bound

/-- A recycler and its handles: sandboxes count the handles that were given out and those that are held. -/
structure Counted (bound : Nat) (r : Recycler) (given held : List SandboxHandle) : Prop where
  old : ∀ h ∈ given, h.sandbox < r.nextId
  uses : ∀ s ∈ r.live, s.uses = given.countP (·.sandbox = s.id)
  handles : ∀ s ∈ r.live, s.handles = held.countP (·.sandbox = s.id)
  countP_le : ∀ id, given.countP (·.sandbox = id) ≤ bound
  load_le : ∀ h ∈ given, h.load ≤ given.countP (·.sandbox = h.sandbox)
  nodup : given.Nodup
  sublist : held.Sublist given
  isLive : ∀ h ∈ held, r.isLive h.sandbox

/-- No sandbox is there for nothing. -/
def Occupied (r : Recycler) : Prop :=
  ∀ s ∈ r.live, s.handles ≠ 0

section
variable {bound : Nat} {r : Recycler} {given held : List SandboxHandle} {s : Sandbox}

/-! ### A load in the current sandbox -/

theorem Formed.ids_of_current (h : Formed bound r) (hs : r.current = some s) :
    (s.id :: r.retired.map (·.id)).Nodup := by
  have hids := h.ids
  rwa [live, hs] at hids

theorem Formed.reserve (h : Formed bound r) (hs : r.current = some s) : Formed bound (r.reserve s).2 := by
  have hlive := live_reserve r s
  have hmaxUses := h.maxUses
  have hroom := h.room s hs
  refine ⟨h.bound_pos, ?_, ?_, ?_, ?_, ?_, ?_⟩
  · rw [reserve_eq]
    split <;> exact hmaxUses
  · rw [reserve_eq]
    split <;> exact h.created
  · rw [(hlive.map _).nodup_iff]
    have hids := h.ids_of_current hs
    exact hids
  · intro t ht
    rw [nextId_reserve]
    rcases List.mem_cons.1 (hlive.mem_iff.1 ht) with rfl | ht
    · exact h.old s (mem_live.2 (.inl hs))
    · exact h.old t (mem_live.2 (.inr ht))
  · intro t ht
    rw [reserve_eq] at ht
    split at ht
    · cases ht
    · rename_i hless
      obtain rfl := Option.some.inj ht
      simpa [hmaxUses, loaded] using hless
  · intro t ht
    rw [reserve_eq] at ht
    split at ht
    · rename_i hfull
      rcases List.mem_append.1 ht with ht | ht
      · exact h.full t ht
      · obtain rfl := List.mem_singleton.1 ht
        show s.uses + 1 = bound
        omega
    · exact h.full t ht

theorem Occupied.reserve (h : ∀ s ∈ r.retired, s.handles ≠ 0) (s : Sandbox) :
    Occupied (r.reserve s).2 := by
  intro t ht
  rcases List.mem_cons.1 ((live_reserve r s).mem_iff.1 ht) with rfl | ht
  · exact Nat.succ_ne_zero _
  · exact h t ht

theorem countP_append_handle (hs : List SandboxHandle) (h : SandboxHandle) (id : Nat) :
    (hs ++ [h]).countP (·.sandbox = id) =
      hs.countP (·.sandbox = id) + if h.sandbox = id then 1 else 0 := by
  simp [List.countP_append, List.countP_cons]

theorem Counted.reserve (h : Counted bound r given held) (hr : Formed bound r) (hs : r.current = some s) :
    Counted bound (r.reserve s).2 (given ++ [(r.reserve s).1]) (held ++ [(r.reserve s).1]) := by
  have hmem : s ∈ r.live := mem_live.2 (.inl hs)
  have hretired : ∀ t ∈ r.retired, t ∈ r.live := fun t ht => mem_live.2 (.inr ht)
  have hother : ∀ t ∈ r.retired, s.id ≠ t.id := by
    intro t ht he
    exact (List.nodup_cons.1 (hr.ids_of_current hs)).1 (List.mem_map.2 ⟨t, ht, he.symm⟩)
  have hlive : ∀ {t}, t ∈ (r.reserve s).2.live ↔ t = loaded s ∨ t ∈ r.retired :=
    (live_reserve r s).mem_iff.trans List.mem_cons
  have huses := h.uses s hmem
  have hroom := hr.room s hs
  rw [handle_reserve]
  refine ⟨?_, ?_, ?_, ?_, ?_, ?_, h.sublist.append (.refl _), ?_⟩
  · rw [nextId_reserve]
    exact List.forall_mem_append.2 ⟨h.old, List.forall_mem_singleton.2 (hr.old s hmem)⟩
  · intro t ht
    rw [countP_append_handle]
    rcases hlive.1 ht with rfl | ht
    · simp [loaded, huses]
    · rw [h.uses t (hretired t ht), if_neg (hother t ht), Nat.add_zero]
  · intro t ht
    rw [countP_append_handle]
    rcases hlive.1 ht with rfl | ht
    · simp [loaded, h.handles s hmem]
    · rw [h.handles t (hretired t ht), if_neg (hother t ht), Nat.add_zero]
  · intro id
    rw [countP_append_handle]
    split
    · rename_i hid
      obtain rfl : s.id = id := hid
      omega
    · exact h.countP_le id
  · refine List.forall_mem_append.2 ⟨fun h' hh' => ?_, List.forall_mem_singleton.2 ?_⟩
    · rw [countP_append_handle]
      exact Nat.le_add_right_of_le (h.load_le h' hh')
    · rw [countP_append_handle]
      simp [huses]
  · -- Every handle of this sandbox has a lower number.
    refine List.nodup_append_comm.1 (List.nodup_cons.2 ⟨fun hmem' => ?_, h.nodup⟩)
    have hload := h.load_le _ hmem'
    dsimp only at hload
    omega
  · refine List.forall_mem_append.2 ⟨fun h' hh' => ?_, List.forall_mem_singleton.2 ?_⟩
    · obtain ⟨t, ht, hid⟩ := isLive_iff.1 (h.isLive h' hh')
      rcases mem_live.1 ht with ht | ht
      · obtain rfl := Option.some.inj (hs.symm.trans ht)
        exact isLive_iff.2 ⟨loaded s, hlive.2 (.inl rfl), hid⟩
      · exact isLive_iff.2 ⟨t, hlive.2 (.inr ht), hid⟩
    · exact isLive_iff.2 ⟨loaded s, hlive.2 (.inl rfl), rfl⟩

/-! ### A fresh sandbox -/

/-- The recycler with a fresh sandbox that nothing was loaded into yet. -/
def opened (r : Recycler) : Recycler :=
  { r with current := some ⟨r.nextId, 0, 0⟩, nextId := r.nextId + 1, created := r.created + 1 }

theorem acquire_current (hs : r.current = some s) (directory : Except FileError Unit) :
    r.acquire directory = (.ok (r.reserve s).1, (r.reserve s).2) := by
  unfold acquire
  rw [hs]

theorem acquire_error (hs : r.current = none) (e : FileError) : r.acquire (.error e) = (.error e, r) := by
  unfold acquire
  rw [hs]

theorem acquire_fresh (hs : r.current = none) :
    r.acquire (.ok ()) =
      (.ok (r.opened.reserve ⟨r.nextId, 0, 0⟩).1, (r.opened.reserve ⟨r.nextId, 0, 0⟩).2) := by
  unfold acquire
  rw [hs]
  dsimp only
  unfold Recycler.reserve opened
  dsimp only

theorem Formed.opened (h : Formed bound r) (hs : r.current = none) : Formed bound r.opened := by
  have hlive : r.live = r.retired := by rw [live, hs]; rfl
  refine ⟨h.bound_pos, h.maxUses, congrArg (· + 1) h.created, ?_, ?_, ?_, h.full⟩
  · refine List.nodup_cons.2 ⟨fun hmem => ?_, hlive ▸ h.ids⟩
    obtain ⟨t, ht, hid⟩ := List.mem_map.1 hmem
    exact absurd (h.old t (hlive ▸ ht)) (by rw [hid]; exact Nat.lt_irrefl _)
  · intro t ht
    rcases List.mem_cons.1 ht with rfl | ht
    · exact Nat.lt_succ_self _
    · exact Nat.lt_succ_of_lt (h.old t (hlive ▸ ht))
  · intro t ht
    obtain rfl := Option.some.inj ht
    exact h.bound_pos

theorem Counted.opened (h : Counted bound r given held) (hs : r.current = none) :
    Counted bound r.opened given held := by
  have hlive : r.live = r.retired := by rw [live, hs]; rfl
  have hnone : ∀ hs : List SandboxHandle, hs.Sublist given → 0 = hs.countP (·.sandbox = r.nextId) := by
    intro hs hsub
    refine (List.countP_eq_zero.2 fun x hx => ?_).symm
    simpa using (h.old x (hsub.mem hx)).ne
  refine ⟨fun x hx => Nat.lt_succ_of_lt (h.old x hx), ?_, ?_, h.countP_le, h.load_le, h.nodup, h.sublist, ?_⟩
  · intro t ht
    rcases List.mem_cons.1 ht with rfl | ht
    · exact hnone given (.refl _)
    · exact h.uses t (hlive ▸ ht)
  · intro t ht
    rcases List.mem_cons.1 ht with rfl | ht
    · exact hnone held h.sublist
    · exact h.handles t (hlive ▸ ht)
  · intro x hx
    obtain ⟨t, ht, hid⟩ := isLive_iff.1 (h.isLive x hx)
    exact isLive_iff.2 ⟨t, List.mem_cons_of_mem _ (hlive ▸ ht), hid⟩

/-! ### A handle that is dropped -/

theorem Formed.release (h : Formed bound r) (id : Nat) : Formed bound (r.release id) := by
  obtain ⟨hmaxUses, hnextId, hcreated⟩ := release_keeps r id
  refine ⟨h.bound_pos, hmaxUses.trans h.maxUses, ?_, ?_, ?_, ?_, ?_⟩
  · rw [hcreated, hnextId, h.created]
  · rw [live_release]
    exact (releaseIn_ids_sublist id r.live).nodup h.ids
  · intro t ht
    rw [live_release] at ht
    obtain ⟨s, hs, hid, -⟩ := mem_of_mem_releaseIn ht
    rw [hid, hnextId]
    exact h.old s hs
  · intro t ht
    obtain ⟨s, hs, huses⟩ := current_release ht
    rw [huses]
    exact h.room s hs
  · intro t ht
    obtain ⟨s, hs, huses⟩ := retired_release ht
    rw [huses]
    exact h.full s hs

theorem Occupied.release (h : Occupied r) (hr : Formed bound r) (id : Nat) : Occupied (r.release id) := by
  intro t ht
  rw [live_release, mem_releaseIn hr.ids] at ht
  rcases ht with ⟨ht, -⟩ | ⟨s, -, -, -, hne⟩
  · exact h t ht
  · exact hne

theorem Counted.release {x : SandboxHandle} (h : Counted bound r given held) (hr : Formed bound r)
    (hx : x ∈ held) : Counted bound (r.release x.sandbox) given (held.erase x) := by
  have hlive : ∀ {t}, t ∈ (r.release x.sandbox).live ↔ (t ∈ r.live ∧ t.id ≠ x.sandbox) ∨
      ∃ s ∈ r.live, s.id = x.sandbox ∧ t = dropHandle s ∧ t.handles ≠ 0 := by
    intro t
    rw [live_release, mem_releaseIn hr.ids]
  have hdropped : ∀ s ∈ r.live, s.id = x.sandbox →
      (dropHandle s).handles = (held.erase x).countP (·.sandbox = s.id) := by
    intro s hs hid
    rw [List.countP_erase, if_pos ⟨hx, by simpa using hid.symm⟩, ← h.handles s hs]
    rfl
  refine ⟨?_, ?_, ?_, h.countP_le, h.load_le, h.nodup, List.erase_sublist.trans h.sublist, ?_⟩
  · rw [(release_keeps r x.sandbox).2.1]
    exact h.old
  · intro t ht
    rcases hlive.1 ht with ⟨ht, -⟩ | ⟨s, hs, -, rfl, -⟩
    · exact h.uses t ht
    · exact h.uses s hs
  · intro t ht
    rcases hlive.1 ht with ⟨ht, hne⟩ | ⟨s, hs, hid, rfl, -⟩
    · rw [List.countP_erase, if_neg fun he => hne (by simpa [eq_comm] using he.2), Nat.sub_zero]
      exact h.handles t ht
    · exact hdropped s hs hid
  · intro y hy
    obtain ⟨s, hs, hid⟩ := isLive_iff.1 (h.isLive y (List.mem_of_mem_erase hy))
    by_cases hxs : s.id = x.sandbox
    · -- Another handle of the same sandbox is held, so its count is not zero.
      refine isLive_iff.2 ⟨dropHandle s, hlive.2 (.inr ⟨s, hs, hxs, rfl, ?_⟩), hid⟩
      rw [hdropped s hs hxs]
      exact (List.countP_pos_iff.2 ⟨y, hy, by simpa using hid.symm⟩).ne'
    · exact isLive_iff.2 ⟨s, hlive.2 (.inl ⟨hs, hxs⟩), hid⟩

end

/-! ## Directories -/

/-- Every sandbox that is there has its directory, and no other sandbox has the same. -/
structure Housed (l : Ledger) : Prop where
  made : l.made.map Prod.fst = List.range l.recycler.nextId
  sublist : l.standing.Sublist l.made
  apart : (l.standing.map (·.2.components)).Nodup
  doomed : ∀ id ∈ l.doomed, id < l.recycler.nextId ∧ ¬ l.recycler.isLive id
  stands : ∀ id, l.recycler.isLive id → ∃ p, (id, p) ∈ l.standing

section
variable {l : Ledger} {r : Recycler} {s : Sandbox} {id : Nat} {directory : Except FileError Path}

theorem isLive_reserve (hs : r.current = some s) : (r.reserve s).2.isLive id ↔ r.isLive id := by
  have hlive := (live_reserve r s).map (·.id)
  have hids : (loaded s :: r.retired).map (·.id) = r.live.map (·.id) := by
    rw [live, hs]
    rfl
  rw [hids] at hlive
  simp only [isLive_iff, ← List.mem_map, hlive.mem_iff]

theorem isLive_opened (hs : r.current = none) : r.opened.isLive id ↔ r.isLive id ∨ id = r.nextId := by
  rw [isLive_iff, isLive_iff, live, live, hs]
  simp [opened, or_comm, eq_comm]

theorem isLive_of_release (h : (r.release id).isLive id') : r.isLive id' := by
  obtain ⟨s, hs, rfl⟩ := isLive_iff.1 h
  rw [live_release] at hs
  obtain ⟨t, ht, hid, -⟩ := mem_of_mem_releaseIn hs
  exact isLive_iff.2 ⟨t, ht, hid.symm⟩

/-- The ledger after a load in a sandbox of this recycler, for which there are these new directories. -/
def Ledger.load (l : Ledger) (r : Recycler) (s : Sandbox) (fresh : List (Nat × Path)) : Ledger :=
  { l with
    recycler := (r.reserve s).2
    given := l.given ++ [(r.reserve s).1]
    held := l.held ++ [(r.reserve s).1]
    made := l.made ++ fresh
    standing := l.standing ++ fresh }

theorem Ledger.place_ok {p : Path} (h : l.place directory = .ok p) : ∀ e ∈ l.standing, ¬ e.2.same p := by
  unfold place at h
  cases directory with
  | error e => cases h
  | ok q =>
    simp only [Except.bind] at h
    split at h
    · cases h
    · rename_i hfree
      obtain rfl := Except.ok.inj h
      simpa using hfree

theorem Ledger.acquire_cases (l : Ledger) (directory : Except FileError Path) :
    (∃ s, l.recycler.current = some s ∧ l.acquire directory = l.load l.recycler s []) ∨
    (∃ p, l.recycler.current = none ∧ (∀ e ∈ l.standing, ¬ e.2.same p) ∧
      l.acquire directory = l.load l.recycler.opened ⟨l.recycler.nextId, 0, 0⟩ [(l.recycler.nextId, p)]) ∨
    l.recycler.current = none ∧ l.acquire directory = l := by
  cases hs : l.recycler.current with
  | some s =>
    refine .inl ⟨s, rfl, ?_⟩
    simp only [acquire, acquire_current hs, hs, Option.isSome_some, if_true]
    rfl
  | none =>
    cases hp : l.place directory with
    | error e =>
      refine .inr (.inr ⟨rfl, ?_⟩)
      simp only [acquire, hp, Except.map, acquire_error hs]
    | ok p =>
      refine .inr (.inl ⟨p, rfl, place_ok hp, ?_⟩)
      simp only [acquire, hp, Except.map, acquire_fresh hs, hs, Option.isSome_none, handle_reserve, load]
      rfl

theorem Ledger.remove_keeps (l : Ledger) (id : Nat) : (l.remove id).recycler = l.recycler ∧
    (l.remove id).given = l.given ∧ (l.remove id).held = l.held := by
  unfold remove
  split <;> exact ⟨rfl, rfl, rfl⟩

/-! ### What directories do -/

theorem Housed.old (h : Housed l) {e : Nat × Path} (he : e ∈ l.made) : e.1 < l.recycler.nextId :=
  List.mem_range.1 (h.made ▸ List.mem_map_of_mem he)

theorem Housed.reserve (h : Housed l) (hs : l.recycler.current = some s) :
    Housed (l.load l.recycler s []) := by
  refine ⟨?_, ?_, ?_, ?_, ?_⟩
  · show (l.made ++ []).map Prod.fst = List.range (l.recycler.reserve s).2.nextId
    rw [nextId_reserve, List.append_nil]
    exact h.made
  · simpa [Ledger.load] using h.sublist
  · simpa [Ledger.load] using h.apart
  · intro id hid
    show id < (l.recycler.reserve s).2.nextId ∧ ¬ (l.recycler.reserve s).2.isLive id
    rw [nextId_reserve, isLive_reserve hs]
    exact h.doomed id hid
  · intro id hid
    obtain ⟨p, hp⟩ := h.stands id ((isLive_reserve hs).1 hid)
    exact ⟨p, List.mem_append_left _ hp⟩

theorem Housed.fresh {p : Path} (h : Housed l) (hs : l.recycler.current = none)
    (hp : ∀ e ∈ l.standing, ¬ e.2.same p) :
    Housed (l.load l.recycler.opened ⟨l.recycler.nextId, 0, 0⟩ [(l.recycler.nextId, p)]) := by
  have hnextId : (l.recycler.opened.reserve ⟨l.recycler.nextId, 0, 0⟩).2.nextId = l.recycler.nextId + 1 :=
    nextId_reserve ..
  have hlive : ∀ id, (l.recycler.opened.reserve ⟨l.recycler.nextId, 0, 0⟩).2.isLive id ↔
      l.recycler.isLive id ∨ id = l.recycler.nextId := by
    intro id
    rw [isLive_reserve rfl, isLive_opened hs]
  refine ⟨?_, h.sublist.append (.refl _), ?_, ?_, ?_⟩
  · show (l.made ++ [(l.recycler.nextId, p)]).map Prod.fst =
      List.range (l.recycler.opened.reserve ⟨l.recycler.nextId, 0, 0⟩).2.nextId
    rw [hnextId, List.map_append, h.made, List.range_succ]
    rfl
  · show ((l.standing ++ [(l.recycler.nextId, p)]).map (·.2.components)).Nodup
    rw [List.map_append]
    refine List.nodup_append_comm.1 (List.nodup_cons.2 ⟨fun hmem => ?_, h.apart⟩)
    obtain ⟨e, he, hsame⟩ := List.mem_map.1 hmem
    exact hp e he (beq_iff_eq.2 hsame)
  · intro id hid
    show id < (l.recycler.opened.reserve ⟨l.recycler.nextId, 0, 0⟩).2.nextId ∧
      ¬ (l.recycler.opened.reserve ⟨l.recycler.nextId, 0, 0⟩).2.isLive id
    obtain ⟨hold, hdead⟩ := h.doomed id hid
    rw [hnextId, hlive]
    exact ⟨Nat.lt_succ_of_lt hold, not_or.2 ⟨hdead, hold.ne⟩⟩
  · intro id hid
    rcases (hlive id).1 hid with hid | rfl
    · obtain ⟨q, hq⟩ := h.stands id hid
      exact ⟨q, List.mem_append_left _ hq⟩
    · exact ⟨p, List.mem_append_right _ (List.mem_singleton_self _)⟩

theorem Housed.release {x : SandboxHandle} (h : Housed l) (hx : l.recycler.isLive x.sandbox) :
    Housed (l.release x) := by
  unfold Ledger.release
  split
  · have hnextId := (release_keeps l.recycler x.sandbox).2.1
    refine ⟨?_, h.sublist, h.apart, ?_, fun id hid => h.stands id (isLive_of_release hid)⟩
    · dsimp only
      rw [hnextId]
      exact h.made
    · dsimp only
      rw [hnextId]
      intro id hid
      split at hid
      · obtain ⟨hold, hdead⟩ := h.doomed id hid
        exact ⟨hold, fun hlive => hdead (isLive_of_release hlive)⟩
      · rename_i hdead
        rcases List.mem_append.1 hid with hid | hid
        · obtain ⟨hold, hdead⟩ := h.doomed id hid
          exact ⟨hold, fun hlive => hdead (isLive_of_release hlive)⟩
        · obtain rfl := List.mem_singleton.1 hid
          obtain ⟨p, hp⟩ := h.stands _ hx
          exact ⟨h.old (h.sublist.mem hp), hdead⟩
  · exact h

theorem Housed.remove (h : Housed l) (id : Nat) : Housed (l.remove id) := by
  unfold Ledger.remove
  split
  · rename_i hid
    refine ⟨h.made, List.filter_sublist.trans h.sublist, h.apart.sublist (List.filter_sublist.map _),
      fun id' hid' => h.doomed id' (List.mem_of_mem_erase hid'), fun id' hid' => ?_⟩
    obtain ⟨p, hp⟩ := h.stands id' hid'
    refine ⟨p, List.mem_filter.2 ⟨hp, ?_⟩⟩
    have hne : id' ≠ id := by
      rintro rfl
      exact (h.doomed id' hid).2 hid'
    simpa using hne
  · exact h

end

/-! ## All along a run -/

structure Kept (bound : Nat) (l : Ledger) : Prop where
  formed : Formed bound l.recycler
  occupied : Occupied l.recycler
  counted : Counted bound l.recycler l.given l.held
  housed : Housed l

theorem kept_new (maxUses : Nat) : Kept (max maxUses 1) { recycler := .new maxUses } := by
  refine ⟨⟨by omega, rfl, rfl, .nil, nofun, nofun, nofun⟩, nofun,
    ⟨nofun, nofun, nofun, fun _ => Nat.zero_le _, nofun, .nil, .slnil, nofun⟩,
    ⟨rfl, .slnil, .nil, nofun, fun id hid => ?_⟩⟩
  cases hid

theorem Kept.step {bound : Nat} {l : Ledger} (h : Kept bound l) (a : Action) : Kept bound (l.step a) := by
  cases a with
  | acquire directory =>
    show Kept bound (l.acquire directory)
    rcases l.acquire_cases directory with ⟨s, hs, he⟩ | ⟨p, hs, hp, he⟩ | ⟨-, he⟩ <;> rw [he]
    · exact ⟨h.formed.reserve hs, .reserve (fun t ht => h.occupied t (mem_live.2 (.inr ht))) s,
        h.counted.reserve h.formed hs, h.housed.reserve hs⟩
    · exact ⟨(h.formed.opened hs).reserve rfl,
        Occupied.reserve (r := l.recycler.opened) (fun t ht => h.occupied t (mem_live.2 (.inr ht))) _,
        (h.counted.opened hs).reserve (h.formed.opened hs) rfl, h.housed.fresh hs hp⟩
    · exact h
  | release x =>
    show Kept bound (l.release x)
    by_cases hx : x ∈ l.held
    · refine ⟨?_, ?_, ?_, h.housed.release (h.counted.isLive x hx)⟩ <;> rw [Ledger.release, if_pos hx]
      · exact h.formed.release _
      · exact h.occupied.release h.formed _
      · exact h.counted.release h.formed hx
    · rw [Ledger.release, if_neg hx]
      exact h
  | remove id =>
    obtain ⟨hrecycler, hgiven, hheld⟩ := l.remove_keeps id
    refine ⟨?_, ?_, ?_, h.housed.remove id⟩ <;> rw [Ledger.step, hrecycler]
    · exact h.formed
    · exact h.occupied
    · rw [hgiven, hheld]
      exact h.counted

theorem kept_run (maxUses : Nat) (actions : List Action) : Kept (max maxUses 1) (run maxUses actions) := by
  unfold run
  induction actions using List.reverseRecOn with
  | nil => exact kept_new maxUses
  | append_singleton actions a ih =>
    rw [List.foldl_append]
    exact ih.step a

end Recycler

/-! ## Loads that do not meet -/

namespace SandboxHandle

theorem isName_fileName (h : SandboxHandle) : Path.IsName h.fileName.toList := by
  have hletters : h.fileName.toList = "module-".toList ++ (toString h.load).toList := by
    rw [fileName, String.toList_append]
  refine ⟨?_, ?_, ?_, ?_⟩ <;> rw [hletters]
  · simp
  · simp
  · simp
  · rw [List.mem_append, not_or]
    refine ⟨by decide, fun hmem => ?_⟩
    rw [Nat.toString_eq_ofList_toDigits, String.toList_ofList] at hmem
    have hdigit : Char.isDigit '/' := Nat.isDigit_of_mem_toDigits (by decide) (by decide) hmem
    exact absurd hdigit (by decide)

theorem fileName_inj {h h' : SandboxHandle} (he : h.fileName = h'.fileName) : h.load = h'.load :=
  Nat.repr_injective ((String.append_right_inj _).1 he)

/-- Loads of one sandbox have different targets, and so have loads in directories that are different. -/
theorem target_inj {ds : List (Nat × Path)} (hds : (ds.map (·.2.components)).Nodup) {h h' : SandboxHandle}
    {d d' : Path} (hd : (h.sandbox, d) ∈ ds) (hd' : (h'.sandbox, d') ∈ ds)
    (hsame : (h.target d).same (h'.target d')) : h = h' := by
  have hcomponents := beq_iff_eq.1 hsame
  rw [target, target, Path.components_join h.isName_fileName,
    Path.components_join h'.isName_fileName] at hcomponents
  obtain ⟨hdirectories, hnames⟩ := List.append_inj' hcomponents rfl
  have hload := fileName_inj (Path.Component.name.inj (List.singleton_inj.1 hnames))
  obtain ⟨hsandbox, -⟩ := Prod.mk.inj (List.inj_on_of_nodup_map hds hd hd' hdirectories)
  cases h
  cases h'
  exact congrArg₂ SandboxHandle.mk hsandbox hload

end SandboxHandle

namespace Recycler

/-- What a recycler promises at any time. -/
structure Safe (maxUses : Nat) (l : Ledger) : Prop where
  loads : ∀ id, l.given.countP (·.sandbox = id) ≤ max maxUses 1
  distinct : (l.given.map fun h => (h.sandbox, h.load)).Nodup
  /-- Each sandbox that was made had a directory of its own made for it. -/
  directory : ∀ h ∈ l.given, ∃! d, (h.sandbox, d) ∈ l.made
  /-- Loads that are there at the same time are in different places. -/
  targets : ∀ h ∈ l.given, ∀ h' ∈ l.given, ∀ d d', (h.sandbox, d) ∈ l.standing →
    (h'.sandbox, d') ∈ l.standing → (h.target d).same (h'.target d') → h = h'
  /-- No place is ever used twice, unless a directory is made where one was removed. -/
  targetsEver : (l.made.map (·.2.components)).Nodup → ∀ h ∈ l.given, ∀ h' ∈ l.given, ∀ d d',
    (h.sandbox, d) ∈ l.made → (h'.sandbox, d') ∈ l.made → (h.target d).same (h'.target d') → h = h'
  isLive_iff : ∀ id, l.recycler.isLive id ↔ ∃ h ∈ l.held, h.sandbox = id
  handles : ∀ s ∈ l.recycler.live, s.handles = l.held.countP (·.sandbox = s.id)
  uses : ∀ s ∈ l.recycler.live, s.uses = l.given.countP (·.sandbox = s.id)
  stands : ∀ h ∈ l.held, ∀ d, (h.sandbox, d) ∈ l.made → (h.sandbox, d) ∈ l.standing
  liveCount : l.recycler.liveCount = (l.held.map (·.sandbox)).dedup.length
  room : ∀ s, l.recycler.current = some s → s.uses < max maxUses 1
  full : ∀ s ∈ l.recycler.retired, s.uses = max maxUses 1
  created : l.recycler.created = l.recycler.nextId
  unchanged : ∀ directory e, (l.recycler.acquire directory).1 = .error e →
    (l.recycler.acquire directory).2 = l.recycler

theorem Kept.isLive_iff {bound : Nat} {l : Ledger} (h : Kept bound l) (id : Nat) :
    l.recycler.isLive id ↔ ∃ x ∈ l.held, x.sandbox = id := by
  constructor
  · intro hid
    obtain ⟨s, hs, rfl⟩ := Recycler.isLive_iff.1 hid
    have hpos := Nat.pos_of_ne_zero (h.occupied s hs)
    rw [h.counted.handles s hs] at hpos
    obtain ⟨x, hx, he⟩ := List.countP_pos_iff.1 hpos
    exact ⟨x, hx, by simpa using he⟩
  · rintro ⟨x, hx, rfl⟩
    exact h.counted.isLive x hx

theorem Housed.directory_inj {l : Ledger} (h : Housed l) {id : Nat} {d d' : Path} (hd : (id, d) ∈ l.made)
    (hd' : (id, d') ∈ l.made) : d = d' := by
  have hids : (l.made.map Prod.fst).Nodup := h.made ▸ List.nodup_range
  exact (Prod.mk.inj (List.inj_on_of_nodup_map hids hd hd' rfl)).2

theorem Kept.safe {maxUses : Nat} {l : Ledger} (h : Kept (max maxUses 1) l) : Safe maxUses l := by
  refine ⟨h.counted.countP_le, ?_, ?_, ?_, ?_, h.isLive_iff, h.counted.handles, h.counted.uses, ?_, ?_,
    h.formed.room, h.formed.full, h.formed.created, ?_⟩
  · refine h.counted.nodup.map ?_
    rintro ⟨i, n⟩ ⟨j, m⟩ he
    obtain ⟨rfl, rfl⟩ := Prod.mk.inj he
    rfl
  · intro x hx
    have hid : x.sandbox ∈ l.made.map Prod.fst := h.housed.made ▸ List.mem_range.2 (h.counted.old x hx)
    obtain ⟨⟨_, d⟩, hd, rfl⟩ := List.mem_map.1 hid
    exact ⟨d, hd, fun d' hd' => h.housed.directory_inj hd' hd⟩
  · exact fun x _ y _ d d' hd hd' => SandboxHandle.target_inj h.housed.apart hd hd'
  · exact fun hmade x _ y _ d d' hd hd' => SandboxHandle.target_inj hmade hd hd'
  · intro x hx d hd
    obtain ⟨d', hd'⟩ := h.housed.stands _ (h.counted.isLive x hx)
    rwa [h.housed.directory_inj hd (h.housed.sublist.mem hd')]
  · -- Sandboxes have different ids, so those that are there stand for the ids that are held.
    have hperm : (l.recycler.live.map (·.id)).Perm (l.held.map (·.sandbox)).dedup := by
      refine (List.perm_ext_iff_of_nodup h.formed.ids (List.nodup_dedup _)).2 fun id => ?_
      rw [List.mem_dedup, List.mem_map, List.mem_map, ← h.isLive_iff, Recycler.isLive_iff]
    rw [liveCount, ← hperm.length_eq, List.length_map]
  · intro directory e he
    cases hs : l.recycler.current with
    | some s =>
      rw [acquire_current hs] at he
      cases he
    | none =>
      cases directory with
      | error e' => rw [acquire_error hs]
      | ok _ =>
        rw [acquire_fresh hs] at he
        cases he

/-- **Recycling is safe.** However loads, releases and removals follow each other, sandboxes are there for
the handles that are held and for these only, and loads do not meet. -/
theorem recycling_safe (maxUses : Nat) (actions : List Action) : Safe maxUses (run maxUses actions) :=
  (kept_run maxUses actions).safe

end Recycler

end Templating
