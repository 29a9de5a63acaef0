/-!
# Dictionaries

Maps from text to text, as lists sorted by key without repeats, so two dictionaries with the same
entries are equal.
-/

namespace Templating

theorem Dictionary.sorted_nil : ([] : List (String × String)).Pairwise (·.1 < ·.1) := .nil

structure Dictionary where
  entries : List (String × String) := []
  sorted : entries.Pairwise (·.1 < ·.1) := by exact Dictionary.sorted_nil

namespace Dictionary

instance : Inhabited Dictionary := ⟨{}⟩

theorem ext_entries {a b : Dictionary} (h : a.entries = b.entries) : a = b := by
  cases a; cases b; cases h; rfl

instance : DecidableEq Dictionary := fun a b =>
  if h : a.entries = b.entries then isTrue (ext_entries h) else isFalse fun e => h (by rw [e])

/-- The entries with the value of `k` set, in key order. -/
def insertInto (k v : String) : List (String × String) → List (String × String)
  | [] => [(k, v)]
  | e :: r =>
    if k < e.1 then (k, v) :: e :: r
    else if e.1 < k then e :: insertInto k v r
    else (k, v) :: r

theorem mem_insertInto {k v : String} {x : String × String} {l : List (String × String)}
    (h : x ∈ insertInto k v l) : x = (k, v) ∨ x ∈ l := by
  induction l with
  | nil => simpa [insertInto] using h
  | cons e r ih =>
    unfold insertInto at h
    split at h
    · simpa using h
    · split at h
      · rcases List.mem_cons.1 h with h | h
        · exact .inr (by simp [h])
        · rcases ih h with h | h
          · exact .inl h
          · exact .inr (List.mem_cons_of_mem _ h)
      · rcases List.mem_cons.1 h with h | h
        · exact .inl h
        · exact .inr (List.mem_cons_of_mem _ h)

theorem pairwise_insertInto (k v : String) {l : List (String × String)}
    (hl : l.Pairwise (·.1 < ·.1)) : (insertInto k v l).Pairwise (·.1 < ·.1) := by
  induction l with
  | nil => simp [insertInto]
  | cons e r ih =>
    obtain ⟨he, hr⟩ := List.pairwise_cons.1 hl
    unfold insertInto
    split
    · next hk =>
      refine List.pairwise_cons.2 ⟨fun x hx => ?_, hl⟩
      rcases List.mem_cons.1 hx with rfl | hx
      · exact hk
      · exact String.lt_trans hk (he x hx)
    · next hk =>
      split
      · next hek =>
        refine List.pairwise_cons.2 ⟨fun x hx => ?_, ih hr⟩
        rcases mem_insertInto hx with rfl | hx
        · exact hek
        · exact he x hx
      · next hek =>
        have heq : e.1 = k := String.le_antisymm (String.not_lt.1 hk) (String.not_lt.1 hek)
        exact List.pairwise_cons.2 ⟨fun x hx => heq ▸ he x hx, hr⟩

def insert (d : Dictionary) (k v : String) : Dictionary :=
  ⟨insertInto k v d.entries, pairwise_insertInto k v d.sorted⟩

def get? (d : Dictionary) (k : String) : Option String :=
  (d.entries.find? (·.1 == k)).map (·.2)

theorem find?_insertInto (k v : String) (l : List (String × String)) :
    (insertInto k v l).find? (·.1 == k) = some (k, v) := by
  induction l with
  | nil => simp [insertInto]
  | cons e r ih =>
    unfold insertInto
    split
    · simp
    · split
      · next hek =>
        have hne : e.1 ≠ k := fun h => String.lt_irrefl k (h ▸ hek)
        simpa [hne] using ih
      · simp

theorem get?_insert (d : Dictionary) (k v : String) : (d.insert k v).get? k = some v := by
  rw [get?, insert, find?_insertInto]
  rfl

/-- Later pairs win over earlier ones of the same key. -/
def ofList (l : List (String × String)) : Dictionary :=
  l.foldl (fun d e => d.insert e.1 e.2) {}

end Dictionary

end Templating
