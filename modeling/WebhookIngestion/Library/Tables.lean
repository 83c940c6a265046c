import Mathlib.Data.List.AList

/-! # Keyed tables

A table with a unique key is an association list without repeated keys
(`AList`), so no table with two rows under one key can be built.  `INSERT` adds a
row under a fresh key and an upsert may replace the row under a key; both are
`AList.insert`.  `UPDATE` is `updateRows`.  A table whose key is a pair is read one first component at a
time: `fiber t a` is the list of the rows under `a`, latest insertion first. -/
namespace Tables

/-- A table with unique key `κ` and rows `ρ`. -/
abbrev Table (κ ρ : Type) := AList (fun _ : κ => ρ)

section Lookup
variable {κ ρ : Type} [DecidableEq κ]

theorem lookup_insert_eq (t : Table κ ρ) (k k' : κ) (r : ρ) :
    (t.insert k r).lookup k' = if k' = k then some r else t.lookup k' := by
  by_cases h : k' = k
  · subst h
    rw [AList.lookup_insert, if_pos rfl]
  · rw [AList.lookup_insert_ne h, if_neg h]

theorem notMem_of_lookup {t : Table κ ρ} {k : κ} (h : t.lookup k = none) : k ∉ t :=
  AList.lookup_eq_none.mp h

/-- An inserted row is never lost by inserting another one. -/
theorem isSome_lookup_insert {t : Table κ ρ} {k k' : κ} {r : ρ} (h : (t.lookup k').isSome) :
    ((t.insert k r).lookup k').isSome := by
  rw [lookup_insert_eq]
  split
  · rfl
  · exact h

/-- A row is in the table exactly when looking its key up finds it. -/
theorem mem_entries_iff {t : Table κ ρ} {k : κ} {r : ρ} :
    (⟨k, r⟩ : Sigma fun _ : κ => ρ) ∈ t.entries ↔ t.lookup k = some r :=
  AList.mem_lookup_iff.symm

/-- `UPDATE`: every row replaced by what `f` makes of it. -/
def updateRows (f : κ → ρ → ρ) (t : Table κ ρ) : Table κ ρ :=
  ⟨t.entries.map fun e => ⟨e.1, f e.1 e.2⟩, by
    rw [List.NodupKeys, List.keys, List.map_map]
    exact t.nodupKeys⟩

omit [DecidableEq κ] in
theorem length_updateRows (f : κ → ρ → ρ) (t : Table κ ρ) : (updateRows f t).entries.length = t.entries.length :=
  List.length_map _

/-- An insert adds a row, or replaces one. -/
theorem length_insert_le (t : Table κ ρ) (k : κ) (r : ρ) :
    (t.insert k r).entries.length ≤ t.entries.length + 1 := by
  rw [AList.entries_insert, List.length_cons]
  exact Nat.succ_le_succ (List.kerase_sublist k t.entries).length_le

@[simp] theorem lookup_updateRows (f : κ → ρ → ρ) (t : Table κ ρ) (k : κ) :
    (updateRows f t).lookup k = (t.lookup k).map (f k) := List.dlookup_map₂ k

end Lookup

section Fiber
variable {κ μ ρ : Type} [DecidableEq κ] [DecidableEq μ]

/-- The rows whose key starts with `a`, latest insertion first. -/
def fiber (t : Table (κ × μ) ρ) (a : κ) : List (μ × ρ) :=
  t.entries.filterMap fun e => if e.1.1 = a then some (e.1.2, e.2) else none

theorem mem_fiber {t : Table (κ × μ) ρ} {a : κ} {k : μ} {r : ρ} :
    (k, r) ∈ fiber t a ↔ t.lookup (a, k) = some r := by
  rw [← mem_entries_iff, fiber, List.mem_filterMap]
  constructor
  · rintro ⟨⟨⟨a', k'⟩, r'⟩, hmem, he⟩
    by_cases ha : a' = a
    · subst ha
      simp only [ite_true, Option.some.injEq, Prod.mk.injEq] at he
      obtain ⟨rfl, rfl⟩ := he
      exact hmem
    · simp [ha] at he
  · intro h
    exact ⟨_, h, by simp⟩

theorem mem_fiber_keys {t : Table (κ × μ) ρ} {a : κ} {k : μ} :
    k ∈ (fiber t a).map Prod.fst ↔ (a, k) ∈ t := by
  rw [← AList.lookup_isSome, Option.isSome_iff_exists, List.mem_map]
  constructor
  · rintro ⟨⟨k', r⟩, hm, rfl⟩
    exact ⟨r, mem_fiber.mp hm⟩
  · rintro ⟨r, hr⟩
    exact ⟨(k, r), mem_fiber.mpr hr, rfl⟩

/-- Inserting under a fresh key adds one row in front of its fiber. -/
theorem fiber_insert_self {t : Table (κ × μ) ρ} {a : κ} {k : μ} {r : ρ} (h : (a, k) ∉ t) :
    fiber (t.insert (a, k) r) a = (k, r) :: fiber t a := by
  rw [fiber, AList.entries_insert_of_notMem h, List.filterMap_cons]
  simp [fiber]

omit [DecidableEq μ] in
/-- Erasing a row that a filter drops anyway changes nothing. -/
theorem filterMap_kerase {β : Type} {f : (Sigma fun _ : κ => ρ) → Option β} {k : κ}
    (hf : ∀ r, f ⟨k, r⟩ = none) (l : List (Sigma fun _ : κ => ρ)) :
    (l.kerase k).filterMap f = l.filterMap f := by
  induction l with
  | nil => rfl
  | cons e l ih =>
    obtain ⟨k', r⟩ := e
    by_cases h : k = k'
    · subst h
      rw [List.kerase_cons_eq (show k = (⟨k, r⟩ : Sigma fun _ : κ => ρ).1 from rfl),
        List.filterMap_cons_none (hf r)]
    · rw [List.kerase_cons_ne h, List.filterMap_cons, List.filterMap_cons, ih]

/-- Inserting under another first component leaves a fiber alone. -/
theorem fiber_insert_of_ne (t : Table (κ × μ) ρ) {a b : κ} (k : μ) (r : ρ) (hne : b ≠ a) :
    fiber (t.insert (b, k) r) a = fiber t a := by
  have hdrop : ∀ r : ρ, (fun e : Sigma fun _ : κ × μ => ρ =>
      if e.1.1 = a then some (e.1.2, e.2) else none) ⟨(b, k), r⟩ = none := fun _ => if_neg hne
  rw [fiber, AList.entries_insert, List.filterMap_cons]
  simp only [if_neg hne]
  exact filterMap_kerase hdrop _

omit [DecidableEq μ] in
@[simp] theorem fiber_empty (a : κ) : fiber (∅ : Table (κ × μ) ρ) a = [] := rfl

/-- A fiber is empty when no key starts with its first component. -/
theorem fiber_eq_nil {t : Table (κ × μ) ρ} {a : κ} (h : ∀ k, t.lookup (a, k) = none) :
    fiber t a = [] := by
  rw [List.eq_nil_iff_forall_not_mem]
  rintro ⟨k, r⟩ hm
  rw [mem_fiber, h k] at hm
  cases hm

theorem fiber_ne_nil_iff {t : Table (κ × μ) ρ} {a : κ} :
    fiber t a ≠ [] ↔ ∃ k, (t.lookup (a, k)).isSome := by
  constructor
  · intro h
    by_contra hnone
    exact h (fiber_eq_nil fun k => Option.not_isSome_iff_eq_none.mp fun hk => hnone ⟨k, hk⟩)
  · rintro ⟨k, hk⟩
    obtain ⟨r, hr⟩ := Option.isSome_iff_exists.mp hk
    exact List.ne_nil_of_mem (mem_fiber.mpr hr)

end Fiber

end Tables
