import Mathlib.Data.List.Sort

/-! # The first of the least

A stable sort keeps the order of what its key does not tell apart.  So what it puts in front is
the first of the least elements of the list: what stands before that one is greater, and nothing
behind it is less. -/
namespace Choices
variable {α β : Type*}

/-- The first of the least elements of a list. -/
def FirstLeast (le : α → α → Bool) (l : List α) (a : α) : Prop :=
  ∃ before after, l = before ++ a :: after ∧ (∀ b ∈ before, le b a = false) ∧ ∀ b ∈ after, le a b = true

namespace FirstLeast
variable {le : α → α → Bool} {l : List α} {a a' : α}

theorem mem (h : FirstLeast le l a) : a ∈ l := by
  obtain ⟨before, after, rfl, -, -⟩ := h
  exact List.mem_append_right _ List.mem_cons_self

/-- There is only one. -/
theorem unique (h : FirstLeast le l a) (h' : FirstLeast le l a') : a = a' := by
  obtain ⟨before, after, rfl, hbefore, hafter⟩ := h
  obtain ⟨before', after', heq, hbefore', hafter'⟩ := h'
  rcases List.append_eq_append_iff.mp heq with ⟨mid, rfl, hmid⟩ | ⟨mid, rfl, hmid⟩
  · cases mid with
    | nil => exact (List.cons.inj hmid).1
    | cons b mid =>
      -- the first stands before the second
      obtain ⟨rfl, rfl⟩ := List.cons.inj hmid
      have hless := hafter a' (by simp)
      rw [hbefore' a (by simp)] at hless
      cases hless
  · cases mid with
    | nil => exact (List.cons.inj hmid).1.symm
    | cons b mid =>
      obtain ⟨rfl, rfl⟩ := List.cons.inj hmid
      have hless := hafter' a (by simp)
      rw [hbefore a' (by simp)] at hless
      cases hless

/-- The first of the least among what a list is mapped to. -/
theorem map_iff {le : β → β → Bool} {f : α → β} {b : β} :
    FirstLeast le (l.map f) b ↔ ∃ a, FirstLeast (fun x y => le (f x) (f y)) l a ∧ b = f a := by
  constructor
  · rintro ⟨before, after, heq, hbefore, hafter⟩
    obtain ⟨before', rest, rfl, rfl, hrest⟩ := List.map_eq_append_iff.mp heq
    obtain ⟨a, after', rfl, rfl, rfl⟩ := List.map_eq_cons_iff.mp hrest
    exact ⟨a, ⟨before', after', rfl, fun x hx => hbefore _ (List.mem_map_of_mem hx),
      fun x hx => hafter _ (List.mem_map_of_mem hx)⟩, rfl⟩
  · rintro ⟨a, ⟨before, after, rfl, hbefore, hafter⟩, rfl⟩
    refine ⟨before.map f, after.map f, by simp, ?_, ?_⟩
    · simpa using hbefore
    · simpa using hafter

/-- Where nothing tells the elements apart, the first of them. -/
theorem true_iff : FirstLeast (fun _ _ => true) l a ↔ l.head? = some a := by
  constructor
  · rintro ⟨before, after, rfl, hbefore, -⟩
    cases before with
    | nil => rfl
    | cons b before => cases hbefore b List.mem_cons_self
  · intro h
    obtain ⟨after, rfl⟩ := List.head?_eq_some_iff.mp h
    exact ⟨[], after, rfl, by simp, by simp⟩

end FirstLeast

section Sorted
variable {le : α → α → Bool} (htotal : ∀ a b, le a b = true ∨ le b a = true)
  (htrans : ∀ a b c, le a b = true → le b c = true → le a c = true)
include htotal htrans

theorem firstLeast_of_sort {l : List α} {a : α} (h : (l.insertionSort fun a b => le a b = true).head? = some a) :
    FirstLeast le l a := by
  induction l generalizing a with
  | nil => cases h
  | cons b l ih =>
    rw [List.insertionSort_cons] at h
    cases hsort : l.insertionSort (fun a b => le a b = true) with
    | nil =>
      have hnil : l = [] := by
        have hperm := List.perm_insertionSort (fun a b => le a b = true) l
        rw [hsort] at hperm
        exact hperm.nil_eq.symm
      subst hnil
      cases h
      exact ⟨[], [], rfl, by simp, by simp⟩
    | cons c rest =>
      obtain ⟨before, after, rfl, hbefore, hafter⟩ := ih (by rw [hsort]; rfl)
      rw [hsort, List.orderedInsert] at h
      split at h
      · next hle =>
        cases h
        -- what is not before `c` is not before what is before `c`
        refine ⟨[], before ++ c :: after, rfl, by simp, fun x hx => ?_⟩
        rcases List.mem_append.mp hx with hx | hx
        · refine htrans _ _ _ hle ((htotal c x).resolve_right ?_)
          simp [hbefore x hx]
        · rcases List.mem_cons.mp hx with rfl | hx
          · exact hle
          · exact htrans _ _ _ hle (hafter x hx)
      · next hle =>
        cases h
        refine ⟨b :: before, after, rfl, fun x hx => ?_, hafter⟩
        rcases List.mem_cons.mp hx with rfl | hx
        · simpa using hle
        · exact hbefore x hx

/-- **What a stable sort puts in front** is the first of the least. -/
theorem head?_insertionSort_eq_some {l : List α} {a : α} :
    (l.insertionSort fun a b => le a b = true).head? = some a ↔ FirstLeast le l a := by
  refine ⟨firstLeast_of_sort htotal htrans, fun h => ?_⟩
  cases hsort : (l.insertionSort fun a b => le a b = true).head? with
  | none =>
    have hperm := List.perm_insertionSort (fun a b => le a b = true) l
    rw [List.head?_eq_none_iff.mp hsort] at hperm
    rw [hperm.nil_eq.symm] at h
    cases h.mem
  | some a' => rw [(firstLeast_of_sort htotal htrans hsort).unique h]

end Sorted

end Choices
