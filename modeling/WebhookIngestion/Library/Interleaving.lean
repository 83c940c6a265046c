import Mathlib.Logic.Function.Basic
import Mathlib.Logic.Relation

/-! # Interleaved sessions

Sessions with local states `L`, one for each name in `ι`, move in turn over a shared
state `G`.  A move may have to wait for other sessions: `step g l waits g' l'` takes
`l` to `l'` provided no other session is in a state that `waits` names.

The rule for invariants (`Invariant.reachable`) is that of Owicki and Gries.  A move keeps what
holds of the shared state (`good`) and of the session itself (`own`), and interferes
neither with what holds of another session nor with what holds between two (`apart`). -/
namespace Interleaving

variable {G L ι : Type}

/-- The moves of one session. -/
abbrev Moves (G L : Type) := G → L → (L → Prop) → G → L → Prop

/-- One session moves; the others do not hinder it. -/
inductive Step [DecidableEq ι] (moves : Moves G L) : G × (ι → L) → G × (ι → L) → Prop
  | move {g g' : G} {ls : ι → L} {t : ι} {l' : L} {waits : L → Prop}
      (moved : moves g (ls t) waits g' l') (free : ∀ t', t' ≠ t → ¬ waits (ls t')) :
      Step moves (g, ls) (g', Function.update ls t l')

/-- An invariant, by its parts. -/
structure Invariant (G L : Type) where
  good : G → Prop
  own : G → L → Prop
  apart : L → L → Prop

/-- The invariant holds of the shared state, every session, and every two of them. -/
structure Invariant.Holds (I : Invariant G L) (s : G × (ι → L)) : Prop where
  good : I.good s.1
  own : ∀ t, I.own s.1 (s.2 t)
  apart : ∀ t t', t ≠ t' → I.apart (s.2 t) (s.2 t')

/-- What a move owes the invariant. -/
structure Invariant.Kept (I : Invariant G L) (moves : Moves G L) : Prop where
  apart_symm : ∀ l m, I.apart l m → I.apart m l
  own : ∀ g l waits g' l', I.good g → I.own g l → moves g l waits g' l' → I.good g' ∧ I.own g' l'
  other : ∀ g l waits g' l' m, I.good g → I.own g l → I.own g m → I.apart l m →
    moves g l waits g' l' → ¬ waits m → I.own g' m ∧ I.apart l' m

section Rule
variable [DecidableEq ι] {I : Invariant G L} {moves : Moves G L}

theorem Invariant.Kept.step (hI : I.Kept moves) {s s' : G × (ι → L)} (hs : I.Holds s)
    (h : Step moves s s') : I.Holds s' := by
  cases h with
  | @move g g' ls t l' waits hmove free =>
    obtain ⟨hgood, hself⟩ := hI.own g (ls t) waits g' l' hs.good (hs.own t) hmove
    have hother : ∀ t', t' ≠ t → I.own g' (ls t') ∧ I.apart l' (ls t') := fun t' hne =>
      hI.other g (ls t) waits g' l' (ls t') hs.good (hs.own t) (hs.own t') (hs.apart t t' hne.symm)
        hmove (free t' hne)
    refine ⟨hgood, fun t' => ?_, fun t₁ t₂ hne => ?_⟩
    · by_cases h' : t' = t
      · subst h'
        simpa using hself
      · simpa [Function.update_of_ne h'] using (hother t' h').1
    · by_cases h₁ : t₁ = t
      · subst h₁
        simpa [Function.update_of_ne hne.symm] using (hother t₂ hne.symm).2
      · by_cases h₂ : t₂ = t
        · subst h₂
          simpa [Function.update_of_ne h₁] using hI.apart_symm _ _ (hother t₁ h₁).2
        · simpa [Function.update_of_ne h₁, Function.update_of_ne h₂] using hs.apart t₁ t₂ hne

/-- **An invariant that every move keeps holds in every reachable state.** -/
theorem Invariant.Kept.reachable (hI : I.Kept moves) {s s' : G × (ι → L)} (hs : I.Holds s)
    (h : Relation.ReflTransGen (Step moves) s s') : I.Holds s' := by
  induction h with
  | refl => exact hs
  | tail _ hstep ih => exact hI.step ih hstep

end Rule

end Interleaving
