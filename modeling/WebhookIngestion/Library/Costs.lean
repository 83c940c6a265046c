import Mathlib.Algebra.Order.BigOperators.Group.Finset
import Mathlib.Data.Set.Card
import WebhookIngestion.Library.Concurrent

/-! # What programs cost

Operations have a weight, and a program costs what its operations weigh together, at most and
whatever they answer.  A measure of the shared state that rises by no more than the weight of
what is performed is then bounded, in every reachable configuration, by what the started tasks
cost (`System.measure_le`). -/
namespace Programs

variable {ε Op α β : Type} {Res : Op → Type}
variable {M : Type} [AddCommMonoid M] [PartialOrder M]

namespace Program

/-- Whatever they answer, the operations of the program weigh no more than `n` together. -/
def Costs (weight : Op → M) : Program ε Op Res α → M → Prop
  | .ret _, _ => True
  | .raise _, _ => True
  | .op o next, n => ∃ m, weight o + m ≤ n ∧ ∀ r, (next r).Costs weight m

namespace Costs
variable {weight : Op → M} {p : Program ε Op Res α} {n m k : M}

theorem ret (a : α) : Costs weight (ret a : Program ε Op Res α) n := trivial

theorem raise (e : ε) : Costs weight (raise e : Program ε Op Res α) n := trivial

theorem ofExcept (x : Except ε α) : Costs weight (ofExcept x : Program ε Op Res α) n := by
  cases x <;> trivial

theorem mono (hp : Costs weight p n) (h : n ≤ k) : Costs weight p k := by
  cases p with
  | ret a => trivial
  | raise e => trivial
  | op o next =>
    obtain ⟨m, hle, hnext⟩ := hp
    exact ⟨m, hle.trans h, hnext⟩

theorem perform {o : Op} (h : weight o ≤ n) : Costs weight (perform o : Program ε Op Res (Res o)) n := by
  refine ⟨0, ?_, fun r => by cases r <;> trivial⟩
  rw [add_zero]
  exact h

/-- What is free costs nothing more. -/
theorem of_every (hp : p.Every fun o => weight o = 0) : Costs weight p n := by
  induction p generalizing n with
  | ret a => trivial
  | raise e => trivial
  | op o next ih =>
    refine ⟨n, ?_, fun r => ih r (hp.2 r)⟩
    rw [hp.1, zero_add]

/-- What is done after something free may cost as much as both. -/
theorem free {f : α → Program ε Op Res β} (hp : p.Every fun o => weight o = 0)
    (hf : ∀ a, Costs weight (f a) n) : Costs weight (p >>= f) n := by
  induction p with
  | ret a => exact hf a
  | raise e => trivial
  | op o next ih =>
    refine ⟨n, ?_, fun r => ih r (hp.2 r)⟩
    rw [hp.1, zero_add]

section Ordered
variable [IsOrderedAddMonoid M]

/-- **The rule of sequencing**: costs are added. -/
theorem bind [CanonicallyOrderedAdd M] {f : α → Program ε Op Res β} (hp : Costs weight p n)
    (hf : ∀ a, Costs weight (f a) m) : Costs weight (p >>= f) (n + m) := by
  induction p generalizing n with
  | ret a => exact (hf a).mono le_add_self
  | raise e => trivial
  | op o next ih =>
    obtain ⟨k, hle, hnext⟩ := hp
    refine ⟨k + m, ?_, fun r => ih r (hnext r)⟩
    rw [← add_assoc]
    exact add_le_add_left hle m

/-- A handler may cost as much as it costs after the program. -/
theorem tryCatch [CanonicallyOrderedAdd M] {handler : ε → Program ε Op Res α} (hp : Costs weight p n)
    (hh : ∀ e, Costs weight (handler e) m) : Costs weight (p.tryCatch handler) (n + m) := by
  induction p generalizing n with
  | ret a => trivial
  | raise e => exact (hh e).mono le_add_self
  | op o next ih =>
    obtain ⟨k, hle, hnext⟩ := hp
    refine ⟨k + m, ?_, fun r => ih r (hnext r)⟩
    rw [← add_assoc]
    exact add_le_add_left hle m

/-- What comes after costs nothing. -/
theorem thenFree [CanonicallyOrderedAdd M] {f : α → Program ε Op Res β} (hp : Costs weight p n)
    (hf : ∀ a, (f a).Every fun o => weight o = 0) : Costs weight (p >>= f) n := by
  rw [← add_zero n]
  exact hp.bind fun a => of_every (hf a)

theorem map [CanonicallyOrderedAdd M] {f : α → β} (hp : Costs weight p n) : Costs weight (f <$> p) n :=
  hp.thenFree fun a => .ret (f a)

end Ordered

/-- One part of what a program costs. -/
theorem part {N : Type} [AddCommMonoid N] [PartialOrder N] (f : M →+ N) (hf : Monotone f) (hp : Costs weight p n) :
    Costs (fun o => f (weight o)) p (f n) := by
  induction p generalizing n with
  | ret a => trivial
  | raise e => trivial
  | op o next ih =>
    obtain ⟨k, hle, hnext⟩ := hp
    refine ⟨f k, ?_, fun r => ih r (hnext r)⟩
    rw [← map_add]
    exact hf hle

end Costs

end Program

/-! ### The costs of a configuration -/

variable {σ ι κ : Type}

/-- How many tasks were started for jobs of a kind. -/
noncomputable def Config.count (kind : κ → Prop) (c : Config σ ι κ ε Op Res α) : ℕ :=
  {i | ∃ task, c.tasks i = some task ∧ kind task.job}.ncard

namespace System
variable [DecidableEq ι] {S : System σ κ ε Op Res α} {C : Op → σ → Prop} {c c' : Config σ ι κ ε Op Res α}
variable [IsOrderedAddMonoid M] {measure : σ → M} {weight : Op → M} {price : κ → M}

/-- **The books of a configuration**: what each task has spent, within its price and with
enough left for what it may still do, and a measure that has risen by no more than that. -/
structure Accounted (measure : σ → M) (weight : Op → M) (price : κ → M) (start : M)
    (c : Config σ ι κ ε Op Res α) (started : Finset ι) (spent : ι → M) : Prop where
  tasks : ∀ i, i ∈ started ↔ (c.tasks i).isSome
  within : ∀ i task, c.tasks i = some task →
    ∃ left, spent i + left ≤ price task.job ∧ task.program.Costs weight left
  risen : measure c.state ≤ start + ∑ i ∈ started, spent i

omit [IsOrderedAddMonoid M] [DecidableEq ι] in
theorem accounted_idle (s : σ) : Accounted measure weight price (measure s)
    (.idle s : Config σ ι κ ε Op Res α) ∅ fun _ => 0 where
  tasks i := by simp [Config.idle]
  within i task htask := by cases htask
  risen := by
    rw [Finset.sum_empty, add_zero]
    exact le_rfl

/-- **A step keeps the books.** -/
theorem Accounted.step {start : M} {started : Finset ι} {spent : ι → M}
    (hrise : ∀ o s r s', S.Answers o s r s' → measure s' ≤ measure s + weight o)
    (houtside : ∀ s s', S.outside s s' → measure s' ≤ measure s)
    (hcosts : ∀ k, (S.program k).Costs weight (price k))
    (h : Accounted measure weight price start c started spent) (hstep : S.Step C c c') :
    ∃ started' spent', Accounted measure weight price start c' started' spent' := by
  cases hstep with
  | @start i k hfree =>
    have hout : i ∉ started := by
      rw [h.tasks, hfree]
      exact Bool.false_ne_true
    refine ⟨insert i started, Function.update spent i 0, fun j => ?_, fun j task htask => ?_, ?_⟩
    · by_cases hj : j = i
      · subst hj
        simp [Config.tasks_put_self]
      · rw [Finset.mem_insert, Config.tasks_put_of_ne hj, h.tasks]
        exact or_iff_right hj
    · rcases Config.tasks_put htask with ⟨rfl, rfl⟩ | ⟨hj, hold⟩
      · refine ⟨price k, ?_, hcosts k⟩
        rw [Function.update_self, zero_add]
      · rw [Function.update_of_ne hj]
        exact h.within j task hold
    · rw [Finset.sum_insert hout, Function.update_self, zero_add, Finset.sum_update_of_notMem hout]
      exact h.risen
  | @perform i k history o next r s htask hallowed hanswers =>
    have hin : i ∈ started := by
      rw [h.tasks, htask]
      rfl
    obtain ⟨left, hle, m, hm, hnext⟩ := h.within i _ htask
    refine ⟨started, Function.update spent i (spent i + weight o), fun j => ?_, fun j task htask' => ?_, ?_⟩
    · by_cases hj : j = i
      · subst hj
        simp [Config.tasks_put_self, hin]
      · rw [Config.tasks_put_of_ne hj, h.tasks]
    · rcases Config.tasks_put htask' with ⟨rfl, rfl⟩ | ⟨hj, hold⟩
      · refine ⟨m, ?_, hnext r⟩
        rw [Function.update_self, add_assoc]
        exact (add_le_add_right hm (spent j)).trans hle
      · rw [Function.update_of_ne hj]
        exact h.within j task hold
    · have hsum : ∑ j ∈ started, Function.update spent i (spent i + weight o) j =
          ∑ j ∈ started, spent j + weight o := by
        rw [Finset.sum_update_of_mem hin, Finset.sdiff_singleton_eq_erase, ← Finset.add_sum_erase started spent hin,
          add_right_comm]
      rw [hsum, ← add_assoc]
      exact (hrise o c.state r s hanswers).trans (add_le_add_left h.risen (weight o))
  | @outside s hout => exact ⟨started, spent, h.tasks, h.within, (houtside c.state s hout).trans h.risen⟩

/-- The books are kept along every schedule. -/
theorem Reaches.accounted (hrise : ∀ o s r s', S.Answers o s r s' → measure s' ≤ measure s + weight o)
    (houtside : ∀ s s', S.outside s s' → measure s' ≤ measure s)
    (hcosts : ∀ k, (S.program k).Costs weight (price k)) {s : σ} (h : S.Reaches C (.idle s) c) :
    ∃ started spent, Accounted measure weight price (measure s) c started spent := by
  induction h with
  | refl => exact ⟨∅, _, accounted_idle s⟩
  | tail hbefore hstep ih =>
    obtain ⟨started, spent, haccounted⟩ := ih
    exact haccounted.step hrise houtside hcosts hstep

/-- **Jobs of one kind pay for everything**: where no others cost anything, the measure rises by
no more than what one of them costs, times their number, whatever the schedule. -/
theorem measure_le [CanonicallyOrderedAdd M] {kind : κ → Prop} {n : M}
    (hrise : ∀ o s r s', S.Answers o s r s' → measure s' ≤ measure s + weight o)
    (houtside : ∀ s s', S.outside s s' → measure s' ≤ measure s)
    (hcosts : ∀ k, kind k → (S.program k).Costs weight n) (hfree : ∀ k, ¬ kind k → (S.program k).Costs weight 0)
    {s : σ} (h : S.Reaches C (.idle s) c) : measure c.state ≤ measure s + c.count kind • n := by
  classical
  have hprice : ∀ k, (S.program k).Costs weight (if kind k then n else 0) := by
    intro k
    split
    · exact hcosts k ‹_›
    · exact hfree k ‹_›
  obtain ⟨started, spent, haccounted⟩ := h.accounted hrise houtside hprice
  let pays (i : ι) : Prop := ∃ task, c.tasks i = some task ∧ kind task.job
  have hspent : ∀ i ∈ started, spent i ≤ if pays i then n else 0 := by
    intro i hi
    obtain ⟨task, htask⟩ := Option.isSome_iff_exists.mp ((haccounted.tasks i).mp hi)
    obtain ⟨left, hle, -⟩ := haccounted.within i task htask
    have hpays : pays i ↔ kind task.job := by
      simp [pays, htask]
    rw [if_congr hpays rfl rfl]
    exact le_self_add.trans hle
  have hcount : c.count kind = (started.filter pays).card := by
    have hset : {i | ∃ task, c.tasks i = some task ∧ kind task.job} = ↑(started.filter pays) := by
      ext i
      rw [Finset.coe_filter, Set.mem_ofPred_eq, Set.mem_ofPred_eq, haccounted.tasks]
      constructor
      · rintro ⟨task, htask, hkind⟩
        exact ⟨by rw [htask]; rfl, task, htask, hkind⟩
      · exact fun hi => hi.2
    rw [Config.count, hset, Set.ncard_coe_finset]
  calc measure c.state ≤ measure s + ∑ i ∈ started, spent i := haccounted.risen
    _ ≤ measure s + ∑ i ∈ started, if pays i then n else 0 := add_le_add_right (Finset.sum_le_sum hspent) _
    _ = measure s + c.count kind • n := by
      rw [hcount, ← Finset.sum_filter, Finset.sum_const]

end System

end Programs
