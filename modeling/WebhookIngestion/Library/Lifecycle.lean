import Mathlib.Data.List.Induction
import Mathlib.Data.List.Nodup
import Mathlib.Data.List.Perm.Basic
import Mathlib.Logic.Relation
import Mathlib.Order.Lattice

/-! # Ledgers of time-stamped events

The history of one entity, kept by a service that receives its events at least
once and in any order.  A ledger holds the entity's current `Head`, every event
it has seen (`applied`), and the events it saw but did not act on (`skipped`).
`Rules` say what an event contributes: its identity, time and target state, and
which targets the current state refuses.

An event is acted on when it is new, not older than the head, and not refused.
The results are about whole runs: the books balance (`Balanced`), the head only
moves forward in time and along allowed edges (`run_head`), and the last event of
a history decides the head whatever the order of delivery, exactly when no other
event of the history refuses it (`run_perm_head`, `run_refused_first`), and histories that
differ in data nobody reads leave books that read the same (`SameBooks.run`). -/
namespace Lifecycle

/-- What one kind of entity contributes to the apply rule. -/
structure Rules (ε ι τ σ δ κ ρ : Type) where
  id : ε → ι
  time : ε → τ
  target : ε → σ
  /-- How a target state is written down. -/
  label : σ → κ
  /-- `refuses current target`: the entity does not move from `current` to `target`. -/
  refuses : σ → σ → Bool
  /-- The data of an entity opened by the event. -/
  opening : ε → δ
  /-- The data after an event that keeps the state. -/
  renewal : ε → δ → δ
  /-- The data after an event that changes the state. -/
  advance : ε → δ → δ
  /-- The remark on an event older than the head: current state, last time, its time. -/
  lateNote : σ → τ → τ → ρ
  /-- The remark on a refused event: current state, target. -/
  refusedNote : σ → σ → ρ

/-- An entity as its last acted-on event left it. -/
structure Head (ι τ σ δ : Type) where
  state : σ
  lastId : ι
  lastTime : τ
  version : Nat
  data : δ

/-- The books of one entity, latest entries first. -/
structure Ledger (ι τ σ δ κ ρ : Type) where
  head : Option (Head ι τ σ δ)
  applied : List (ι × κ)
  skipped : List (ι × ρ)

/-- What became of an event. -/
inductive Verdict where
  | duplicate | opened | late | refused | renewed | advanced
  deriving DecidableEq

variable {ε ι τ σ δ κ ρ : Type}

/-- No event seen. -/
def Ledger.empty : Ledger ι τ σ δ κ ρ := ⟨none, [], []⟩

/-- The number of events acted on. -/
def Ledger.version (L : Ledger ι τ σ δ κ ρ) : Nat := L.head.elim 0 Head.version

section Took
variable [LinearOrder τ] (R : Rules ε ι τ σ δ κ ρ)

/-- The six ways a ledger can take an event, each with all its guards. -/
inductive Took (L : Ledger ι τ σ δ κ ρ) (e : ε) : Verdict → Ledger ι τ σ δ κ ρ → Prop where
  | duplicate (seen : R.id e ∈ L.applied.map Prod.fst) : Took L e .duplicate L
  | opened (new : R.id e ∉ L.applied.map Prod.fst) (vacant : L.head = none) :
      Took L e .opened ⟨some ⟨R.target e, R.id e, R.time e, 1, R.opening e⟩,
        (R.id e, R.label (R.target e)) :: L.applied, L.skipped⟩
  | late (new : R.id e ∉ L.applied.map Prod.fst) {h} (head : L.head = some h)
      (older : R.time e < h.lastTime) :
      Took L e .late ⟨some h, (R.id e, R.label (R.target e)) :: L.applied,
        (R.id e, R.lateNote h.state h.lastTime (R.time e)) :: L.skipped⟩
  | refused (new : R.id e ∉ L.applied.map Prod.fst) {h} (head : L.head = some h)
      (timely : h.lastTime ≤ R.time e) (no : R.refuses h.state (R.target e) = true) :
      Took L e .refused ⟨some h, (R.id e, R.label (R.target e)) :: L.applied,
        (R.id e, R.refusedNote h.state (R.target e)) :: L.skipped⟩
  | renewed (new : R.id e ∉ L.applied.map Prod.fst) {h} (head : L.head = some h)
      (timely : h.lastTime ≤ R.time e) (ok : R.refuses h.state (R.target e) = false)
      (same : R.target e = h.state) :
      Took L e .renewed ⟨some ⟨h.state, R.id e, R.time e, h.version + 1, R.renewal e h.data⟩,
        (R.id e, R.label (R.target e)) :: L.applied, L.skipped⟩
  | advanced (new : R.id e ∉ L.applied.map Prod.fst) {h} (head : L.head = some h)
      (timely : h.lastTime ≤ R.time e) (ok : R.refuses h.state (R.target e) = false)
      (other : R.target e ≠ h.state) :
      Took L e .advanced ⟨some ⟨R.target e, R.id e, R.time e, h.version + 1, R.advance e h.data⟩,
        (R.id e, R.label (R.target e)) :: L.applied, L.skipped⟩

/-! ## The books balance -/

/-- The accounting invariant of a ledger. -/
structure Balanced (label : σ → κ) (L : Ledger ι τ σ δ κ ρ) : Prop where
  /-- There is a head once an event has been seen. -/
  head_iff : L.head.isSome ↔ L.applied ≠ []
  /-- No event is counted twice. -/
  nodup : (L.applied.map Prod.fst).Nodup
  /-- Every event seen was acted on or skipped. -/
  count : L.applied.length = L.version + L.skipped.length
  /-- The head is in the state its last event asked for. -/
  head_applied : ∀ h, L.head = some h → (h.lastId, label h.state) ∈ L.applied
  /-- The head's last event was acted on. -/
  head_kept : ∀ h, L.head = some h → h.lastId ∉ L.skipped.map Prod.fst
  /-- What was skipped was seen. -/
  skipped_applied : ∀ i ∈ L.skipped.map Prod.fst, i ∈ L.applied.map Prod.fst

omit [LinearOrder τ] in
theorem balanced_empty (label : σ → κ) :
    Balanced label (Ledger.empty : Ledger ι τ σ δ κ ρ) := by
  constructor <;> simp [Ledger.empty, Ledger.version]

omit [LinearOrder τ] in
/-- A new event that is skipped keeps the books balanced. -/
theorem Balanced.skip {label : σ → κ} {L : Ledger ι τ σ δ κ ρ} (hL : Balanced label L)
    {h : Head ι τ σ δ} (head : L.head = some h) {i : ι} (new : i ∉ L.applied.map Prod.fst) (s : κ)
    (r : ρ) : Balanced label ⟨some h, (i, s) :: L.applied, (i, r) :: L.skipped⟩ := by
  have hseen : h.lastId ∈ L.applied.map Prod.fst :=
    List.mem_map_of_mem (hL.head_applied h head)
  have hcount := hL.count
  rw [Ledger.version, head] at hcount
  constructor
  · simp
  · exact List.nodup_cons.mpr ⟨new, hL.nodup⟩
  · simp only [List.length_cons, Ledger.version, Option.elim_some] at hcount ⊢
    omega
  · rintro _ ⟨⟩
    exact List.mem_cons_of_mem _ (hL.head_applied h head)
  · rintro _ ⟨⟩ hm
    rcases List.mem_cons.mp hm with he | hm
    · exact new ((show h.lastId = i from he) ▸ hseen)
    · exact hL.head_kept h head hm
  · intro j hj
    rcases List.mem_cons.mp hj with rfl | hj
    · exact List.mem_cons_self
    · exact List.mem_cons_of_mem _ (hL.skipped_applied j hj)

omit [LinearOrder τ] in
/-- A new event that is acted on keeps the books balanced. -/
theorem Balanced.act {label : σ → κ} {L : Ledger ι τ σ δ κ ρ} (hL : Balanced label L) {i : ι}
    (new : i ∉ L.applied.map Prod.fst) (s : σ) (t : τ) (d : δ) :
    Balanced label ⟨some ⟨s, i, t, L.version + 1, d⟩, (i, label s) :: L.applied, L.skipped⟩ := by
  have hcount := hL.count
  constructor
  · simp
  · exact List.nodup_cons.mpr ⟨new, hL.nodup⟩
  · simp only [List.length_cons, Ledger.version, Option.elim_some]
    rw [Ledger.version] at hcount
    omega
  · rintro _ ⟨⟩
    exact List.mem_cons_self
  · rintro _ ⟨⟩ hm
    exact new (hL.skipped_applied i hm)
  · intro j hj
    exact List.mem_cons_of_mem _ (hL.skipped_applied j hj)

theorem balanced_took {L L' : Ledger ι τ σ δ κ ρ} {e : ε} {v : Verdict}
    (hL : Balanced R.label L) (h : Took R L e v L') : Balanced R.label L' := by
  cases h with
  | duplicate seen => exact hL
  | opened new vacant =>
    have := hL.act new (R.target e) (R.time e) (R.opening e)
    rwa [Ledger.version, vacant] at this
  | late new head older => exact hL.skip head new _ _
  | refused new head timely no => exact hL.skip head new _ _
  | renewed new head timely ok same =>
    have := hL.act new (R.target e) (R.time e) (R.renewal e ‹Head ι τ σ δ›.data)
    rw [Ledger.version, head] at this
    exact same ▸ this
  | advanced new head timely ok other =>
    have := hL.act new (R.target e) (R.time e) (R.advance e ‹Head ι τ σ δ›.data)
    rwa [Ledger.version, head] at this

/-- What the data functions preserve holds of the data of every head. -/
theorem data_took {P : δ → Prop} (hopen : ∀ e, P (R.opening e))
    (hrenew : ∀ e d, P d → P (R.renewal e d)) (hadvance : ∀ e d, P d → P (R.advance e d))
    {L L' : Ledger ι τ σ δ κ ρ} {e : ε} {v : Verdict} (hL : ∀ h, L.head = some h → P h.data)
    (h : Took R L e v L') : ∀ h', L'.head = some h' → P h'.data := by
  cases h with
  | duplicate seen => exact hL
  | opened new vacant => rintro _ ⟨⟩; exact hopen e
  | late new head older => rintro _ ⟨⟩; exact hL _ head
  | refused new head timely no => rintro _ ⟨⟩; exact hL _ head
  | renewed new head timely ok same => rintro _ ⟨⟩; exact hrenew e _ (hL _ head)
  | advanced new head timely ok other => rintro _ ⟨⟩; exact hadvance e _ (hL _ head)

/-- Versions count from one. -/
theorem version_took {L L' : Ledger ι τ σ δ κ ρ} {e : ε} {v : Verdict}
    (hL : ∀ h, L.head = some h → 1 ≤ h.version) (h : Took R L e v L') : ∀ h', L'.head = some h' → 1 ≤ h'.version := by
  cases h with
  | duplicate seen => exact hL
  | opened new vacant => rintro _ ⟨⟩; exact le_rfl
  | late new head older => rintro _ ⟨⟩; exact hL _ head
  | refused new head timely no => rintro _ ⟨⟩; exact hL _ head
  | renewed new head timely ok same => rintro _ ⟨⟩; exact Nat.le_add_left 1 _
  | advanced new head timely ok other => rintro _ ⟨⟩; exact Nat.le_add_left 1 _

/-! ## The head moves forward -/

/-- The state changes along `Edge`. -/
def Edge (a b : σ) : Prop := b ≠ a ∧ R.refuses a b = false

/-- No edge leaves the state. -/
def Terminal (a : σ) : Prop := ∀ b, ¬ Edge R a b

/-- One event moves the head at most one edge further, and not back in time. -/
theorem head_took {L L' : Ledger ι τ σ δ κ ρ} {e : ε} {v : Verdict} (h : Took R L e v L')
    {a : Head ι τ σ δ} (ha : L.head = some a) :
    ∃ b, L'.head = some b ∧ a.lastTime ≤ b.lastTime ∧ (b.state = a.state ∨ Edge R a.state b.state) := by
  cases h with
  | duplicate seen => exact ⟨a, ha, le_refl _, .inl rfl⟩
  | opened new vacant => rw [vacant] at ha; cases ha
  | late new head older | refused new head timely no =>
    obtain rfl := Option.some.inj (head.symm.trans ha)
    exact ⟨_, rfl, le_refl _, .inl rfl⟩
  | renewed new head timely ok same =>
    obtain rfl := Option.some.inj (head.symm.trans ha)
    exact ⟨_, rfl, timely, .inl rfl⟩
  | advanced new head timely ok other =>
    obtain rfl := Option.some.inj (head.symm.trans ha)
    exact ⟨_, rfl, timely, .inr ⟨other, ok⟩⟩

end Took

/-! ## Runs -/

section Run
variable [DecidableEq ι] [DecidableEq σ] [LinearOrder τ] (R : Rules ε ι τ σ δ κ ρ)

/-- Show one event to a ledger. -/
def step (L : Ledger ι τ σ δ κ ρ) (e : ε) : Verdict × Ledger ι τ σ δ κ ρ :=
  if R.id e ∈ L.applied.map Prod.fst then (.duplicate, L)
  else
    let applied := (R.id e, R.label (R.target e)) :: L.applied
    match L.head with
    | none => (.opened, ⟨some ⟨R.target e, R.id e, R.time e, 1, R.opening e⟩, applied, L.skipped⟩)
    | some h =>
      if R.time e < h.lastTime then
        (.late, ⟨some h, applied, (R.id e, R.lateNote h.state h.lastTime (R.time e)) :: L.skipped⟩)
      else if R.refuses h.state (R.target e) then
        (.refused, ⟨some h, applied, (R.id e, R.refusedNote h.state (R.target e)) :: L.skipped⟩)
      else if R.target e = h.state then
        (.renewed, ⟨some ⟨h.state, R.id e, R.time e, h.version + 1, R.renewal e h.data⟩, applied,
          L.skipped⟩)
      else
        (.advanced, ⟨some ⟨R.target e, R.id e, R.time e, h.version + 1, R.advance e h.data⟩,
          applied, L.skipped⟩)

/-- **Everything a step can do.** -/
theorem took_step (L : Ledger ι τ σ δ κ ρ) (e : ε) : Took R L e (step R L e).1 (step R L e).2 := by
  unfold step
  split
  · exact .duplicate ‹_›
  · rename_i hnew
    split
    · exact .opened hnew ‹_›
    · rename_i h hhead
      split
      · exact .late hnew hhead ‹_›
      · rename_i hold
        have htime := not_lt.mp hold
        split
        · exact .refused hnew hhead htime ‹_›
        · rename_i hok
          have hok := Bool.not_eq_true _ ▸ hok
          split
          · exact .renewed hnew hhead htime hok ‹_›
          · exact .advanced hnew hhead htime hok ‹_›

/-- A ledger takes an event in one way only. -/
theorem Took.eq {L L' : Ledger ι τ σ δ κ ρ} {e : ε} {v : Verdict} (h : Took R L e v L') :
    step R L e = (v, L') := by
  unfold step
  cases h with
  | duplicate seen => rw [if_pos seen]
  | opened new vacant => rw [if_neg new, vacant]
  | late new head older => simp only [if_neg new, head, if_pos older]
  | refused new head timely no => simp only [if_neg new, head, if_neg (not_lt.mpr timely), no, ite_true]
  | renewed new head timely ok same =>
    rw [same] at ok
    simp only [if_neg new, head, if_neg (not_lt.mpr timely), same, ok, ite_true, Bool.false_eq_true,
      ite_false]
  | advanced new head timely ok other =>
    simp only [if_neg new, head, if_neg (not_lt.mpr timely), ok, if_neg other, Bool.false_eq_true,
      ite_false]

/-- Show a sequence of events to a ledger. -/
def run (L : Ledger ι τ σ δ κ ρ) (es : List ε) : Ledger ι τ σ δ κ ρ :=
  es.foldl (fun L e => (step R L e).2) L

@[simp] theorem run_nil (L : Ledger ι τ σ δ κ ρ) : run R L [] = L := rfl

theorem run_cons (L : Ledger ι τ σ δ κ ρ) (e : ε) (es : List ε) :
    run R L (e :: es) = run R (step R L e).2 es := rfl

theorem run_append (L : Ledger ι τ σ δ κ ρ) (es fs : List ε) :
    run R L (es ++ fs) = run R (run R L es) fs := List.foldl_append

/-- What one event preserves, a run preserves. -/
theorem run_induction {P : Ledger ι τ σ δ κ ρ → Prop}
    (hstep : ∀ L e v L', P L → Took R L e v L' → P L') {L : Ledger ι τ σ δ κ ρ} (hL : P L)
    (es : List ε) : P (run R L es) := by
  induction es generalizing L with
  | nil => exact hL
  | cons e es ih => exact ih (hstep L e _ _ hL (took_step R L e))

/-- **The books balance after every run.** -/
theorem balanced_run (es : List ε) : Balanced R.label (run R Ledger.empty es) :=
  run_induction R (fun _ _ _ _ hL h => balanced_took R hL h) (balanced_empty R.label) es

/-- **Over a run the head moves forward**: its time does not decrease, its
successive states are joined by edges, and a terminal state is kept. -/
theorem run_head {L : Ledger ι τ σ δ κ ρ} {a : Head ι τ σ δ} (ha : L.head = some a) (es : List ε) :
    ∃ b, (run R L es).head = some b ∧ a.lastTime ≤ b.lastTime ∧
      Relation.ReflTransGen (Edge R) a.state b.state ∧ (Terminal R a.state → b.state = a.state) := by
  refine run_induction R (P := fun L => ∃ b, L.head = some b ∧ a.lastTime ≤ b.lastTime ∧
    Relation.ReflTransGen (Edge R) a.state b.state ∧ (Terminal R a.state → b.state = a.state))
    ?_ ⟨a, ha, le_refl _, .refl, fun _ => rfl⟩ es
  rintro L e v L' ⟨b, hb, htime, hpath, hterm⟩ htook
  obtain ⟨c, hc, htime', hstate⟩ := head_took R htook hb
  refine ⟨c, hc, le_trans htime htime', ?_, fun ht => ?_⟩
  · rcases hstate with he | hedge
    · rw [he]; exact hpath
    · exact hpath.tail hedge
  · rcases hstate with he | hedge
    · rw [he, hterm ht]
    · exact absurd (hterm ht ▸ hedge) (ht c.state)

/-! ## Delivery orders -/

/-- The head of a ledger that has seen some events is one of them. -/
theorem head_mem (es : List ε) {h : Head ι τ σ δ} (hh : (run R Ledger.empty es).head = some h) :
    ∃ e ∈ es, h.lastId = R.id e ∧ h.lastTime = R.time e ∧ h.state = R.target e := by
  induction es using List.reverseRecOn generalizing h with
  | nil => cases hh
  | append_singleton es e ih =>
    rw [run_append, run_cons, run_nil] at hh
    have htook := took_step R (run R Ledger.empty es) e
    generalize (step R (run R Ledger.empty es) e).1 = v at htook
    generalize (step R (run R Ledger.empty es) e).2 = L' at htook hh
    have old : ∀ h', (run R Ledger.empty es).head = some h' →
        ∃ f ∈ es ++ [e], h'.lastId = R.id f ∧ h'.lastTime = R.time f ∧ h'.state = R.target f := by
      intro h' hh'
      obtain ⟨f, hf, hrest⟩ := ih hh'
      exact ⟨f, List.mem_append_left _ hf, hrest⟩
    have here : e ∈ es ++ [e] := List.mem_append_right _ (List.mem_singleton_self e)
    cases htook with
    | duplicate seen => exact old h hh
    | opened new vacant => cases hh; exact ⟨e, here, rfl, rfl, rfl⟩
    | late new head older => cases hh; exact old h head
    | refused new head timely no => cases hh; exact old h head
    | renewed new head timely ok same => cases hh; exact ⟨e, here, rfl, rfl, same.symm⟩
    | advanced new head timely ok other => cases hh; exact ⟨e, here, rfl, rfl, rfl⟩

/-- A ledger has seen exactly the events it was shown. -/
theorem mem_applied_run (L : Ledger ι τ σ δ κ ρ) (es : List ε) (i : ι) :
    i ∈ (run R L es).applied.map Prod.fst ↔ i ∈ L.applied.map Prod.fst ∨ ∃ e ∈ es, R.id e = i := by
  induction es generalizing L with
  | nil => simp
  | cons e es ih =>
    rw [run_cons, ih]
    have hone : i ∈ (step R L e).2.applied.map Prod.fst ↔
        i ∈ L.applied.map Prod.fst ∨ R.id e = i := by
      have htook := took_step R L e
      generalize (step R L e).1 = v at htook
      generalize (step R L e).2 = L' at htook
      cases htook with
      | duplicate seen =>
        constructor
        · exact Or.inl
        · rintro (h | rfl)
          · exact h
          · exact seen
      | _ =>
        rw [List.map_cons, List.mem_cons, or_comm]
        exact or_congr Iff.rfl eq_comm
    rw [hone, or_assoc]
    exact or_congr Iff.rfl (by simp)

/-- **Deliveries in any order, repeats among them, end at the latest event**, if no other event
of the history refuses it. -/
theorem run_deliveries_head {es : List ε} {last : ε} (hnodup : (es.map R.id).Nodup) (hlast : last ∈ es)
    (htime : ∀ e ∈ es, e ≠ last → R.time e < R.time last)
    (hok : ∀ e ∈ es, e ≠ last → R.refuses (R.target e) (R.target last) = false)
    {ds : List ε} (hsub : ∀ e ∈ ds, e ∈ es) (hmem : last ∈ ds) :
    ∃ h, (run R Ledger.empty ds).head = some h ∧ h.lastId = R.id last ∧
      h.lastTime = R.time last ∧ h.state = R.target last := by
  induction ds using List.reverseRecOn with
  | nil => cases hmem
  | append_singleton ds e ih =>
    have hsub' : ∀ f ∈ ds, f ∈ es := fun f hf => hsub f (List.mem_append_left _ hf)
    have hhere : e ∈ es := hsub e (List.mem_append_right _ (List.mem_singleton_self e))
    have hseen : R.id e ∈ (run R Ledger.empty ds).applied.map Prod.fst ↔ e ∈ ds := by
      rw [mem_applied_run]
      constructor
      · rintro (h | ⟨f, hf, he⟩)
        · cases h
        · exact List.inj_on_of_nodup_map hnodup (hsub' f hf) hhere he ▸ hf
      · exact fun h => .inr ⟨e, h, rfl⟩
    rw [run_append, run_cons, run_nil]
    have htook := took_step R (run R Ledger.empty ds) e
    generalize (step R (run R Ledger.empty ds) e).1 = v at htook
    generalize (step R (run R Ledger.empty ds) e).2 = L' at htook
    by_cases hrepeat : e ∈ ds
    · -- a repeat changes nothing, and the latest event was seen before it
      have hlast' : last ∈ ds := by
        rcases List.mem_append.mp hmem with h | h
        · exact h
        · exact List.mem_singleton.mp h ▸ hrepeat
      cases htook with
      | duplicate seen => exact ih hsub' hlast'
      | opened new | late new | refused new | renewed new | advanced new => exact absurd (hseen.mpr hrepeat) new
    by_cases he : e = last
    · -- the latest event arrives: nothing seen so far is later or refuses it
      subst he
      have before : ∀ h, (run R Ledger.empty ds).head = some h →
          h.lastTime ≤ R.time e ∧ R.refuses h.state (R.target e) = false := by
        intro h hh
        obtain ⟨f, hf, -, hft, hfs⟩ := head_mem R ds hh
        have hfe : f ≠ e := fun h => hrepeat (h ▸ hf)
        rw [hft, hfs]
        exact ⟨le_of_lt (htime f (hsub' f hf) hfe), hok f (hsub' f hf) hfe⟩
      cases htook with
      | duplicate seen => exact absurd (hseen.mp seen) hrepeat
      | opened new vacant => exact ⟨_, rfl, rfl, rfl, rfl⟩
      | late new head older => exact absurd older (not_lt.mpr (before _ head).1)
      | refused new head timely no => exact absurd no (by rw [(before _ head).2]; simp)
      | renewed new head timely ok same => exact ⟨_, rfl, rfl, rfl, same.symm⟩
      | advanced new head timely ok other => exact ⟨_, rfl, rfl, rfl, rfl⟩
    · -- the latest event was seen before: what arrives now is older than the head
      have hlast' : last ∈ ds := by
        rcases List.mem_append.mp hmem with h | h
        · exact h
        · exact absurd (List.mem_singleton.mp h).symm he
      obtain ⟨h, hh, hid, hht, hhs⟩ := ih hsub' hlast'
      have older : R.time e < h.lastTime := by
        rw [hht]
        exact htime e hhere he
      cases htook with
      | duplicate seen => exact absurd (hseen.mp seen) hrepeat
      | opened new vacant => rw [vacant] at hh; cases hh
      | late new head _ =>
        obtain rfl := Option.some.inj (head.symm.trans hh)
        exact ⟨_, rfl, hid, hht, hhs⟩
      | refused new head timely no | renewed new head timely ok same
      | advanced new head timely ok other =>
        obtain rfl := Option.some.inj (head.symm.trans hh)
        exact absurd older (not_lt.mpr timely)

/-- **Every order of delivery ends at the latest event**, if no other event of
the history refuses it. -/
theorem run_perm_head {es : List ε} {last : ε} (hnodup : (es.map R.id).Nodup) (hlast : last ∈ es)
    (htime : ∀ e ∈ es, e ≠ last → R.time e < R.time last)
    (hok : ∀ e ∈ es, e ≠ last → R.refuses (R.target e) (R.target last) = false)
    {ds : List ε} (hperm : ds.Perm es) :
    ∃ h, (run R Ledger.empty ds).head = some h ∧ h.lastId = R.id last ∧
      h.lastTime = R.time last ∧ h.state = R.target last :=
  run_deliveries_head R hnodup hlast htime hok (fun _ he => hperm.mem_iff.mp he) (hperm.mem_iff.mpr hlast)

/-- An event that was seen and is not the head's never becomes the head's. -/
theorem run_lastId_ne {i : ι} {L : Ledger ι τ σ δ κ ρ} (hseen : i ∈ L.applied.map Prod.fst)
    (hne : ∀ h, L.head = some h → h.lastId ≠ i) (es : List ε) :
    ∀ h, (run R L es).head = some h → h.lastId ≠ i := by
  refine (run_induction R (P := fun L => i ∈ L.applied.map Prod.fst ∧
    ∀ h, L.head = some h → h.lastId ≠ i) ?_ ⟨hseen, hne⟩ es).2
  rintro L e v L' ⟨hs, hn⟩ htook
  have hfresh : R.id e ∉ L.applied.map Prod.fst → R.id e ≠ i := fun h he => h (he ▸ hs)
  cases htook with
  | duplicate seen => exact ⟨hs, hn⟩
  | opened new vacant =>
    exact ⟨List.mem_cons_of_mem _ hs, by rintro _ ⟨⟩; exact hfresh new⟩
  | late new head older | refused new head timely no =>
    exact ⟨List.mem_cons_of_mem _ hs, by rintro _ ⟨⟩; exact hn _ head⟩
  | renewed new head timely ok same | advanced new head timely ok other =>
    exact ⟨List.mem_cons_of_mem _ hs, by rintro _ ⟨⟩; exact hfresh new⟩

/-- **An event refused right after another one is lost**: delivered second, to a
ledger that knows only an event whose state refuses it, it never decides the head. -/
theorem run_refused_first {first last : ε} (hid : R.id last ≠ R.id first)
    (htime : R.time first ≤ R.time last)
    (hno : R.refuses (R.target first) (R.target last) = true) (rest : List ε) :
    ∀ h, (run R Ledger.empty (first :: last :: rest)).head = some h → h.lastId ≠ R.id last := by
  have hone : step R Ledger.empty first = _ := (Took.opened List.not_mem_nil rfl).eq
  have hnew : R.id last ∉ [(R.id first, R.label (R.target first))].map Prod.fst :=
    fun hm => hid (List.mem_singleton.mp hm)
  rw [run_cons, hone, run_cons, (Took.refused hnew rfl htime hno).eq]
  refine run_lastId_ne R List.mem_cons_self ?_ rest
  rintro _ ⟨⟩
  exact Ne.symm hid

end Run

/-! ## Events that are acted on -/

/-- The event is acted on: it becomes the head's. -/
def Verdict.acts : Verdict → Bool
  | opened | renewed | advanced => true
  | duplicate | late | refused => false

section ActedOn
variable [DecidableEq ι] [DecidableEq σ] [LinearOrder τ] (R : Rules ε ι τ σ δ κ ρ)

/-- The events of a run that are acted on, in their order. -/
def actedOn (L : Ledger ι τ σ δ κ ρ) : List ε → List ε
  | [] => []
  | e :: es =>
    if (step R L e).1.acts then e :: actedOn (step R L e).2 es else actedOn (step R L e).2 es

/-- What acts on a ledger acts on every ledger with its head that has seen no more. -/
theorem Took.acts_of_head {L L' M : Ledger ι τ σ δ κ ρ} {e : ε} {v : Verdict} (h : Took R L e v L')
    (hacts : v.acts = true) (hhead : M.head = L.head)
    (hseen : ∀ i ∈ M.applied.map Prod.fst, i ∈ L.applied.map Prod.fst) :
    (step R M e).1 = v ∧ (step R M e).2.head = L'.head ∧
      ∀ i ∈ (step R M e).2.applied.map Prod.fst, i ∈ L'.applied.map Prod.fst := by
  have hmono : ∀ s : κ, ∀ i ∈ ((R.id e, s) :: M.applied).map Prod.fst,
      i ∈ ((R.id e, s) :: L.applied).map Prod.fst := by
    intro s i hi
    rcases List.mem_cons.mp hi with rfl | hi
    · exact List.mem_cons_self
    · exact List.mem_cons_of_mem _ (hseen i hi)
  cases h with
  | duplicate | late | refused => cases hacts
  | opened new vacant =>
    rw [(Took.opened (fun hm => new (hseen _ hm)) (hhead.trans vacant)).eq]
    exact ⟨rfl, rfl, hmono _⟩
  | renewed new head timely ok same =>
    rw [(Took.renewed (fun hm => new (hseen _ hm)) (hhead.trans head) timely ok same).eq]
    exact ⟨rfl, rfl, hmono _⟩
  | advanced new head timely ok other =>
    rw [(Took.advanced (fun hm => new (hseen _ hm)) (hhead.trans head) timely ok other).eq]
    exact ⟨rfl, rfl, hmono _⟩

omit [DecidableEq ι] [DecidableEq σ] in
/-- What does not act leaves the head. -/
theorem Took.head_of_not_acts {L L' : Ledger ι τ σ δ κ ρ} {e : ε} {v : Verdict} (h : Took R L e v L')
    (hacts : v.acts = false) :
    L'.head = L.head ∧ ∀ i ∈ L.applied.map Prod.fst, i ∈ L'.applied.map Prod.fst := by
  cases h with
  | duplicate seen => exact ⟨rfl, fun i hi => hi⟩
  | late new head | refused new head => exact ⟨head.symm, fun i hi => List.mem_cons_of_mem _ hi⟩
  | opened | renewed | advanced => cases hacts

/-- The event may come after another one: it is not older, and keeps the state or moves along an edge. -/
def Follows (a b : ε) : Prop :=
  R.time a ≤ R.time b ∧ (R.target b = R.target a ∨ Edge R (R.target a) (R.target b))

/-- The head is as the event left it. -/
def Head.LeftBy (h : Head ι τ σ δ) (e : ε) : Prop :=
  h.lastId = R.id e ∧ h.lastTime = R.time e ∧ h.state = R.target e

omit [DecidableEq ι] [DecidableEq σ] in
/-- An event that acts leaves the head as its own, and follows the event that the head was of. -/
theorem Took.follows {L L' : Ledger ι τ σ δ κ ρ} {e : ε} {v : Verdict} (h : Took R L e v L')
    (hacts : v.acts = true) : (∃ b, L'.head = some b ∧ b.LeftBy R e) ∧
      ∀ a f, L.head = some a → a.LeftBy R f → Follows R f e := by
  cases h with
  | duplicate | late | refused => cases hacts
  | opened new vacant => exact ⟨⟨_, rfl, rfl, rfl, rfl⟩, fun a f ha => by rw [vacant] at ha; cases ha⟩
  | renewed new head timely ok same =>
    refine ⟨⟨_, rfl, rfl, rfl, same.symm⟩, fun a f ha hf => ?_⟩
    obtain rfl := Option.some.inj (head.symm.trans ha)
    obtain ⟨-, htime, hstate⟩ := hf
    exact ⟨htime ▸ timely, .inl (same.trans hstate)⟩
  | advanced new head timely ok other =>
    refine ⟨⟨_, rfl, rfl, rfl, rfl⟩, fun a f ha hf => ?_⟩
    obtain rfl := Option.some.inj (head.symm.trans ha)
    obtain ⟨-, htime, hstate⟩ := hf
    exact ⟨htime ▸ timely, .inr (hstate ▸ ⟨other, ok⟩)⟩

/-- **The events that were acted on follow each other.** -/
theorem isChain_actedOn (es : List ε) :
    (∀ (L : Ledger ι τ σ δ κ ρ) a f, L.head = some a → a.LeftBy R f →
      (f :: actedOn R L es).IsChain (Follows R)) ∧
    ∀ L : Ledger ι τ σ δ κ ρ, L.head = none → (actedOn R L es).IsChain (Follows R) := by
  induction es with
  | nil => exact ⟨fun L a f _ _ => .singleton f, fun L _ => .nil⟩
  | cons e es ih =>
    constructor
    · intro L a f ha hf
      have htook := took_step R L e
      rw [actedOn]
      by_cases hacts : (step R L e).1.acts = true
      · obtain ⟨⟨b, hb, he⟩, hfollows⟩ := htook.follows R hacts
        rw [if_pos hacts]
        exact .cons_cons (hfollows a f ha hf) (ih.1 _ b e hb he)
      · rw [if_neg hacts]
        exact ih.1 _ a f ((htook.head_of_not_acts R (Bool.not_eq_true _ ▸ hacts)).1.trans ha) hf
    · intro L hL
      have htook := took_step R L e
      rw [actedOn]
      by_cases hacts : (step R L e).1.acts = true
      · obtain ⟨⟨b, hb, he⟩, -⟩ := htook.follows R hacts
        rw [if_pos hacts]
        exact ih.1 _ b e hb he
      · rw [if_neg hacts]
        exact ih.2 _ ((htook.head_of_not_acts R (Bool.not_eq_true _ ▸ hacts)).1.trans hL)

end ActedOn

/-! ## Events that do the same -/

section Alike
variable {α : Type} (R : Rules ε ι τ σ δ κ ρ) (π : δ → α)

/-- What `π` reads of the data, in its place. -/
def Head.read (h : Head ι τ σ δ) : Head ι τ σ α :=
  ⟨h.state, h.lastId, h.lastTime, h.version, π h.data⟩

/-- The two events do the same to every entity, as far as `π` reads its data. -/
structure Alike (e e' : ε) : Prop where
  id : R.id e = R.id e'
  time : R.time e = R.time e'
  target : R.target e = R.target e'
  opening : π (R.opening e) = π (R.opening e')
  renewal : ∀ d d', π d = π d' → π (R.renewal e d) = π (R.renewal e' d')
  advance : ∀ d d', π d = π d' → π (R.advance e d) = π (R.advance e' d')

/-- The two ledgers are the same, as far as `π` reads their data. -/
structure SameBooks (L L' : Ledger ι τ σ δ κ ρ) : Prop where
  head : L.head.map (Head.read π) = L'.head.map (Head.read π)
  applied : L.applied = L'.applied
  skipped : L.skipped = L'.skipped

theorem SameBooks.refl (L : Ledger ι τ σ δ κ ρ) : SameBooks π L L := ⟨rfl, rfl, rfl⟩

variable {π} {R}

theorem SameBooks.symm {L L' : Ledger ι τ σ δ κ ρ} (hL : SameBooks π L L') : SameBooks π L' L :=
  ⟨hL.head.symm, hL.applied.symm, hL.skipped.symm⟩

/-- Where one ledger has a head the other has one that reads the same. -/
theorem SameBooks.head_some {L L' : Ledger ι τ σ δ κ ρ} (hL : SameBooks π L L') {a : Head ι τ σ δ}
    (ha : L.head = some a) :
    ∃ d, L'.head = some ⟨a.state, a.lastId, a.lastTime, a.version, d⟩ ∧ π a.data = π d := by
  have hhead := hL.head
  rw [ha] at hhead
  obtain ⟨b, hb, hread⟩ := Option.map_eq_some_iff.mp hhead.symm
  obtain ⟨state, lastId, lastTime, version, d⟩ := b
  cases a
  simp only [Head.read, Head.mk.injEq] at hread
  obtain ⟨rfl, rfl, rfl, rfl, hdata⟩ := hread
  exact ⟨d, hb, hdata.symm⟩

variable [DecidableEq ι] [DecidableEq σ] [LinearOrder τ]

/-- **Alike events keep the books the same.** -/
theorem SameBooks.step {L L' : Ledger ι τ σ δ κ ρ} (hL : SameBooks π L L') {e e' : ε} (he : Alike R π e e') :
    SameBooks π (step R L e).2 (step R L' e').2 := by
  have hnew : R.id e ∉ L.applied.map Prod.fst → R.id e' ∉ L'.applied.map Prod.fst := by
    rw [he.id, hL.applied]
    exact id
  have htook := took_step R L e
  generalize (Lifecycle.step R L e).1 = v at htook
  generalize (Lifecycle.step R L e).2 = M at htook ⊢
  cases htook with
  | duplicate seen =>
    rw [he.id, hL.applied] at seen
    rw [(Took.duplicate seen).eq]
    exact hL
  | opened new vacant =>
    have hvacant : L'.head = none := by
      have hhead := hL.head
      rw [vacant] at hhead
      exact Option.map_eq_none_iff.mp hhead.symm
    rw [(Took.opened (hnew new) hvacant).eq]
    refine ⟨?_, by rw [he.id, he.target, hL.applied], hL.skipped⟩
    simp only [Option.map_some, Head.read, he.target, he.id, he.time, he.opening]
  | @late new a head older =>
    obtain ⟨d, hd, hdata⟩ := hL.head_some head
    rw [he.time] at older
    rw [(Took.late (hnew new) hd older).eq]
    refine ⟨?_, by rw [he.id, he.target, hL.applied], by rw [he.id, he.time, hL.skipped]⟩
    simp only [Option.map_some, Head.read, hdata]
  | @refused new a head timely no =>
    obtain ⟨d, hd, hdata⟩ := hL.head_some head
    rw [he.time] at timely
    rw [he.target] at no
    rw [(Took.refused (hnew new) hd timely no).eq]
    refine ⟨?_, by rw [he.id, he.target, hL.applied], by rw [he.id, he.target, hL.skipped]⟩
    simp only [Option.map_some, Head.read, hdata]
  | @renewed new a head timely ok same =>
    obtain ⟨d, hd, hdata⟩ := hL.head_some head
    rw [he.time] at timely
    rw [he.target] at ok same
    rw [(Took.renewed (hnew new) hd timely ok same).eq]
    refine ⟨?_, by rw [he.id, he.target, hL.applied], hL.skipped⟩
    simp only [Option.map_some, Head.read, he.id, he.time, he.renewal _ _ hdata]
  | @advanced new a head timely ok other =>
    obtain ⟨d, hd, hdata⟩ := hL.head_some head
    rw [he.time] at timely
    rw [he.target] at ok other
    rw [(Took.advanced (hnew new) hd timely ok other).eq]
    refine ⟨?_, by rw [he.id, he.target, hL.applied], hL.skipped⟩
    simp only [Option.map_some, Head.read, he.target, he.id, he.time, he.advance _ _ hdata]

/-- **Runs of alike events end at the same books.** -/
theorem SameBooks.run {es es' : List ε} (h : List.Forall₂ (Alike R π) es es') {L L' : Ledger ι τ σ δ κ ρ}
    (hL : SameBooks π L L') : SameBooks π (run R L es) (run R L' es') := by
  induction h generalizing L L' with
  | nil => exact hL
  | cons he _ ih => exact ih (hL.step he)

end Alike

end Lifecycle
