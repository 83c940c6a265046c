import WebhookIngestion.Deliveries

/-! # Compaction

Most deliveries leave no mark on a projection: repeats, events older than the last one, rejected ones, events about
no entity.  What is left when they are dropped, the accepted events, makes the same projections, column by column
(`compacted_same_projections`).  The invariant is a simulation: the tables of the compacted run have the
heads of the full run's, and have seen no more (`Mirrors`). -/
namespace WebhookIngestion
open Tables Lifecycle

/-! ### Accepted events -/

/-- What `apply_event` returns for an event that has made its way into a projection. -/
def accepts : Except ApplyError ApplyOutcome → Bool
  | .ok .applied | .ok .appliedInitial => true
  | _ => false

theorem accepts_ofVerdict (v : Verdict) : accepts (.ok (.ofVerdict v)) = v.acts := by
  cases v <;> rfl

/-- The events of a run that are accepted, in their order. -/
def acceptedEvents (s : Store) : List CanonicalEvent → List CanonicalEvent
  | [] => []
  | event :: events =>
    let (outcome, s') := applyEvent event s
    if accepts outcome then event :: acceptedEvents s' events else acceptedEvents s' events

/-- The projection row of an entity, if it is registered. -/
def Store.projectionOf (s : Store) (key : EntityKey) : Option (Projection key.entityType) :=
  (s.view key).bind EntityView.projection

theorem Consistent.projectionOf_eq {s : Store} (hs : Consistent s) (key : EntityKey) :
    s.projectionOf key = (s.ledger key).head.map key.row := by
  rw [Store.projectionOf, hs.view_eq]
  cases (s.ledger key).head <;> rfl

/-- An event is accepted if it fits and its ledger acts on it. -/
theorem accepts_applyEvent {s : Store} (hs : Sound s) {k : EntityType} (ev : CanonicalEntityEvent k) :
    accepts (applyEvent (.entity k ev) s).1 = (ev.fits && (step (rules k) (s.ledger ev.key) ev).1.acts) := by
  cases hfits : ev.fits with
  | true => rw [applyEvent_outcome_of_fits hs hfits, accepts_ofVerdict, Bool.true_and]
  | false =>
    by_cases hobserved : s.Observed ev.key ev.eventId
    · rw [applyEvent_observed hobserved]
      rfl
    · rw [(applyEvent_raises_iff hs).mpr ⟨hfits, hobserved⟩]
      rfl

/-- The accepted events of an entity are those that its ledger acts on. -/
theorem about_acceptedEvents {s : Store} (hs : Sound s) (events : List CanonicalEvent) (key : EntityKey) :
    (acceptedEvents s events).filterMap (CanonicalEvent.about key) =
      actedOn (rules key.entityType) (s.ledger key) (events.filterMap (CanonicalEvent.entry key)) := by
  induction events generalizing s with
  | nil => rfl
  | cons event events ih =>
    have hledger := ledger_applyEvent hs event key
    have ih := ih (sound_applyEvent hs event)
    rw [hledger] at ih
    cases event with
    | unclassified ev => exact ih
    | entity k ev =>
      have haccepts := accepts_applyEvent hs ev
      simp only [acceptedEvents]
      cases hfits : ev.fits with
      | false =>
        rw [hfits, Bool.false_and] at haccepts
        have hnone := CanonicalEvent.entry_of_unfit hfits key
        rw [hnone, Option.toList_none, run_nil] at ih
        rw [if_neg (Bool.not_eq_true _ ▸ haccepts), List.filterMap_cons_none hnone]
        exact ih
      | true =>
        rw [hfits, Bool.true_and] at haccepts
        by_cases hkey : ev.key = key
        · subst hkey
          have hself := CanonicalEvent.entry_self hfits
          rw [hself, Option.toList_some, run_cons, run_nil] at ih
          rw [List.filterMap_cons_some hself, actedOn, ← haccepts]
          split
          · rw [List.filterMap_cons_some (CanonicalEvent.about_self ev), ih]
          · exact ih
        · have hnone : (CanonicalEvent.entity k ev).entry key = none := CanonicalEvent.entry_of_ne hkey
          rw [hnone, Option.toList_none, run_nil] at ih
          rw [List.filterMap_cons_none hnone]
          split
          · rw [List.filterMap_cons_none (CanonicalEvent.about_of_ne hkey), ih]
          · exact ih

/-! ### The compacted run -/

/-- The tables `m` have the projections of `s`, and have seen no more events of any entity. -/
def Mirrors (s m : Store) : Prop :=
  ∀ key, (m.ledger key).head = (s.ledger key).head ∧
    ∀ i ∈ (m.ledger key).applied.map Prod.fst, i ∈ (s.ledger key).applied.map Prod.fst

section Mirrors
variable {s m : Store} (hs : Sound s) (hm : Sound m) (h : Mirrors s m)
include hs h

/-- An event that is not accepted may be left out. -/
theorem Mirrors.skip {event : CanonicalEvent} (hnot : accepts (applyEvent event s).1 = false) :
    Mirrors (applyEvent event s).2 m := by
  intro key
  obtain ⟨hhead, hseen⟩ := h key
  rw [ledger_applyEvent hs event key]
  cases hentry : event.entry key with
  | none => exact ⟨hhead, hseen⟩
  | some ev =>
    have hverdict : (step (rules key.entityType) (s.ledger key) ev).1.acts = false := by
      cases event with
      | unclassified ev' => cases hentry
      | entity k ev' =>
        by_cases hkey : ev'.key = key
        · subst hkey
          cases hfits : ev'.fits with
          | true =>
            rw [CanonicalEvent.entry_self hfits] at hentry
            obtain rfl := Option.some.inj hentry
            rwa [accepts_applyEvent hs ev', hfits, Bool.true_and] at hnot
          | false =>
            rw [CanonicalEvent.entry_of_unfit hfits] at hentry
            cases hentry
        · rw [CanonicalEvent.entry_of_ne hkey] at hentry
          cases hentry
    rw [Option.toList_some, run_cons, run_nil]
    obtain ⟨hhead', hseen'⟩ := (took_step (rules key.entityType) (s.ledger key) ev).head_of_not_acts _ hverdict
    exact ⟨hhead.trans hhead'.symm, fun i hi => hseen' i (hseen i hi)⟩

include hm in
/-- An accepted event is accepted by the mirror, too. -/
theorem Mirrors.accept {event : CanonicalEvent} (haccepts : accepts (applyEvent event s).1 = true) :
    accepts (applyEvent event m).1 = true ∧ Mirrors (applyEvent event s).2 (applyEvent event m).2 := by
  cases event with
  | unclassified ev => cases haccepts
  | entity k ev =>
    rw [accepts_applyEvent hs ev, Bool.and_eq_true] at haccepts
    obtain ⟨hfits, hacts⟩ := haccepts
    obtain ⟨hhead, hseen⟩ := h ev.key
    obtain ⟨hverdict, hhead', hseen'⟩ :=
      (took_step (rules k) (s.ledger ev.key) ev).acts_of_head (rules k) hacts hhead hseen
    constructor
    · rw [accepts_applyEvent hm ev, hfits, hverdict, Bool.true_and]
      exact hacts
    · intro key
      rw [ledger_applyEvent hs (.entity k ev) key, ledger_applyEvent hm (.entity k ev) key]
      by_cases hkey : ev.key = key
      · subst hkey
        rw [CanonicalEvent.entry_self hfits, Option.toList_some, run_cons, run_nil, run_cons, run_nil]
        exact ⟨hhead', hseen'⟩
      · rw [CanonicalEvent.entry_of_ne hkey, Option.toList_none, run_nil, run_nil]
        exact h key

include hm in
/-- **The accepted events keep the mirror**, and are accepted one by one. -/
theorem Mirrors.run (events : List CanonicalEvent) :
    Mirrors (applyEvents events s).2 (applyEvents (acceptedEvents s events) m).2 ∧
      ∀ outcome ∈ (applyEvents (acceptedEvents s events) m).1, accepts outcome = true := by
  induction events generalizing s m with
  | nil => exact ⟨h, by simp [acceptedEvents, applyEvents]⟩
  | cons event events ih =>
    simp only [acceptedEvents, applyEvents]
    by_cases haccepts : accepts (applyEvent event s).1 = true
    · obtain ⟨hagain, hmirrors⟩ := h.accept hs hm haccepts
      obtain ⟨hrun, hall⟩ := ih (sound_applyEvent hs event) (sound_applyEvent hm event) hmirrors
      rw [if_pos haccepts]
      refine ⟨hrun, fun outcome hmem => ?_⟩
      rcases List.mem_cons.mp hmem with rfl | hmem
      · exact hagain
      · exact hall outcome hmem
    · rw [if_neg haccepts]
      exact ih (sound_applyEvent hs event) hm (h.skip hs (Bool.not_eq_true _ ▸ haccepts))

end Mirrors

/-- One accepted event of an entity may come after another: it is not older, and its state is the same or allowed. -/
def ComesAfter {k : EntityType} (a b : CanonicalEntityEvent k) : Prop :=
  a.eventTimestamp.instant ≤ b.eventTimestamp.instant ∧
    (b.targetState = a.targetState ∨ b.targetState ∈ transitions k (some a.targetState))

/-- **The accepted events make the projections**: applied by themselves they are accepted again, each of them, and
every entity gets the row that it got from all events.  An entity's accepted events are in the order of time, and
their states follow the transition table. -/
theorem compacted_same_projections (events : List CanonicalEvent) :
    let kept := acceptedEvents Store.empty events
    (∀ key, (applyEvents kept Store.empty).2.projectionOf key =
      (applyEvents events Store.empty).2.projectionOf key) ∧
    (∀ outcome ∈ (applyEvents kept Store.empty).1, accepts outcome = true) ∧
    ∀ key, (kept.filterMap (CanonicalEvent.about key)).IsChain ComesAfter := by
  intro kept
  have hempty : Mirrors Store.empty Store.empty := fun key => ⟨rfl, fun i hi => hi⟩
  obtain ⟨hmirrors, hall⟩ := hempty.run sound_empty sound_empty events
  refine ⟨fun key => ?_, hall, fun key => ?_⟩
  · rw [(sound_applyEvents sound_empty kept).consistent.projectionOf_eq,
      (sound_applyEvents sound_empty events).consistent.projectionOf_eq, (hmirrors key).1]
  · have hchain := (isChain_actedOn (rules key.entityType) (events.filterMap (CanonicalEvent.entry key))).2
      (Store.empty.ledger key) rfl
    rw [← about_acceptedEvents sound_empty events key] at hchain
    refine hchain.imp fun a b hfollows => ⟨hfollows.1, hfollows.2.imp id mem_transitions_of_edge⟩

/-- Of the payment, the late issue of the invoice, and the payment again, the payment is what counts. -/
example : acceptedEvents Store.empty [.entity .invoice (invoiceEvent "e2" .paid 3600000000),
    .entity .invoice (invoiceEvent "e1" .issued 0), .entity .invoice (invoiceEvent "e2" .paid 3600000000)] =
      [.entity .invoice (invoiceEvent "e2" .paid 3600000000)] := by
  decide

end WebhookIngestion
