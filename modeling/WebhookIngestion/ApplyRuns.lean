import WebhookIngestion.EntityLedger

/-! # Runs of the state machine

What one `apply_event` call preserves, and from it what every sequence of calls on
freshly migrated tables preserves: the books of every entity balance
(`applyEvents_balanced`), and projections only move forward, along the transition
table (`applyEvents_forward`). -/
namespace WebhookIngestion
open Tables Lifecycle Programs

/-! ### One call -/

/-- Tables the appliers can go on from. -/
structure Sound (s : Store) : Prop where
  consistent : Consistent s
  numbered : Numbered s

theorem sound_empty : Sound Store.empty := ⟨consistent_empty, numbered_empty⟩

/-- Emptied tables are sound, however far their sequence is. -/
theorem sound_emptied (n : Nat) : Sound { Store.empty with entitiesSeq := n } where
  consistent := ⟨⟨consistent_empty.entity_inj, consistent_empty.projection_entity,
    consistent_empty.applied_entity, consistent_empty.stale_entity⟩, consistent_empty.entity_projection⟩
  numbered key id h := by simp [Store.empty] at h

/-- **The tables stay well kept**, also when nothing is written. -/
theorem Finishes.consistent {s : Store} (hs : Consistent s) {k : EntityType} {ev : CanonicalEntityEvent k}
    {result : Except ApplyError ApplyOutcome} {ws : List Write} (h : Finishes s ev result ws) :
    Consistent (s.writeAll ws) := by
  cases h with
  | applied applies => exact applies.consistent hs
  | raised unfit new => exact hs

theorem Sound.sees {s : Store} (hs : Sound s) {k : EntityType} {ev : CanonicalEntityEvent k}
    {result : Except ApplyError ApplyOutcome} {ws : List Write} (h : Finishes s ev result ws) {n : Nat}
    (hle : s.entitiesSeq ≤ n) (hn : ∀ key id, .entity key id ∈ ws → id < n) :
    Sound (sees s ws n) := by
  have hc := h.consistent hs.consistent
  refine ⟨⟨⟨hc.entity_inj, hc.projection_entity, hc.applied_entity, hc.stale_entity⟩,
    hc.entity_projection⟩, fun key id hkey => ?_⟩
  rcases Store.entities_writeAll s hkey with hkey | hmem
  · exact Nat.lt_of_lt_of_le (hs.numbered key id hkey) hle
  · exact hn key id hmem

/-- **One call**: it takes one of the six paths or raises, and leaves sound tables. -/
theorem applyEvent_entity_ends {s : Store} (hs : Sound s) {k : EntityType}
    (ev : CanonicalEntityEvent k) :
    ∃ result ws n, Finishes s ev result ws ∧ applyEvent (.entity k ev) s = (result, sees s ws n) ∧
      Sound (sees s ws n) := by
  obtain ⟨result, ws, n, hends, happly, hle, hn⟩ :=
    applyEntity_transaction hs.consistent hs.numbered ev
  exact ⟨result, ws, n, hends, applyEvent_entity ev s ▸ happly, hs.sees hends hle hn⟩

/-- A call about an entity takes one of the six paths, if the event fits. -/
theorem applyEvent_entity_applies {s : Store} (hs : Sound s) {k : EntityType}
    {ev : CanonicalEntityEvent k} (hfits : ev.fits = true) :
    ∃ outcome ws n, Applies s ev outcome ws ∧ applyEvent (.entity k ev) s = (.ok outcome, sees s ws n) ∧
      Sound (sees s ws n) := by
  obtain ⟨result, ws, n, hends, happly, hsound⟩ := applyEvent_entity_ends hs ev
  cases hends with
  | applied applies => exact ⟨_, ws, n, applies, happly, hsound⟩
  | raised unfit new => cases hfits.symm.trans unfit

theorem sound_applyEvent {s : Store} (hs : Sound s) (event : CanonicalEvent) :
    Sound (applyEvent event s).2 := by
  cases event with
  | entity k ev =>
    obtain ⟨result, ws, n, -, happly, hsound⟩ := applyEvent_entity_ends hs ev
    rw [happly]
    exact hsound
  | unclassified ev => exact hs

/-- An event is observed by the call that applies it, whatever comes of it. -/
theorem Applies.observed {s : Store} {k : EntityType} {ev : CanonicalEntityEvent k}
    {outcome : ApplyOutcome} {ws : List Write} (h : Applies s ev outcome ws) :
    (s.writeAll ws).Observed ev.key ev.eventId := by
  have hwrite : ∀ (s : Store) (id : EntityId), ((s.write (observation ev id)).appliedEvents.lookup
      (id, ev.eventId)).isSome := fun s id => by simp [observation]
  obtain ⟨own, hentity, -⟩ := h.entityId_mem
  refine ⟨own, hentity, ?_⟩
  cases h with
  | alreadyApplied entity seen =>
    obtain rfl := Option.some.inj (entity.symm.trans hentity)
    exact seen
  | @initial id fits noEntity unused =>
    obtain rfl : id = own := Option.some.inj ((AList.lookup_insert _).symm.trans hentity)
    exact hwrite _ id
  | @existing id row _ w fits known decides =>
    obtain rfl : id = own := by
      have := known.entity
      rcases decides.write_cases with ⟨note, rfl⟩ | ⟨-, row', rfl, -⟩
      · exact Option.some.inj (this.symm.trans hentity)
      · exact Option.some.inj (this.symm.trans hentity)
    rcases decides.write_cases with ⟨note, rfl⟩ | ⟨-, row', rfl, -⟩
    · exact hwrite _ id
    · exact hwrite _ id

theorem observed_applyEvent {s : Store} (hs : Sound s) {k : EntityType} {ev : CanonicalEntityEvent k}
    {outcome : ApplyOutcome} (h : (applyEvent (.entity k ev) s).1 = .ok outcome) :
    (applyEvent (.entity k ev) s).2.Observed ev.key ev.eventId := by
  obtain ⟨result, ws, n, hends, happly, -⟩ := applyEvent_entity_ends hs ev
  rw [happly] at h ⊢
  cases hends with
  | applied applies => exact applies.observed
  | raised unfit new => cases h

/-- What was observed stays observed. -/
theorem Store.Observed.mono {s : Store} (hs : Sound s) {key : EntityKey} {eventId : EventId}
    (h : s.Observed key eventId) (event : CanonicalEvent) :
    (applyEvent event s).2.Observed key eventId := by
  cases event with
  | unclassified ev => exact h
  | entity k ev =>
    obtain ⟨result, ws, n, hends, happly, -⟩ := applyEvent_entity_ends hs ev
    rw [happly]
    cases hends with
    | applied applies =>
      obtain ⟨id, hkey, hseen⟩ := h
      exact ⟨id, applies.entities_mono hkey, Store.isSome_lookup_writeAll_appliedEvents s hseen⟩
    | raised unfit new => exact h

/-- **An observed event is not applied again**: the call changes nothing. -/
theorem applyEvent_observed {s : Store} {k : EntityType} {ev : CanonicalEntityEvent k}
    (h : s.Observed ev.key ev.eventId) : applyEvent (.entity k ev) s = (.ok .alreadyApplied, s) := by
  obtain ⟨id, hkey, hseen⟩ := h
  obtain ⟨state, hstate⟩ := Option.isSome_iff_exists.mp hseen
  have hselect : (Sql.selectEntity ev.key).handle s = (.ok (some id), s) := by
    simp only [Sql.handle, Sql.exec, hkey, Store.writeAll_nil, Sql.nextSeq]
  have hinsert : (Sql.insertAppliedEvent id ev.eventId (stateValue k ev.targetState)).handle s =
      (.ok none, s) := by
    simp only [Sql.handle, Sql.exec, hstate, Store.writeAll_nil, Sql.nextSeq]
  rw [applyEvent_entity, Tx.transaction, applyEntity, getOrCreateEntity, selectEntity, Program.bind_assoc,
    Program.run_perform_bind Sql.handle hselect]
  simp only [Program.pure_eq, Program.ret_bind, applyTo, insertAppliedEvent]
  rw [Program.run_perform_bind Sql.handle hinsert]
  rfl

/-- **A call raises for a new event that does not fit**, and for no other; it leaves no row. -/
theorem applyEvent_raises_iff {s : Store} (hs : Sound s) {k : EntityType} {ev : CanonicalEntityEvent k} :
    (applyEvent (.entity k ev) s).1 = .error .dataError ↔
      ev.fits = false ∧ ¬ s.Observed ev.key ev.eventId := by
  obtain ⟨result, ws, n, hends, happly, -⟩ := applyEvent_entity_ends hs ev
  rw [happly]
  cases hends with
  | raised unfit new => exact iff_of_true rfl ⟨unfit, new⟩
  | applied applies =>
    refine iff_of_false (by simp) ?_
    rintro ⟨unfit, new⟩
    cases applies with
    | alreadyApplied entity seen => exact new ⟨_, entity, seen⟩
    | initial fits | existing fits => cases fits.symm.trans unfit

/-- Whatever a call returns, it raises nothing else. -/
theorem applyEvent_ok_or_raises {s : Store} (hs : Sound s) (event : CanonicalEvent) :
    (∃ outcome, (applyEvent event s).1 = .ok outcome) ∨
      (applyEvent event s).1 = .error .dataError ∧ ∃ n, (applyEvent event s).2 = { s with entitiesSeq := n } := by
  cases event with
  | unclassified ev => exact .inl ⟨_, rfl⟩
  | entity k ev =>
    obtain ⟨result, ws, n, hends, happly, -⟩ := applyEvent_entity_ends hs ev
    rw [happly]
    cases hends with
    | applied applies => exact .inl ⟨_, rfl⟩
    | raised unfit new => exact .inr ⟨rfl, n, rfl⟩

/-- What one call preserves, a run preserves. -/
theorem applyEvents_induction {P : Store → Prop}
    (hstep : ∀ s event, Sound s → P s → P (applyEvent event s).2) {s : Store} (hs : Sound s)
    (hP : P s) (events : List CanonicalEvent) :
    Sound (applyEvents events s).2 ∧ P (applyEvents events s).2 := by
  induction events generalizing s with
  | nil => exact ⟨hs, hP⟩
  | cons event events ih => exact ih (sound_applyEvent hs event) (hstep s event hs hP)

theorem sound_applyEvents {s : Store} (hs : Sound s) (events : List CanonicalEvent) :
    Sound (applyEvents events s).2 :=
  (applyEvents_induction (P := fun _ => True) (fun _ _ _ _ => trivial) hs trivial events).1

/-! ### The appliers refine the ledgers -/

/-- The event, if it is about the entity `key`. -/
def CanonicalEvent.about (key : EntityKey) :
    CanonicalEvent → Option (CanonicalEntityEvent key.entityType)
  | .entity _ ev => if h : ev.key = key then some (h ▸ ev) else none
  | .unclassified _ => none

theorem CanonicalEvent.about_self {k : EntityType} (ev : CanonicalEntityEvent k) :
    (CanonicalEvent.entity k ev).about ev.key = some ev := dif_pos rfl

theorem CanonicalEvent.about_of_ne {k : EntityType} {ev : CanonicalEntityEvent k} {key : EntityKey}
    (h : ev.key ≠ key) : (CanonicalEvent.entity k ev).about key = none := dif_neg h

/-- The event, if it is about the entity `key` and fits: what the entity's books can take. -/
def CanonicalEvent.entry (key : EntityKey) (event : CanonicalEvent) :
    Option (CanonicalEntityEvent key.entityType) :=
  (event.about key).filter CanonicalEntityEvent.fits

theorem CanonicalEvent.entry_self {k : EntityType} {ev : CanonicalEntityEvent k} (h : ev.fits = true) :
    (CanonicalEvent.entity k ev).entry ev.key = some ev := by
  rw [entry, about_self, Option.filter_some, if_pos h]

theorem CanonicalEvent.entry_of_unfit {k : EntityType} {ev : CanonicalEntityEvent k} (h : ev.fits = false)
    (key : EntityKey) : (CanonicalEvent.entity k ev).entry key = none := by
  by_cases hkey : ev.key = key
  · subst hkey
    rw [entry, about_self, Option.filter_some, h, if_neg Bool.false_ne_true]
  · rw [entry, about_of_ne hkey, Option.filter_none]

theorem CanonicalEvent.entry_of_ne {k : EntityType} {ev : CanonicalEntityEvent k} {key : EntityKey}
    (h : ev.key ≠ key) : (CanonicalEvent.entity k ev).entry key = none := by
  rw [entry, about_of_ne h, Option.filter_none]

/-- The entries of a run are its events about the entity that fit. -/
theorem filterMap_entry (key : EntityKey) (events : List CanonicalEvent) :
    events.filterMap (CanonicalEvent.entry key) =
      (events.filterMap (CanonicalEvent.about key)).filter CanonicalEntityEvent.fits := by
  rw [List.filter_filterMap]
  rfl

section Applied
variable {s : Store} (hs : Consistent s) {k : EntityType} {ev : CanonicalEntityEvent k}
include hs

/-- The outcome of a path is the verdict of the event's ledger. -/
theorem Applies.outcome_eq {outcome : ApplyOutcome} {ws : List Write} (h : Applies s ev outcome ws) :
    outcome = .ofVerdict (step (rules k) (s.ledger ev.key) ev).1 := by
  obtain ⟨v, rfl, htook⟩ := h.took hs
  rw [htook.eq]

/-- A path is one step of the ledger of the event's entity, and no step of any other. -/
theorem Applies.ledger_eq {outcome : ApplyOutcome} {ws : List Write} (h : Applies s ev outcome ws)
    (key : EntityKey) : (s.writeAll ws).ledger key =
      run (rules key.entityType) (s.ledger key) ((CanonicalEvent.entity k ev).entry key).toList := by
  by_cases hkey : ev.key = key
  · subst hkey
    cases hfits : ev.fits with
    | true =>
      obtain ⟨v, -, htook⟩ := h.took hs
      rw [CanonicalEvent.entry_self hfits, Option.toList_some, run_cons, run_nil, htook.eq]
    | false =>
      rw [CanonicalEvent.entry_of_unfit hfits]
      cases h with
      | alreadyApplied entity seen => rfl
      | initial fits | existing fits => cases fits.symm.trans hfits
  · rw [CanonicalEvent.entry_of_ne hkey]
    exact h.others hs (Ne.symm hkey)

/-- A call is at most one step of the ledger of the event's entity. -/
theorem Finishes.ledger_eq {result : Except ApplyError ApplyOutcome} {ws : List Write} (h : Finishes s ev result ws)
    (key : EntityKey) : (s.writeAll ws).ledger key =
      run (rules key.entityType) (s.ledger key) ((CanonicalEvent.entity k ev).entry key).toList := by
  cases h with
  | applied applies => exact applies.ledger_eq hs key
  | raised unfit new =>
    rw [CanonicalEvent.entry_of_unfit unfit]
    rfl

end Applied

/-- What `apply_event` returns for an event about an entity is the verdict of its ledger. -/
theorem applyEvent_outcome {s : Store} (hs : Sound s) {k : EntityType} {ev : CanonicalEntityEvent k}
    {outcome : ApplyOutcome} (h : (applyEvent (.entity k ev) s).1 = .ok outcome) :
    outcome = .ofVerdict (step (rules k) (s.ledger ev.key) ev).1 := by
  obtain ⟨result, ws, n, hends, happly, -⟩ := applyEvent_entity_ends hs ev
  rw [happly] at h
  cases hends with
  | applied applies => exact Except.ok.inj h ▸ applies.outcome_eq hs.consistent
  | raised unfit new => cases h

/-- An event that fits gets the verdict of its ledger. -/
theorem applyEvent_outcome_of_fits {s : Store} (hs : Sound s) {k : EntityType} {ev : CanonicalEntityEvent k}
    (hfits : ev.fits = true) : (applyEvent (.entity k ev) s).1 =
      .ok (.ofVerdict (step (rules k) (s.ledger ev.key) ev).1) := by
  obtain ⟨outcome, ws, n, happlies, happly, -⟩ := applyEvent_entity_applies hs hfits
  rw [happly, ← happlies.outcome_eq hs.consistent]

/-- What was observed for an entity is on its ledger. -/
theorem observed_iff_ledger {s : Store} {key : EntityKey} {eventId : EventId} :
    s.Observed key eventId ↔ eventId ∈ (s.ledger key).applied.map Prod.fst := by
  constructor
  · rintro ⟨id, hkey, hseen⟩
    rw [Store.ledger_of_some hkey]
    exact mem_fiber_keys.mpr (AList.lookup_isSome.mp hseen)
  · intro hmem
    cases hkey : s.entities.lookup key with
    | none =>
      rw [Store.ledger_of_none hkey] at hmem
      cases hmem
    | some id =>
      rw [Store.ledger_of_some hkey] at hmem
      exact ⟨id, hkey, AList.lookup_isSome.mpr (mem_fiber_keys.mp hmem)⟩

/-- What `apply_event` returns it returns on all tables with the same ledger of the entity. -/
theorem Applies.outcome_congr {s s' : Store} (hs : Consistent s) (hs' : Sound s') {k : EntityType}
    {ev : CanonicalEntityEvent k} {outcome : ApplyOutcome} {ws : List Write} (h : Applies s ev outcome ws)
    (hledger : s.ledger ev.key = s'.ledger ev.key) : (applyEvent (.entity k ev) s').1 = .ok outcome := by
  cases hfits : ev.fits with
  | true => rw [applyEvent_outcome_of_fits hs' hfits, ← hledger, ← h.outcome_eq hs]
  | false =>
    cases h with
    | initial fits | existing fits => cases fits.symm.trans hfits
    | alreadyApplied entity seen =>
      have hobserved : s.Observed ev.key ev.eventId := ⟨_, entity, seen⟩
      rw [observed_iff_ledger, hledger, ← observed_iff_ledger] at hobserved
      rw [applyEvent_observed hobserved]

/-- **One call is one step of the ledger of the event's entity**, if the event fits, and no step of
any other. -/
theorem ledger_applyEvent {s : Store} (hs : Sound s) (event : CanonicalEvent) (key : EntityKey) :
    (applyEvent event s).2.ledger key =
      run (rules key.entityType) (s.ledger key) (event.entry key).toList := by
  cases event with
  | unclassified ev => rfl
  | entity k ev =>
    obtain ⟨result, ws, n, hends, happly, -⟩ := applyEvent_entity_ends hs ev
    rw [happly]
    exact hends.ledger_eq hs.consistent key

/-- **A run of calls is, for every entity, a run of its ledger** on its own events. -/
theorem ledger_applyEvents {s : Store} (hs : Sound s) (events : List CanonicalEvent)
    (key : EntityKey) :
    (applyEvents events s).2.ledger key =
      run (rules key.entityType) (s.ledger key) (events.filterMap (CanonicalEvent.entry key)) := by
  induction events generalizing s with
  | nil => rfl
  | cons event events ih =>
    have hhead := ledger_applyEvent hs event key
    have htail := ih (sound_applyEvent hs event)
    rw [hhead] at htail
    rw [applyEvents, htail, List.filterMap_cons]
    cases event.entry key with
    | none => rfl
    | some ev => rfl

/-! ### The books balance -/

/-- Currency and amount are set together. -/
def AmountPaired : (k : EntityType) → ColumnsOf k → Prop
  | .shipment, _ => True
  | .invoice, columns => columns.currency = none ↔ columns.amountMinor = none

/-- **The accounts of the tables**, entity by entity. -/
structure Store.Balanced (s : Store) : Prop where
  /-- An entity has a projection exactly when an event was observed for it. -/
  projection_iff : ∀ key id, s.entities.lookup key = some id →
    (((s.projections key.entityType).lookup id).isSome ↔
      ∃ eventId, (s.appliedEvents.lookup (id, eventId)).isSome)
  /-- Every observed event was applied or logged. -/
  count : ∀ k id (row : Projection k), (s.projections k).lookup id = some row →
    (fiber s.appliedEvents id).length = row.version + (s.staleEvents id).length
  /-- The projection is in the state its last event asked for. -/
  state : ∀ k id (row : Projection k), (s.projections k).lookup id = some row →
    s.appliedEvents.lookup (id, row.lastAppliedEventId) = some (stateValue k row.state)
  /-- The projection's last event was not logged as stale or rejected. -/
  last_kept : ∀ k id (row : Projection k), (s.projections k).lookup id = some row →
    row.lastAppliedEventId ∉ (s.staleEvents id).map Prod.fst
  /-- What was logged was observed. -/
  stale_observed : ∀ key id, s.entities.lookup key = some id →
    ∀ eventId ∈ (s.staleEvents id).map Prod.fst, (s.appliedEvents.lookup (id, eventId)).isSome
  currency_iff : ∀ id (row : Projection .invoice), (s.projections .invoice).lookup id = some row →
    (row.columns.currency = none ↔ row.columns.amountMinor = none)

/-- The ledger of a projection's entity. -/
theorem Linked.ledger_of_row {s : Store} (hs : Linked s) {k : EntityType} {id : EntityId}
    {row : Projection k} (hrow : (s.projections k).lookup id = some row) :
    s.ledger ⟨row.vendorId, k, row.externalId⟩ = s.ledgerOf k id ∧
      (s.ledgerOf k id).head = some row.head := by
  refine ⟨Store.ledger_of_some (hs.projection_entity hrow), ?_⟩
  rw [Store.ledgerOf, hrow]
  rfl

/-- Balanced ledgers are balanced tables. -/
theorem balanced_of_ledgers {s : Store} (hs : Linked s)
    (hbalanced : ∀ key, Lifecycle.Balanced (stateValue key.entityType) (s.ledger key))
    (hpaired : ∀ key h, (s.ledger key).head = some h → AmountPaired key.entityType h.data) :
    s.Balanced where
  projection_iff key id hkey := by
    have := (hbalanced key).head_iff
    rw [Store.ledger_of_some hkey, Store.ledgerOf, Option.isSome_map] at this
    exact this.trans fiber_ne_nil_iff
  count k id row hrow := by
    obtain ⟨hledger, hhead⟩ := hs.ledger_of_row hrow
    have := (hledger ▸ hbalanced _).count
    rw [Ledger.version, hhead] at this
    exact this
  state k id row hrow := by
    obtain ⟨hledger, hhead⟩ := hs.ledger_of_row hrow
    exact mem_fiber.mp ((hledger ▸ hbalanced _).head_applied _ hhead)
  last_kept k id row hrow := by
    obtain ⟨hledger, hhead⟩ := hs.ledger_of_row hrow
    exact (hledger ▸ hbalanced _).head_kept _ hhead
  stale_observed key id hkey eventId hm := by
    have := (hbalanced key).skipped_applied
    rw [Store.ledger_of_some hkey] at this
    exact AList.lookup_isSome.mpr (mem_fiber_keys.mp (this eventId hm))
  currency_iff id row hrow := by
    obtain ⟨hledger, hhead⟩ := hs.ledger_of_row hrow
    exact hpaired ⟨row.vendorId, .invoice, row.externalId⟩ _ (hledger ▸ hhead)

theorem amountPaired_initial : ∀ {k : EntityType} (ev : CanonicalEntityEvent k),
    AmountPaired k (initialColumns ev)
  | .shipment, _ => trivial
  | .invoice, ev => by simp [AmountPaired, initialColumns]

theorem amountPaired_repeat : ∀ {k : EntityType} (ev : CanonicalEntityEvent k) (columns : ColumnsOf k),
    AmountPaired k columns → AmountPaired k (repeatColumns ev columns)
  | .shipment, _, _, _ => trivial
  | .invoice, _, _, h => h

/-- An event carries its currency and amount together, so either both columns are
replaced or neither is. -/
theorem amountPaired_move : ∀ {k : EntityType} (ev : CanonicalEntityEvent k) (columns : ColumnsOf k),
    AmountPaired k columns → AmountPaired k (moveColumns ev columns)
  | .shipment, _, _, _ => trivial
  | .invoice, ev, columns, h => by
    cases hamount : ev.detail.amount with
    | none => simpa [AmountPaired, moveColumns, hamount] using h
    | some money => simp [AmountPaired, moveColumns, hamount]

/-- **After every run of `apply_event` calls the tables are balanced.** -/
theorem applyEvents_balanced (events : List CanonicalEvent) :
    (applyEvents events Store.empty).2.Balanced := by
  have hledger := ledger_applyEvents sound_empty events
  have hempty : ∀ key, Store.empty.ledger key = .empty := fun _ => rfl
  refine balanced_of_ledgers (sound_applyEvents sound_empty events).consistent.toLinked
    (fun key => ?_) (fun key => ?_)
  · rw [hledger, hempty]
    exact balanced_run (rules key.entityType) _
  · rw [hledger, hempty]
    refine run_induction (rules key.entityType)
      (P := fun L => ∀ h, L.head = some h → AmountPaired key.entityType h.data) ?_ (by rintro _ ⟨⟩) _
    exact fun L e v L' hL htook => data_took (rules key.entityType) amountPaired_initial
      amountPaired_repeat amountPaired_move hL htook

/-! ### Projections move forward -/

/-- The states nothing follows. -/
def terminalStates : (k : EntityType) → List (StateOf k)
  | .shipment => [.delivered, .cancelled]
  | .invoice => [.voided, .refunded]

/-- The edges of the apply rule are those of the transition table. -/
theorem mem_transitions_of_edge : ∀ {k : EntityType} {a b : StateOf k}, Edge (rules k) a b →
    b ∈ transitions k (some a)
  | .shipment, a, b, ⟨_, ok⟩ => by
    have : ¬ rejects .shipment a b := of_decide_eq_false ok
    exact not_not.mp this
  | .invoice, a, b, ⟨hne, ok⟩ => by
    have : ¬ rejects .invoice a b := of_decide_eq_false ok
    exact not_not.mp fun h => this ⟨h, hne⟩

theorem transitions_terminal : ∀ {k : EntityType} {a : StateOf k}, a ∈ terminalStates k →
    transitions k (some a) = []
  | .shipment, _, h => by
    simp only [terminalStates, List.mem_cons, List.not_mem_nil, or_false] at h
    rcases h with rfl | rfl <;> rfl
  | .invoice, _, h => by
    simp only [terminalStates, List.mem_cons, List.not_mem_nil, or_false] at h
    rcases h with rfl | rfl <;> rfl

theorem terminal_of_mem {k : EntityType} {a : StateOf k} (h : a ∈ terminalStates k) :
    Terminal (rules k) a := by
  intro b hedge
  have hb := mem_transitions_of_edge hedge
  rw [transitions_terminal h] at hb
  cases hb

/-- **A path changes at most the projection of the event's entity**, and only when it
applies the event. -/
theorem Applies.projection_changed {s : Store} {k : EntityType} {ev : CanonicalEntityEvent k}
    {outcome : ApplyOutcome} {ws : List Write} (h : Applies s ev outcome ws) {k' : EntityType}
    {id : EntityId}
    (hne : ((s.writeAll ws).projections k').lookup id ≠ (s.projections k').lookup id) :
    (outcome = .applied ∨ outcome = .appliedInitial) ∧ k' = k ∧
      (s.writeAll ws).entities.lookup ev.key = some id := by
  have hmem : ∃ w ∈ ws, .projection k' id ∈ w.occupies := by
    by_contra hnone
    exact hne (Store.lookup_writeAll_projections s fun w hw hocc => hnone ⟨w, hw, hocc⟩)
  obtain ⟨w, hw, hocc⟩ := hmem
  obtain ⟨own, hentity, -, hws⟩ := h.entityId_mem
  cases w with
  | projection k'' id' row =>
    simp only [Write.occupies, List.mem_singleton, Resource.projection.injEq] at hocc
    obtain ⟨rfl, rfl⟩ := hocc
    obtain rfl : id = own := hws _ hw
    cases h with
    | alreadyApplied => cases hw
    | initial =>
      simp only [observation, List.mem_cons, Write.projection.injEq, reduceCtorEq, List.not_mem_nil,
        or_false, false_or] at hw
      exact ⟨.inr rfl, hw.1, hentity⟩
    | existing fits known decides =>
      rcases decides.write_cases with ⟨note, rfl⟩ | ⟨rfl, row', rfl, -⟩
      · simp [observation] at hw
      · simp only [observation, List.mem_cons, Write.projection.injEq, reduceCtorEq, List.not_mem_nil,
          or_false, false_or] at hw
        exact ⟨.inl rfl, hw.1, hentity⟩
  | _ => simp [Write.occupies] at hocc

/-- A call takes no entity away. -/
theorem entities_applyEvent {s : Store} (hs : Sound s) (event : CanonicalEvent) {key : EntityKey}
    {id : EntityId} (hkey : s.entities.lookup key = some id) :
    (applyEvent event s).2.entities.lookup key = some id := by
  cases event with
  | unclassified ev => exact hkey
  | entity k ev =>
    obtain ⟨result, ws, n, hends, happly, -⟩ := applyEvent_entity_ends hs ev
    rw [happly]
    cases hends with
    | applied applies => exact applies.entities_mono hkey
    | raised unfit new => exact hkey

theorem entities_applyEvents {s : Store} (hs : Sound s) (events : List CanonicalEvent)
    {key : EntityKey} {id : EntityId} (hkey : s.entities.lookup key = some id) :
    (applyEvents events s).2.entities.lookup key = some id :=
  (applyEvents_induction (P := fun s => s.entities.lookup key = some id)
    (fun _ event hs hkey => entities_applyEvent hs event hkey) hs hkey events).2

/-- The head of a registered entity's ledger is its projection row. -/
theorem row_of_ledger_head {s : Store} {key : EntityKey} {id : EntityId}
    (hkey : s.entities.lookup key = some id)
    {h : Head EventId Int (StateOf key.entityType) (ColumnsOf key.entityType)}
    (hhead : (s.ledger key).head = some h) :
    ∃ row, (s.projections key.entityType).lookup id = some row ∧ row.head = h := by
  rw [Store.ledger_of_some hkey] at hhead
  exact Option.map_eq_some_iff.mp hhead

/-- One call moves a projection at most one edge further. -/
theorem row_applyEvent {s : Store} (hs : Sound s) (event : CanonicalEvent) {k : EntityType}
    {id : EntityId} {row : Projection k} (hrow : (s.projections k).lookup id = some row) :
    ∃ row', ((applyEvent event s).2.projections k).lookup id = some row' ∧
      (row'.state = row.state ∨ Edge (rules k) row.state row'.state) := by
  obtain ⟨hledger, hhead⟩ := hs.consistent.ledger_of_row hrow
  have hentity := entities_applyEvent hs event (hs.consistent.projection_entity hrow)
  have hafter := ledger_applyEvent hs event ⟨row.vendorId, k, row.externalId⟩
  cases hentry : event.entry ⟨row.vendorId, k, row.externalId⟩ with
  | none =>
    rw [hentry, Option.toList_none, run_nil, hledger] at hafter
    obtain ⟨row', hrow', he⟩ := row_of_ledger_head hentity (hafter ▸ hhead)
    exact ⟨row', hrow', .inl (congrArg Head.state he)⟩
  | some ev =>
    rw [hentry, Option.toList_some, run_cons, run_nil] at hafter
    obtain ⟨b, hb, -, hstate⟩ := head_took (rules k) (took_step (rules k) _ ev) (hledger ▸ hhead)
    rw [← hafter] at hb
    obtain ⟨row', hrow', rfl⟩ := row_of_ledger_head hentity hb
    exact ⟨row', hrow', hstate⟩

/-- A projection row is still there after any run, later on its way. -/
theorem row_applyEvents {s : Store} (hs : Sound s) (events : List CanonicalEvent) {k : EntityType}
    {id : EntityId} {row : Projection k} (hrow : (s.projections k).lookup id = some row) :
    ∃ row', ((applyEvents events s).2.projections k).lookup id = some row' ∧
      row.lastAppliedTs ≤ row'.lastAppliedTs ∧
      Relation.ReflTransGen (Edge (rules k)) row.state row'.state ∧
      (Terminal (rules k) row.state → row'.state = row.state) := by
  obtain ⟨hledger, hhead⟩ := hs.consistent.ledger_of_row hrow
  obtain ⟨b, hb, hrest⟩ := run_head (rules k) (hledger ▸ hhead)
    (events.filterMap (CanonicalEvent.entry ⟨row.vendorId, k, row.externalId⟩))
  rw [← ledger_applyEvents hs events ⟨row.vendorId, k, row.externalId⟩] at hb
  obtain ⟨row', hrow', rfl⟩ := row_of_ledger_head
    (entities_applyEvents hs events (hs.consistent.projection_entity hrow)) hb
  exact ⟨row', hrow', hrest⟩

/-- **Projections move forward.**  In every reachable store, one call changes at most
the projection of its event's entity, and only when it applied the event; its state
changes along the transition table.  Over every further run the last applied time
does not decrease, and a state nothing follows is kept. -/
theorem applyEvents_forward (events : List CanonicalEvent) :
    let s := (applyEvents events Store.empty).2
    (∀ event k id,
      ((applyEvent event s).2.projections k).lookup id ≠ (s.projections k).lookup id →
      ((applyEvent event s).1 = .ok .applied ∨ (applyEvent event s).1 = .ok .appliedInitial) ∧
        ∃ ev : CanonicalEntityEvent k, event = .entity k ev ∧
          (applyEvent event s).2.entities.lookup ⟨ev.vendorId, k, ev.entityExternalId⟩ = some id) ∧
    (∀ k id (row : Projection k), (s.projections k).lookup id = some row →
      (∀ event, ∃ row', ((applyEvent event s).2.projections k).lookup id = some row' ∧
        (row'.state ≠ row.state → row'.state ∈ transitions k (some row.state))) ∧
      ∀ more, ∃ row', ((applyEvents more s).2.projections k).lookup id = some row' ∧
        row.lastAppliedTs ≤ row'.lastAppliedTs ∧
        (row.state ∈ terminalStates k → row'.state = row.state)) := by
  intro s
  have hs : Sound s := sound_applyEvents sound_empty events
  refine ⟨fun event k id hne => ?_, fun k id row hrow => ⟨fun event => ?_, fun more => ?_⟩⟩
  · cases event with
    | unclassified ev => exact absurd rfl hne
    | entity k' ev =>
      obtain ⟨result, ws, n, hends, happly, -⟩ := applyEvent_entity_ends hs ev
      rw [happly] at hne ⊢
      cases hends with
      | raised unfit new => exact absurd rfl hne
      | applied applies =>
        obtain ⟨houtcome, rfl, hentity⟩ := applies.projection_changed hne
        exact ⟨houtcome.imp (congrArg _) (congrArg _), ev, rfl, hentity⟩
  · obtain ⟨row', hrow', hstate⟩ := row_applyEvent hs event hrow
    exact ⟨row', hrow', fun hne => mem_transitions_of_edge (hstate.resolve_left hne)⟩
  · obtain ⟨row', hrow', htime, -, hterm⟩ := row_applyEvents hs more hrow
    exact ⟨row', hrow', htime, fun h => hterm (terminal_of_mem h)⟩

end WebhookIngestion
