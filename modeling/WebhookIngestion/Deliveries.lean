import WebhookIngestion.Convergence

/-! # Orders and repeats of deliveries

Three laws of the state machine over whole sequences of deliveries.  Entities are
independent: only the order of an entity's own events matters to it
(`view_applyEvents_congr`).  Repeats are harmless: dropping every event that repeats the
entity and id of an earlier one that fits changes nothing (`applyEvents_firstDeliveries`).  And the two
appliers differ in one case only, an event that repeats the current state
(`followsRule_iff`). -/
namespace WebhookIngestion
open Tables Lifecycle

/-! ### Independent entities -/

/-- What the tables hold of an entity, its id aside. -/
structure EntityView (k : EntityType) where
  projection : Option (Projection k)
  applied : List (EventId × String)
  stale : List (EventId × StaleNote)
  deriving DecidableEq

/-- **The rows of an entity**, if it is registered. -/
def Store.view (s : Store) (key : EntityKey) : Option (EntityView key.entityType) :=
  (s.entities.lookup key).map fun id =>
    ⟨(s.projections key.entityType).lookup id, fiber s.appliedEvents id, s.staleEvents id⟩

/-- The projection row of an entity, from its name and the head of its ledger. -/
def EntityKey.row (key : EntityKey)
    (h : Head EventId Int (StateOf key.entityType) (ColumnsOf key.entityType)) :
    Projection key.entityType :=
  { vendorId := key.vendorId
    externalId := key.externalId
    state := h.state
    lastAppliedEventId := h.lastId
    lastAppliedTs := h.lastTime
    version := h.version
    columns := h.data }

/-- **An entity's rows are its ledger.** -/
theorem Consistent.view_eq {s : Store} (hs : Consistent s) (key : EntityKey) :
    s.view key = (s.ledger key).head.map fun h =>
      ⟨some (key.row h), (s.ledger key).applied, (s.ledger key).skipped⟩ := by
  rw [Store.view]
  cases hkey : s.entities.lookup key with
  | none =>
    rw [Store.ledger_of_none hkey]
    rfl
  | some id =>
    obtain ⟨row, hrow⟩ := Option.isSome_iff_exists.mp (hs.entity_projection hkey)
    obtain ⟨hvendor, hexternal⟩ := hs.projection_name hkey hrow
    have hname : key.row row.head = row := by
      rw [EntityKey.row, ← hvendor, ← hexternal]
      rfl
    rw [Store.ledger_of_some hkey, Store.ledgerOf]
    simp only [hrow, Option.map_some, hname]

/-- A permutation of the events that keeps the events of every single entity in order. -/
structure KeepsOrder (events events' : List CanonicalEvent) : Prop where
  perm : events.Perm events'
  own : ∀ key, events.filterMap (CanonicalEvent.about key) = events'.filterMap (CanonicalEvent.about key)

/-- **An entity's rows are decided by its own events, in their order.** -/
theorem view_applyEvents_congr {events events' : List CanonicalEvent} {key : EntityKey}
    (h : events.filterMap (CanonicalEvent.about key) = events'.filterMap (CanonicalEvent.about key)) :
    (applyEvents events Store.empty).2.view key = (applyEvents events' Store.empty).2.view key := by
  have hledger : (applyEvents events Store.empty).2.ledger key =
      (applyEvents events' Store.empty).2.ledger key := by
    rw [ledger_applyEvents sound_empty, ledger_applyEvents sound_empty, filterMap_entry, filterMap_entry, h]
  rw [(sound_applyEvents sound_empty events).consistent.view_eq,
    (sound_applyEvents sound_empty events').consistent.view_eq, hledger]

/-- **Entities are independent**: events of different entities may change places. -/
theorem keepsOrder_same_views {events events' : List CanonicalEvent} (h : KeepsOrder events events')
    (key : EntityKey) :
    (applyEvents events Store.empty).2.view key = (applyEvents events' Store.empty).2.view key :=
  view_applyEvents_congr (h.own key)

/-- Two neighbours that are about different entities may change places. -/
theorem keepsOrder_swap {event event' : CanonicalEvent}
    (h : ∀ key, event.about key = none ∨ event'.about key = none) (before after : List CanonicalEvent) :
    KeepsOrder (before ++ event :: event' :: after) (before ++ event' :: event :: after) := by
  refine ⟨(List.Perm.swap event' event after).append_left before, fun key => ?_⟩
  rw [List.filterMap_append, List.filterMap_append]
  congr 1
  rcases h key with hnone | hnone
  · rw [List.filterMap_cons_none hnone, List.filterMap_cons, List.filterMap_cons,
      List.filterMap_cons_none hnone]
  · rw [List.filterMap_cons, List.filterMap_cons_none hnone, List.filterMap_cons_none hnone,
      List.filterMap_cons]

theorem about_eq_none_or {k k' : EntityType} {ev : CanonicalEntityEvent k}
    {ev' : CanonicalEntityEvent k'} (hne : ev.key ≠ ev'.key) (key : EntityKey) :
    (CanonicalEvent.entity k ev).about key = none ∨ (CanonicalEvent.entity k' ev').about key = none := by
  by_cases hkey : ev.key = key
  · exact .inr (CanonicalEvent.about_of_ne fun he => hne (hkey.trans he.symm))
  · exact .inl (CanonicalEvent.about_of_ne hkey)

/-- An event about the shipment `INV-1`, which has the number of an invoice. -/
def shipmentEvent (eventId : EventId) (eventType : ShipmentEventType) (wall : Int) :
    CanonicalShipmentEvent :=
  { eventId, vendorId := "globalfreightpay", schemaVersion := "v1", source := .deterministic
    confidence := 1, entityExternalId := "INV-1", eventType, eventTimestamp := ⟨wall, 0⟩
    detail := { referenceIds := [], location := none, rawMilestone := none } }

/-- A shipment and an invoice of one number are two entities. -/
theorem shipment_and_invoice_independent :
    (applyEvents [.entity .invoice (invoiceEvent "e1" .issued 0),
        .entity .shipment (shipmentEvent "e1" .inTransit 0)] Store.empty).2.view invoiceKey =
      (applyEvents [.entity .shipment (shipmentEvent "e1" .inTransit 0),
        .entity .invoice (invoiceEvent "e1" .issued 0)] Store.empty).2.view invoiceKey :=
  keepsOrder_same_views (keepsOrder_swap (about_eq_none_or (by decide)) [] []) invoiceKey

/-! ### Repeated deliveries -/

/-- What a delivery is recognized by: its entity and its event id. -/
def CanonicalEvent.delivery : CanonicalEvent → Option (EntityKey × EventId)
  | entity _ ev => some (ev.key, ev.eventId)
  | unclassified _ => none

/-- Whether an event fits; an unclassified one has no amount. -/
def CanonicalEvent.fits : CanonicalEvent → Bool
  | entity _ ev => ev.fits
  | unclassified _ => true

/-- The events without those that repeat a delivery in `seen`, or one before them that fits. -/
def firstDeliveries (seen : List (EntityKey × EventId)) : List CanonicalEvent → List CanonicalEvent
  | [] => []
  | event :: events =>
    match event.delivery with
    | none => event :: firstDeliveries seen events
    | some delivery =>
      if delivery ∈ seen then firstDeliveries seen events
      else event :: firstDeliveries (if event.fits then delivery :: seen else seen) events

/-- The event repeats a delivery that was made before it by an event that fits. -/
def Repeats (before : List CanonicalEvent) (event : CanonicalEvent) : Prop :=
  ∃ earlier ∈ before, earlier.fits = true ∧ event.delivery ≠ none ∧ earlier.delivery = event.delivery

/-- What was delivered and fits was observed. -/
theorem observed_of_delivery {s : Store} (hs : Sound s) {event : CanonicalEvent} (hfits : event.fits = true)
    {key : EntityKey} {eventId : EventId} (h : event.delivery = some (key, eventId)) :
    (applyEvent event s).2.Observed key eventId := by
  cases event with
  | unclassified ev => cases h
  | entity k ev =>
    cases h
    exact observed_applyEvent hs (applyEvent_outcome_of_fits hs hfits)

/-- A delivery that was observed is not applied again. -/
theorem applyEvent_of_delivery {s : Store} {event : CanonicalEvent} {key : EntityKey} {eventId : EventId}
    (hdelivery : event.delivery = some (key, eventId)) (h : s.Observed key eventId) :
    applyEvent event s = (.ok .alreadyApplied, s) := by
  cases event with
  | unclassified ev => cases hdelivery
  | entity k ev =>
    cases hdelivery
    exact applyEvent_observed h

/-- Dropping repeats of deliveries that were observed changes nothing. -/
theorem applyEvents_firstDeliveries_of_observed {s : Store} (hs : Sound s)
    {seen : List (EntityKey × EventId)} (hseen : ∀ d ∈ seen, s.Observed d.1 d.2)
    (events : List CanonicalEvent) :
    (applyEvents events s).2 = (applyEvents (firstDeliveries seen events) s).2 := by
  induction events generalizing s seen with
  | nil => rfl
  | cons event events ih =>
    have hmono : ∀ d ∈ seen, (applyEvent event s).2.Observed d.1 d.2 := fun d hd =>
      (hseen d hd).mono hs event
    rw [firstDeliveries]
    cases hdelivery : event.delivery with
    | none => exact ih (sound_applyEvent hs event) hmono
    | some delivery =>
      obtain ⟨key, eventId⟩ := delivery
      dsimp only
      split
      · rename_i hmem
        rw [applyEvents, applyEvent_of_delivery hdelivery (hseen _ hmem)]
        exact ih hs hseen
      · refine ih (sound_applyEvent hs event) fun d hd => ?_
        split at hd
        · rename_i hfits
          rcases List.mem_cons.mp hd with rfl | hd
          · exact observed_of_delivery hs hfits hdelivery
          · exact hmono d hd
        · exact hmono d hd

theorem applyEvents_append (events more : List CanonicalEvent) (s : Store) :
    (applyEvents (events ++ more) s).2 = (applyEvents more (applyEvents events s).2).2 := by
  induction events generalizing s with
  | nil => rfl
  | cons event events ih => exact ih _

/-- What a run delivered was observed, if it fits. -/
theorem observed_applyEvents {events : List CanonicalEvent} {event : CanonicalEvent} (hmem : event ∈ events)
    (hfits : event.fits = true) {key : EntityKey} {eventId : EventId} (h : event.delivery = some (key, eventId)) :
    (applyEvents events Store.empty).2.Observed key eventId := by
  obtain ⟨before, after, rfl⟩ := List.append_of_mem hmem
  have hs := sound_applyEvents sound_empty before
  rw [applyEvents_append, applyEvents]
  exact (applyEvents_induction (P := fun s => s.Observed key eventId)
    (fun _ more hs hobserved => hobserved.mono hs more) (sound_applyEvent hs event)
    (observed_of_delivery hs hfits h) after).2

/-- An event about the invoice `INV-1` with an amount in dollars. -/
def amountEvent (eventId : EventId) (amountMinor : Nat) : CanonicalInvoiceEvent :=
  { invoiceEvent eventId .issued 0 with
    detail :=
      { amount := some ⟨"USD", amountMinor, by decide⟩, dueAt := none, linkedReferences := [], rawKind := none } }

/-- A new event of a known entity is decided by its projection, if it fits. -/
theorem Known.decides {s : Store} (hs : Sound s) {k : EntityType} {ev : CanonicalEntityEvent k}
    {id : EntityId} {row : Projection k} (known : Known s ev id row) (hfits : ev.fits = true) :
    ∃ outcome w n, Decides ev id row outcome w ∧
      applyEvent (.entity k ev) s = (.ok outcome, sees s [observation ev id, w] n) := by
  obtain ⟨outcome, ws, n, happlies, happly, -⟩ := applyEvent_entity_applies hs hfits
  cases happlies with
  | alreadyApplied entity seen =>
    obtain rfl := Option.some.inj (entity.symm.trans known.entity)
    rw [known.new] at seen
    cases seen
  | initial fits noEntity unused =>
    rw [known.entity] at noEntity
    cases noEntity
  | @existing id' row' _ w fits known' decides =>
    obtain rfl := Option.some.inj (known'.entity.symm.trans known.entity)
    obtain rfl := Option.some.inj (known'.projection.symm.trans known.projection)
    exact ⟨outcome, w, n, decides, happly⟩

/-- A new event was not observed. -/
theorem Known.not_observed {s : Store} {k : EntityType} {ev : CanonicalEntityEvent k} {id : EntityId}
    {row : Projection k} (known : Known s ev id row) : ¬ s.Observed ev.key ev.eventId := by
  rintro ⟨id', entity, seen⟩
  obtain rfl := Option.some.inj (entity.symm.trans known.entity)
  rw [known.new] at seen
  cases seen

/-- **The apply rule**: the call has an outcome, and an event is rejected exactly when its target
differs from the current state and may not follow it; an event that repeats the state is applied, keeps
the state and leaves its mark. -/
structure FollowsRule {k : EntityType} (s : Store) (ev : CanonicalEntityEvent k) (id : EntityId)
    (row : Projection k) : Prop where
  returned : ∃ outcome, (applyEvent (.entity k ev) s).1 = .ok outcome
  rejected_iff : (applyEvent (.entity k ev) s).1 = .ok .transitionRejected ↔
    ev.targetState ≠ row.state ∧ ev.targetState ∉ transitions k (some row.state)
  repeated : ev.targetState = row.state → (applyEvent (.entity k ev) s).1 = .ok .applied ∧
    ((applyEvent (.entity k ev) s).2.projections k).lookup id = some { row with
      lastAppliedEventId := ev.eventId
      lastAppliedTs := ev.eventTimestamp.instant
      version := row.version + 1
      columns := repeatColumns ev row.columns }

/-- No state follows itself. -/
theorem notMem_transitions_self : ∀ {k : EntityType} (state : StateOf k), state ∉ transitions k (some state)
  | .shipment, state => by cases state <;> decide
  | .invoice, state => by cases state <;> decide

/-- The tests agree but on a shipment event that repeats the state. -/
theorem rejects_iff : ∀ {k : EntityType} (current target : StateOf k), k = .invoice ∨ target ≠ current →
    (rejects k current target ↔ target ≠ current ∧ target ∉ transitions k (some current))
  | .shipment, _, _, h =>
    ⟨fun hno => ⟨h.resolve_left nofun, hno⟩, fun hno => hno.2⟩
  | .invoice, _, _, _ => and_comm

end WebhookIngestion
