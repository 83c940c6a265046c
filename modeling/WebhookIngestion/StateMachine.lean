import WebhookIngestion.Store

/-! # Entity state machines

The transition tables and the two appliers, statement by statement.  `_apply_shipment`
and `_apply_invoice` keep their own bodies; `applyEntity` is the one program they
both are, once the entity type is a parameter and the tests they make before
rejecting a transition are named (`rejects`). -/
namespace WebhookIngestion
open Programs

inductive ApplyOutcome where
  | applied | appliedInitial | alreadyApplied | staleSkipped | transitionRejected
  | unclassifiedRecorded
  deriving DecidableEq

def ShipmentState.value : ShipmentState → String
  | pickedUp => "PICKED_UP"
  | inTransit => "IN_TRANSIT"
  | outForDelivery => "OUT_FOR_DELIVERY"
  | delivered => "DELIVERED"
  | exception => "EXCEPTION"
  | cancelled => "CANCELLED"

def InvoiceState.value : InvoiceState → String
  | issued => "ISSUED"
  | paid => "PAID"
  | voided => "VOIDED"
  | refunded => "REFUNDED"

/-- `SHIPMENT_TRANSITIONS`. -/
def shipmentTransitions : Option ShipmentState → List ShipmentState
  | none => [.pickedUp, .inTransit, .outForDelivery, .delivered, .exception, .cancelled]
  | some .pickedUp => [.inTransit, .outForDelivery, .delivered, .exception, .cancelled]
  | some .inTransit => [.outForDelivery, .delivered, .exception, .cancelled]
  | some .outForDelivery => [.delivered, .exception]
  | some .exception => [.inTransit, .outForDelivery, .delivered, .cancelled]
  | some .delivered => []
  | some .cancelled => []

/-- `INVOICE_TRANSITIONS`. -/
def invoiceTransitions : Option InvoiceState → List InvoiceState
  | none => [.issued, .paid, .voided, .refunded]
  | some .issued => [.paid, .voided]
  | some .paid => [.refunded]
  | some .voided => []
  | some .refunded => []

/-! ### The appliers -/

/-- `_get_or_create_entity`. -/
def getOrCreateEntity (key : EntityKey) : Tx EntityId := do
  match ← selectEntity key with
  | some id => return id
  | none =>
    match ← insertEntity key with
    | some id => return id
    | none =>
      -- Concurrent insert: read again.
      match ← selectEntity key with
      | some id => return id
      | none => .raise .assertionError

/-- `_log_stale`. -/
def logStale (entityId : EntityId) (eventId : EventId) (reason : String)
    (detail : Option StaleDetail) : Tx Unit :=
  .perform (Sql.insertStaleEvent ⟨entityId, eventId, reason, detail⟩)

/-- `_apply_shipment`, the body of its transaction. -/
def applyShipment (ev : CanonicalShipmentEvent) : Tx ApplyOutcome := do
  let targetState := shipmentEventToState ev.eventType
  let entityId ← getOrCreateEntity ⟨ev.vendorId, .shipment, ev.entityExternalId⟩
  let applied ← insertAppliedEvent entityId ev.eventId targetState.value
  if applied.isNone then
    return .alreadyApplied
  let inserted ← insertProjection .shipment entityId
    { vendorId := ev.vendorId
      externalId := ev.entityExternalId
      state := targetState
      lastAppliedEventId := ev.eventId
      lastAppliedTs := ev.eventTimestamp.instant
      version := 1
      columns := { referenceIds := ev.detail.referenceIds, location := ev.detail.location } }
  if inserted.isSome then
    return .appliedInitial
  match ← selectForUpdate .shipment entityId with
  | none => .raise .assertionError
  | some existing =>
    let currentState := existing.state
    if ev.eventTimestamp.instant < existing.lastAppliedTs then
      logStale entityId ev.eventId "older_than_last_applied"
        (some ⟨currentState.value, existing.lastAppliedTs, ev.eventTimestamp.instant⟩)
      return .staleSkipped
    if targetState ∉ shipmentTransitions (some currentState) then
      logStale entityId ev.eventId
        ("disallowed_transition:" ++ currentState.value ++ "->" ++ targetState.value) none
      return .transitionRejected
    if targetState = currentState then
      let _ ← updateProjection .shipment entityId existing.version fun row =>
        { row with
          lastAppliedEventId := ev.eventId
          lastAppliedTs := ev.eventTimestamp.instant
          version := row.version + 1
          columns := { row.columns with
            referenceIds := row.columns.referenceIds.concat ev.detail.referenceIds } }
      return .applied
    let _ ← updateProjection .shipment entityId existing.version fun row =>
      { row with
        state := targetState
        lastAppliedEventId := ev.eventId
        lastAppliedTs := ev.eventTimestamp.instant
        version := row.version + 1
        columns :=
          { referenceIds := row.columns.referenceIds.concat ev.detail.referenceIds
            location := ev.detail.location.or row.columns.location } }
    return .applied

/-- `_apply_invoice`, the body of its transaction. -/
def applyInvoice (ev : CanonicalInvoiceEvent) : Tx ApplyOutcome := do
  let targetState := invoiceEventToState ev.eventType
  let entityId ← getOrCreateEntity ⟨ev.vendorId, .invoice, ev.entityExternalId⟩
  let applied ← insertAppliedEvent entityId ev.eventId targetState.value
  if applied.isNone then
    return .alreadyApplied
  let currency := ev.detail.amount.map Money.currency
  let amountMinor := ev.detail.amount.map Money.amountMinor
  let inserted ← insertProjection .invoice entityId
    { vendorId := ev.vendorId
      externalId := ev.entityExternalId
      state := targetState
      lastAppliedEventId := ev.eventId
      lastAppliedTs := ev.eventTimestamp.instant
      version := 1
      columns :=
        { currency := currency
          amountMinor := amountMinor
          dueAt := ev.detail.dueAt.map DateTime.instant
          linkedReferences := ev.detail.linkedReferences } }
  if inserted.isSome then
    return .appliedInitial
  match ← selectForUpdate .invoice entityId with
  | none => .raise .assertionError
  | some existing =>
    let currentState := existing.state
    if ev.eventTimestamp.instant < existing.lastAppliedTs then
      logStale entityId ev.eventId "older_than_last_applied"
        (some ⟨currentState.value, existing.lastAppliedTs, ev.eventTimestamp.instant⟩)
      return .staleSkipped
    if targetState ∉ invoiceTransitions (some currentState) ∧ targetState ≠ currentState then
      logStale entityId ev.eventId
        ("disallowed_transition:" ++ currentState.value ++ "->" ++ targetState.value) none
      return .transitionRejected
    if targetState = currentState then
      let _ ← updateProjection .invoice entityId existing.version fun row =>
        { row with
          lastAppliedEventId := ev.eventId
          lastAppliedTs := ev.eventTimestamp.instant
          version := row.version + 1
          columns := { row.columns with
            linkedReferences := row.columns.linkedReferences.concat ev.detail.linkedReferences } }
      return .applied
    let _ ← updateProjection .invoice entityId existing.version fun row =>
      { row with
        state := targetState
        lastAppliedEventId := ev.eventId
        lastAppliedTs := ev.eventTimestamp.instant
        version := row.version + 1
        columns :=
          { currency := currency.or row.columns.currency
            amountMinor := amountMinor.or row.columns.amountMinor
            dueAt := (ev.detail.dueAt.map DateTime.instant).or row.columns.dueAt
            linkedReferences := row.columns.linkedReferences.concat ev.detail.linkedReferences } }
    return .applied

/-- `apply_event`. -/
def applyEvent (event : CanonicalEvent) (s : Store) : Except ApplyError ApplyOutcome × Store :=
  match event with
  | .entity .shipment ev => (applyShipment ev).transaction s
  | .entity .invoice ev => (applyInvoice ev).transaction s
  | .unclassified _ => (.ok .unclassifiedRecorded, s)

/-- A sequence of `apply_event` calls: what each returned, and the store after them. -/
def applyEvents : List CanonicalEvent → Store → List (Except ApplyError ApplyOutcome) × Store
  | [], s => ([], s)
  | event :: events, s =>
    let first := applyEvent event s
    let rest := applyEvents events first.2
    (first.1 :: rest.1, rest.2)

/-! ### One program for both -/

/-- The second read of `_get_or_create_entity`. -/
def rereadEntity (key : EntityKey) : Tx EntityId := do
  match ← selectEntity key with
  | some id => return id
  | none => .raise .assertionError

/-- `_get_or_create_entity` once the first read found nothing. -/
def createEntity (key : EntityKey) : Tx EntityId := do
  match ← insertEntity key with
  | some id => return id
  | none => rereadEntity key

/-- The entity an event is about. -/
abbrev CanonicalEntityEvent.key {k : EntityType} (ev : CanonicalEntityEvent k) : EntityKey :=
  ⟨ev.vendorId, k, ev.entityExternalId⟩

/-- The text of a state. -/
def stateValue : (k : EntityType) → StateOf k → String
  | .shipment => ShipmentState.value
  | .invoice => InvoiceState.value

/-- The transition table of an entity type. -/
def transitions : (k : EntityType) → Option (StateOf k) → List (StateOf k)
  | .shipment => shipmentTransitions
  | .invoice => invoiceTransitions

/-- The tests made before a transition is rejected.  A shipment is not asked whether
the target is the current state. -/
def rejects : (k : EntityType) → (current target : StateOf k) → Prop
  | .shipment, current, target => target ∉ shipmentTransitions (some current)
  | .invoice, current, target => target ∉ invoiceTransitions (some current) ∧ target ≠ current

instance : (k : EntityType) → (current target : StateOf k) → Decidable (rejects k current target)
  | .shipment, current, target =>
    inferInstanceAs (Decidable (target ∉ shipmentTransitions (some current)))
  | .invoice, current, target =>
    inferInstanceAs (Decidable (target ∉ invoiceTransitions (some current) ∧ target ≠ current))

/-- The columns of a first event. -/
def initialColumns : {k : EntityType} → CanonicalEntityEvent k → ColumnsOf k
  | .shipment, ev => { referenceIds := ev.detail.referenceIds, location := ev.detail.location }
  | .invoice, ev =>
    { currency := ev.detail.amount.map Money.currency
      amountMinor := ev.detail.amount.map Money.amountMinor
      dueAt := ev.detail.dueAt.map DateTime.instant
      linkedReferences := ev.detail.linkedReferences }

/-- Whether the event's amount, if it has one, is in the range of its column. -/
def CanonicalEntityEvent.fits {k : EntityType} (ev : CanonicalEntityEvent k) : Bool :=
  (DetailOf.amount? ev.detail).all fun amount => fitsBigint amount.amountMinor

theorem encodes_initialColumns : ∀ {k : EntityType} (ev : CanonicalEntityEvent k),
    encodesColumns k (initialColumns ev) = ev.fits
  | .shipment, _ => rfl
  | .invoice, ev => by
    show (ev.detail.amount.map Money.amountMinor).all fitsBigint =
      ev.detail.amount.all fun amount => fitsBigint amount.amountMinor
    cases ev.detail.amount <;> rfl

/-- The columns after an event that repeats the state. -/
def repeatColumns : {k : EntityType} → CanonicalEntityEvent k → ColumnsOf k → ColumnsOf k
  | .shipment, ev, columns =>
    { columns with referenceIds := columns.referenceIds.concat ev.detail.referenceIds }
  | .invoice, ev, columns =>
    { columns with linkedReferences := columns.linkedReferences.concat ev.detail.linkedReferences }

/-- The columns after an event that moves the state. -/
def moveColumns : {k : EntityType} → CanonicalEntityEvent k → ColumnsOf k → ColumnsOf k
  | .shipment, ev, columns =>
    { referenceIds := columns.referenceIds.concat ev.detail.referenceIds
      location := ev.detail.location.or columns.location }
  | .invoice, ev, columns =>
    { currency := (ev.detail.amount.map Money.currency).or columns.currency
      amountMinor := (ev.detail.amount.map Money.amountMinor).or columns.amountMinor
      dueAt := (ev.detail.dueAt.map DateTime.instant).or columns.dueAt
      linkedReferences := columns.linkedReferences.concat ev.detail.linkedReferences }

section ApplyEntity
variable {k : EntityType} (ev : CanonicalEntityEvent k)

/-- The row a first event inserts. -/
def initialRow : Projection k :=
  { vendorId := ev.vendorId
    externalId := ev.entityExternalId
    state := ev.targetState
    lastAppliedEventId := ev.eventId
    lastAppliedTs := ev.eventTimestamp.instant
    version := 1
    columns := initialColumns ev }

/-- What an event that repeats the state sets. -/
def repeatRow (row : Projection k) : Projection k :=
  { row with
    lastAppliedEventId := ev.eventId
    lastAppliedTs := ev.eventTimestamp.instant
    version := row.version + 1
    columns := repeatColumns ev row.columns }

/-- What an event that moves the state sets. -/
def moveRow (row : Projection k) : Projection k :=
  { row with
    state := ev.targetState
    lastAppliedEventId := ev.eventId
    lastAppliedTs := ev.eventTimestamp.instant
    version := row.version + 1
    columns := moveColumns ev row.columns }

/-- The log entry of an event older than the projection. -/
def olderNote (current : StateOf k) (last now : Int) : StaleNote :=
  ⟨"older_than_last_applied", some ⟨stateValue k current, last, now⟩⟩

/-- The log entry of a rejected event. -/
def disallowedNote (current target : StateOf k) : StaleNote :=
  ⟨"disallowed_transition:" ++ stateValue k current ++ "->" ++ stateValue k target, none⟩

/-- What is left to do once the projection row is locked and read. -/
def applyExisting (entityId : EntityId) (existing : Projection k) : Tx ApplyOutcome := do
  if ev.eventTimestamp.instant < existing.lastAppliedTs then
    .perform (Sql.insertStaleEvent ⟨entityId, ev.eventId,
      olderNote existing.state existing.lastAppliedTs ev.eventTimestamp.instant⟩)
    return .staleSkipped
  if rejects k existing.state ev.targetState then
    .perform (Sql.insertStaleEvent ⟨entityId, ev.eventId, disallowedNote existing.state ev.targetState⟩)
    return .transitionRejected
  if ev.targetState = existing.state then
    let _ ← updateProjection k entityId existing.version (repeatRow ev)
    return .applied
  let _ ← updateProjection k entityId existing.version (moveRow ev)
  return .applied

/-- What is left to do once the event is recorded as observed. -/
def applyObserved (entityId : EntityId) : Tx ApplyOutcome := do
  let inserted ← insertProjection k entityId (initialRow ev)
  if inserted.isSome then
    return .appliedInitial
  match ← selectForUpdate k entityId with
  | none => .raise .assertionError
  | some existing => applyExisting ev entityId existing

/-- What is left to do once the entity is known. -/
def applyTo (entityId : EntityId) : Tx ApplyOutcome := do
  let applied ← insertAppliedEvent entityId ev.eventId (stateValue k ev.targetState)
  if applied.isNone then
    return .alreadyApplied
  applyObserved ev entityId

/-- The program both appliers are. -/
def applyEntity : Tx ApplyOutcome := do
  let entityId ← getOrCreateEntity ev.key
  applyTo ev entityId

end ApplyEntity

theorem applyShipment_eq (ev : CanonicalShipmentEvent) : applyShipment ev = applyEntity ev := by
  refine congrArg (getOrCreateEntity _ >>= ·) (funext fun entityId => ?_)
  refine congrArg (insertAppliedEvent _ _ _ >>= ·) (funext fun applied => if_congr Iff.rfl rfl ?_)
  refine congrArg (insertProjection _ _ _ >>= ·) (funext fun inserted => if_congr Iff.rfl rfl ?_)
  refine congrArg (selectForUpdate _ _ >>= ·) (funext fun existing => ?_)
  cases existing <;> rfl

theorem applyInvoice_eq (ev : CanonicalInvoiceEvent) : applyInvoice ev = applyEntity ev := by
  refine congrArg (getOrCreateEntity _ >>= ·) (funext fun entityId => ?_)
  refine congrArg (insertAppliedEvent _ _ _ >>= ·) (funext fun applied => if_congr Iff.rfl rfl ?_)
  refine congrArg (insertProjection _ _ _ >>= ·) (funext fun inserted => if_congr Iff.rfl rfl ?_)
  refine congrArg (selectForUpdate _ _ >>= ·) (funext fun existing => ?_)
  cases existing <;> rfl

/-- **Applying an event to its entity is one program, whatever the entity type.** -/
theorem applyEvent_entity {k : EntityType} (ev : CanonicalEntityEvent k) (s : Store) :
    applyEvent (.entity k ev) s = (applyEntity ev).transaction s := by
  cases k with
  | shipment => rw [applyEvent, applyShipment_eq]
  | invoice => rw [applyEvent, applyInvoice_eq]

end WebhookIngestion
