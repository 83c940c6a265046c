import WebhookIngestion.Json

/-! # Canonical events

The internal representation every adapter produces and the state machine
consumes.  Shipment and invoice events are one structure over the entity type:
they share the base fields, the entity's external id, the event type and the
timestamp, and differ in their `detail`. -/
namespace WebhookIngestion

/-- What an event is about; `unclassified` events touch no entity. -/
inductive Classification where
  | shipment | invoice | unclassified
  deriving DecidableEq

def Classification.value : Classification → String
  | shipment => "shipment"
  | invoice => "invoice"
  | unclassified => "unclassified"

/-- The two kinds of entity (`entities.entity_type`). -/
inductive EntityType where
  | shipment | invoice
  deriving DecidableEq

def EntityType.classification : EntityType → Classification
  | shipment => .shipment
  | invoice => .invoice

inductive ShipmentEventType where
  | pickedUp | inTransit | outForDelivery | delivered | exception | cancelled
  deriving DecidableEq

inductive InvoiceEventType where
  | issued | paid | voided | refunded
  deriving DecidableEq

inductive ShipmentState where
  | pickedUp | inTransit | outForDelivery | delivered | exception | cancelled
  deriving DecidableEq

inductive InvoiceState where
  | issued | paid | voided | refunded
  deriving DecidableEq

def ShipmentEventType.value : ShipmentEventType → String
  | pickedUp => "shipment.picked_up"
  | inTransit => "shipment.in_transit"
  | outForDelivery => "shipment.out_for_delivery"
  | delivered => "shipment.delivered"
  | exception => "shipment.exception"
  | cancelled => "shipment.cancelled"

def InvoiceEventType.value : InvoiceEventType → String
  | issued => "invoice.issued"
  | paid => "invoice.paid"
  | voided => "invoice.voided"
  | refunded => "invoice.refunded"

/-- `ShipmentEventType(value)`; `none` is its `ValueError`. -/
def ShipmentEventType.ofValue? (value : String) : Option ShipmentEventType :=
  [pickedUp, inTransit, outForDelivery, delivered, exception, cancelled].find? (·.value = value)

/-- `InvoiceEventType(value)`; `none` is its `ValueError`. -/
def InvoiceEventType.ofValue? (value : String) : Option InvoiceEventType :=
  [issued, paid, voided, refunded].find? (·.value = value)

/-- `SHIPMENT_EVENT_TO_STATE`. -/
def shipmentEventToState : ShipmentEventType → ShipmentState
  | .pickedUp => .pickedUp
  | .inTransit => .inTransit
  | .outForDelivery => .outForDelivery
  | .delivered => .delivered
  | .exception => .exception
  | .cancelled => .cancelled

/-- `INVOICE_EVENT_TO_STATE`. -/
def invoiceEventToState : InvoiceEventType → InvoiceState
  | .issued => .issued
  | .paid => .paid
  | .voided => .voided
  | .refunded => .refunded

/-- The path that produced an event. -/
inductive Source where
  | deterministic | llm | llmCache
  deriving DecidableEq

/-- An aware `datetime`: the wall-clock reading and its UTC offset, in
microseconds, the reading counted from 0001-01-01T00:00. -/
structure DateTime where
  wall : Int
  utcoffset : Int
  deriving DecidableEq

/-- The instant a `datetime` denotes; aware datetimes compare by it. -/
def DateTime.instant (t : DateTime) : Int := t.wall - t.utcoffset

/-- `^[A-Z]{3}$`. -/
def isCurrencyCode (s : String) : Bool :=
  s.toList.length = 3 && s.toList.all fun c => 'A' ≤ c && c ≤ 'Z'

/-- Currency-aware money in integer minor units; the fields' constraints are the
model's own. -/
structure Money where
  currency : String
  amountMinor : Nat
  currency_ok : isCurrencyCode currency = true
  deriving DecidableEq

structure Location where
  code : Option String
  name : Option String
  latitude : Option PyFloat
  longitude : Option PyFloat
  deriving DecidableEq

/-- The fields of a shipment event beyond the shared ones. -/
structure ShipmentDetail where
  referenceIds : JsonObject
  location : Option Location
  rawMilestone : Option String
  deriving DecidableEq

/-- The fields of an invoice event beyond the shared ones. -/
structure InvoiceDetail where
  amount : Option Money
  dueAt : Option DateTime
  linkedReferences : JsonObject
  rawKind : Option String
  deriving DecidableEq

/-! ### What depends on the entity type -/

@[reducible] def EventTypeOf : EntityType → Type
  | .shipment => ShipmentEventType
  | .invoice => InvoiceEventType

@[reducible] def StateOf : EntityType → Type
  | .shipment => ShipmentState
  | .invoice => InvoiceState

@[reducible] def DetailOf : EntityType → Type
  | .shipment => ShipmentDetail
  | .invoice => InvoiceDetail

instance : (k : EntityType) → DecidableEq (EventTypeOf k)
  | .shipment => inferInstanceAs (DecidableEq ShipmentEventType)
  | .invoice => inferInstanceAs (DecidableEq InvoiceEventType)

instance : (k : EntityType) → DecidableEq (StateOf k)
  | .shipment => inferInstanceAs (DecidableEq ShipmentState)
  | .invoice => inferInstanceAs (DecidableEq InvoiceState)

instance : (k : EntityType) → DecidableEq (DetailOf k)
  | .shipment => inferInstanceAs (DecidableEq ShipmentDetail)
  | .invoice => inferInstanceAs (DecidableEq InvoiceDetail)

/-- `ShipmentEventType(value)` or `InvoiceEventType(value)`. -/
def EventTypeOf.ofValue? : (k : EntityType) → String → Option (EventTypeOf k)
  | .shipment, value => ShipmentEventType.ofValue? value
  | .invoice, value => InvoiceEventType.ofValue? value

/-- The value of an event type. -/
def eventTypeValue : (k : EntityType) → EventTypeOf k → String
  | .shipment => ShipmentEventType.value
  | .invoice => InvoiceEventType.value

theorem eventTypeValue_of_ofValue? {k : EntityType} {value : String} {type : EventTypeOf k}
    (h : EventTypeOf.ofValue? k value = some type) : eventTypeValue k type = value := by
  cases k with
  | shipment =>
    rw [EventTypeOf.ofValue?, ShipmentEventType.ofValue?] at h
    have hvalue := List.find?_some h
    exact of_decide_eq_true hvalue
  | invoice =>
    rw [EventTypeOf.ofValue?, InvoiceEventType.ofValue?] at h
    have hvalue := List.find?_some h
    exact of_decide_eq_true hvalue

/-- The state an event of type `t` asks for. -/
def eventToState : (k : EntityType) → EventTypeOf k → StateOf k
  | .shipment => shipmentEventToState
  | .invoice => invoiceEventToState

/-! ### The events -/

/-- `_CanonicalBase`. -/
structure CanonicalBase where
  eventId : String
  vendorId : String
  schemaVersion : String
  source : Source
  confidence : Rat
  deriving DecidableEq

/-- An event about an entity of type `k`. -/
structure CanonicalEntityEvent (k : EntityType) extends CanonicalBase where
  entityExternalId : String
  eventType : EventTypeOf k
  eventTimestamp : DateTime
  detail : DetailOf k
  deriving DecidableEq

abbrev CanonicalShipmentEvent := CanonicalEntityEvent .shipment
abbrev CanonicalInvoiceEvent := CanonicalEntityEvent .invoice

structure CanonicalUnclassifiedEvent extends CanonicalBase where
  summary : Option String
  reason : Option String
  deriving DecidableEq

/-- The tagged union. -/
inductive CanonicalEvent where
  | entity (k : EntityType) (ev : CanonicalEntityEvent k)
  | unclassified (ev : CanonicalUnclassifiedEvent)
  deriving DecidableEq

namespace CanonicalEvent

def base : CanonicalEvent → CanonicalBase
  | entity _ ev => ev.toCanonicalBase
  | unclassified ev => ev.toCanonicalBase

def classification : CanonicalEvent → Classification
  | entity k _ => k.classification
  | unclassified _ => .unclassified

/-- `canonical.model_copy(update={"vendor_id": vendorId})`, which validates nothing. -/
def withVendorId (vendorId : String) : CanonicalEvent → CanonicalEvent
  | entity k ev => entity k { ev with vendorId := vendorId }
  | unclassified ev => unclassified { ev with vendorId := vendorId }

end CanonicalEvent

/-- The amount of an invoice event; a shipment event has none. -/
def DetailOf.amount? : {k : EntityType} → DetailOf k → Option Money
  | .shipment, _ => none
  | .invoice, detail => detail.amount

/-- The due date of an invoice event. -/
def DetailOf.dueAt? : {k : EntityType} → DetailOf k → Option DateTime
  | .shipment, _ => none
  | .invoice, detail => detail.dueAt

/-- The state an entity event asks its entity to move to. -/
def CanonicalEntityEvent.targetState {k : EntityType} (ev : CanonicalEntityEvent k) : StateOf k :=
  eventToState k ev.eventType

end WebhookIngestion
