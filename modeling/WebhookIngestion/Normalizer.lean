import WebhookIngestion.Parsers
import Mathlib.Data.Rat.Defs
import Mathlib.Algebra.Order.Ring.Rat

/-! # The canonical event normalizer

The checkpoint between extraction and projection: timestamps in UTC, texts stripped,
confidence clamped.  Normalizing builds the event anew, so its model validates it again. -/
namespace WebhookIngestion
open Text Programs

/-- `_strip_or_none`. -/
def stripOrNone (val : Option String) : Option String :=
  match val.map strip with
  | some stripped => if stripped = "" then none else some stripped
  | none => none

/-- `_to_utc`. -/
def toUtc (dt : DateTime) : Except PyError DateTime := astimezoneUtc dt.wall dt.utcoffset

/-- `_clamp_confidence`. -/
def clampConfidence (val : Rat) : Rat := max 0 (min 1 val)

/-- `_normalize_money`. -/
def normalizeMoney : Option Money → Except PyError (Option Money)
  | none => return none
  | some money => do
    let normalized ← Money.validate (String.ofList (upper money.currency.toList)) (max 0 money.amountMinor)
    return some normalized

/-- `_normalize_location`. -/
def normalizeLocation (loc : Option Location) : Option Location :=
  match loc with
  | none => none
  | some loc =>
    let code := stripOrNone loc.code
    let name := stripOrNone loc.name
    if code.isNone ∧ name.isNone then none
    else some { code, name, latitude := loc.latitude, longitude := loc.longitude }

/-- `_clean_ref_dict`. -/
def cleanRefDict (refs : JsonObject) : JsonObject :=
  refs.filterMap fun (k, v) =>
    match v with
    | .null => none
    | .str s => if strip s = "" then none else some (k, .str (strip s))
    | v => some (k, v)

/-- The shared fields. -/
def normalizeBase (base : CanonicalBase) : CanonicalBase :=
  { eventId := base.eventId
    vendorId := strip base.vendorId
    schemaVersion := base.schemaVersion
    source := base.source
    confidence := clampConfidence base.confidence }

/-- `_normalize_shipment`. -/
def normalizeShipment (ev : CanonicalShipmentEvent) : Except PyError CanonicalShipmentEvent := do
  let eventTimestamp ← toUtc ev.eventTimestamp
  CanonicalEntityEvent.validate
    { normalizeBase ev.toCanonicalBase with
      entityExternalId := strip ev.entityExternalId
      eventType := ev.eventType
      eventTimestamp
      detail :=
        { referenceIds := cleanRefDict ev.detail.referenceIds
          location := normalizeLocation ev.detail.location
          rawMilestone := stripOrNone ev.detail.rawMilestone } }

/-- `_normalize_invoice`. -/
def normalizeInvoice (ev : CanonicalInvoiceEvent) : Except PyError CanonicalInvoiceEvent := do
  let eventTimestamp ← toUtc ev.eventTimestamp
  let amount ← normalizeMoney ev.detail.amount
  let dueAt ← ev.detail.dueAt.mapM toUtc
  CanonicalEntityEvent.validate
    { normalizeBase ev.toCanonicalBase with
      entityExternalId := strip ev.entityExternalId
      eventType := ev.eventType
      eventTimestamp
      detail :=
        { amount
          dueAt
          linkedReferences := cleanRefDict ev.detail.linkedReferences
          rawKind := stripOrNone ev.detail.rawKind } }

/-- `_normalize_unclassified`. -/
def normalizeUnclassified (ev : CanonicalUnclassifiedEvent) :
    Except PyError CanonicalUnclassifiedEvent :=
  CanonicalUnclassifiedEvent.validate
    { normalizeBase ev.toCanonicalBase with
      summary := stripOrNone ev.summary
      reason := stripOrNone ev.reason }

/-- `normalize`. -/
def normalize : CanonicalEvent → Except PyError CanonicalEvent
  | .entity .shipment ev => return .entity .shipment (← normalizeShipment ev)
  | .entity .invoice ev => return .entity .invoice (← normalizeInvoice ev)
  | .unclassified ev => return .unclassified (← normalizeUnclassified ev)

/-! ### What normalizing keeps -/

/-- Money is normal as it is. -/
theorem normalizeMoney_eq (amount : Option Money) : normalizeMoney amount = .ok amount := by
  cases amount with
  | none => rfl
  | some money =>
    obtain ⟨currency, amountMinor, hcurrency⟩ := money
    have hupper : String.ofList (upper currency.toList) = currency := by
      rw [isCurrencyCode, Bool.and_eq_true] at hcurrency
      rw [upper_of_isAsciiUpper hcurrency.2, String.ofList_toList]
    have hnonneg : ¬ max 0 (amountMinor : Int) < 0 := by omega
    simp only [normalizeMoney, hupper, Money.validate, dif_pos hcurrency, if_neg hnonneg]
    have htoNat : (max 0 (amountMinor : Int)).toNat = amountMinor := by omega
    simp only [htoNat]
    rfl

section Fields

theorem CanonicalEntityEvent.validate_eq_ok {k : EntityType} {ev ev' : CanonicalEntityEvent k} :
    ev.validate = .ok ev' ↔ ev.toCanonicalBase.validate = .ok () ∧ ev' = ev := by
  rw [CanonicalEntityEvent.validate, bind_eq_ok]
  exact ⟨fun ⟨_, h, h'⟩ => ⟨h, (Except.ok.inj h').symm⟩, fun ⟨h, h'⟩ => ⟨(), h, h' ▸ rfl⟩⟩

/-- What normalizing leaves of an event about an entity. -/
structure Normalized {k : EntityType} (ev normalized : CanonicalEntityEvent k) : Prop where
  base : normalized.toCanonicalBase = normalizeBase ev.toCanonicalBase
  entityExternalId : normalized.entityExternalId = strip ev.entityExternalId
  eventType : normalized.eventType = ev.eventType
  utc : toUtc ev.eventTimestamp = .ok normalized.eventTimestamp
  amount : DetailOf.amount? normalized.detail = DetailOf.amount? ev.detail

theorem instant_toUtc {t t' : DateTime} (h : toUtc t = .ok t') : t'.instant = t.instant := by
  obtain ⟨rfl, -⟩ := astimezoneUtc_eq_ok h
  exact Int.sub_zero _

theorem Normalized.eventTimestamp {k : EntityType} {ev normalized : CanonicalEntityEvent k}
    (h : Normalized ev normalized) : normalized.eventTimestamp.instant = ev.eventTimestamp.instant :=
  instant_toUtc h.utc

/-- **Normalizing strips the names and keeps type and instant**, and nothing is dropped. -/
theorem normalized_of_normalize {k : EntityType} {ev : CanonicalEntityEvent k} {event : CanonicalEvent}
    (h : normalize (.entity k ev) = .ok event) :
    ∃ normalized, event = .entity k normalized ∧ Normalized ev normalized := by
  cases k with
  | shipment =>
    simp only [normalize, normalizeShipment, bind_eq_ok, CanonicalEntityEvent.validate_eq_ok] at h
    obtain ⟨normalized, ⟨t, ht, -, rfl⟩, h⟩ := h
    exact ⟨_, (Except.ok.inj h).symm, rfl, rfl, rfl, ht, rfl⟩
  | invoice =>
    simp only [normalize, normalizeInvoice, bind_eq_ok, CanonicalEntityEvent.validate_eq_ok] at h
    obtain ⟨normalized, ⟨t, ht, amount, hamount, dueAt, -, -, rfl⟩, h⟩ := h
    rw [normalizeMoney_eq] at hamount
    exact ⟨_, (Except.ok.inj h).symm, rfl, rfl, rfl, ht, (Except.ok.inj hamount).symm⟩

theorem normalize_unclassified {ev : CanonicalUnclassifiedEvent} {event : CanonicalEvent}
    (h : normalize (.unclassified ev) = .ok event) :
    ∃ normalized, event = .unclassified normalized ∧
      normalized.toCanonicalBase = normalizeBase ev.toCanonicalBase := by
  simp only [normalize, normalizeUnclassified, CanonicalUnclassifiedEvent.validate, bind_eq_ok] at h
  obtain ⟨normalized, ⟨-, -, h'⟩, h⟩ := h
  exact ⟨normalized, (Except.ok.inj h).symm, (Except.ok.inj h') ▸ rfl⟩

theorem base_of_normalize {event normalized : CanonicalEvent} (h : normalize event = .ok normalized) :
    normalized.base = normalizeBase event.base := by
  cases event with
  | entity k ev =>
    obtain ⟨ev', rfl, hev⟩ := normalized_of_normalize h
    exact hev.base
  | unclassified ev =>
    obtain ⟨ev', rfl, hev⟩ := normalize_unclassified h
    exact hev

theorem clampConfidence_range (val : Rat) : 0 ≤ clampConfidence val ∧ clampConfidence val ≤ 1 :=
  ⟨le_max_left _ _, max_le (by decide) (min_le_left _ _)⟩

/-- A base that was valid is valid when normalized. -/
theorem validate_normalizeBase {base : CanonicalBase} (h : base.validate = .ok ()) :
    (normalizeBase base).validate = .ok () := by
  have hrange := clampConfidence_range base.confidence
  rw [CanonicalBase.validate] at h ⊢
  split at h
  · cases h
  · rename_i hvalid
    push Not at hvalid
    rw [if_neg]
    push Not
    exact ⟨hvalid.1, by rw [normalizeBase, strip_strip]; exact hvalid.2.1, hrange⟩

/-- **Valid events with UTC timestamps are normalized.** -/
theorem exists_normalized {k : EntityType} {ev : CanonicalEntityEvent k}
    (hbase : ev.toCanonicalBase.validate = .ok ())
    (hts : toUtc ev.eventTimestamp = .ok ev.eventTimestamp)
    (hdue : ∀ t, DetailOf.dueAt? ev.detail = some t → toUtc t = .ok t) :
    ∃ normalized, normalize (.entity k ev) = .ok (.entity k normalized) ∧ Normalized ev normalized := by
  have hvalid := validate_normalizeBase hbase
  have hok : ∃ event, normalize (.entity k ev) = .ok event := by
    cases k with
    | shipment =>
      simp only [normalize, normalizeShipment, bind_eq_ok, CanonicalEntityEvent.validate_eq_ok]
      exact ⟨_, _, ⟨_, hts, hvalid, rfl⟩, rfl⟩
    | invoice =>
      have hdue' : ev.detail.dueAt.mapM toUtc = .ok ev.detail.dueAt := by
        cases hd : ev.detail.dueAt with
        | none => rfl
        | some t =>
          rw [Option.mapM_some, hdue t hd]
          rfl
      simp only [normalize, normalizeInvoice, bind_eq_ok, CanonicalEntityEvent.validate_eq_ok]
      exact ⟨_, _, ⟨_, hts, _, normalizeMoney_eq _, _, hdue', hvalid, rfl⟩, rfl⟩
  obtain ⟨event, h⟩ := hok
  obtain ⟨normalized, rfl, hnormalized⟩ := normalized_of_normalize h
  exact ⟨normalized, h, hnormalized⟩

end Fields

end WebhookIngestion
