import WebhookIngestion.Parsers

/-! # LLM answers

What the target schema (`v1_target_schema.json`) accepts as an answer, and the
canonical event that `LLMUniversalAdapter` builds from one. -/
namespace WebhookIngestion
open Text

/-! ### The target schema -/

/-- A number without a fractional part; JSON Schema takes `1.0` for an integer. -/
def Json.toInt? (x : Json) : Option Int :=
  match x.toRat? with
  | some r => if r.den = 1 then some r.num else none
  | none => none

/-- `{"type": ["string", "null"]}`. -/
def isOptionalString : Json → Bool
  | .null | .str _ => true
  | _ => false

/-- `{"type": ["number", "null"]}`. -/
def isOptionalNumber (x : Json) : Bool := x = .null || x.toRat?.isSome

/-- `{"type": ["object", "null"]}` with a condition on the fields. -/
def isOptionalObject (ok : JsonObject → Bool) : Json → Bool
  | .null => true
  | .obj fields => ok fields
  | _ => false

/-- `additionalProperties: false` with a condition for each property. -/
def hasOnly (property : String → Option (Json → Bool)) (fields : JsonObject) : Bool :=
  fields.all fun (key, value) =>
    match property key with
    | some ok => ok value
    | none => false

/-- `required`. -/
def hasAll (keys : List String) (fields : JsonObject) : Bool :=
  keys.all fun key => (fields.lookup key).isSome

/-- The `enum` of `event_type`. -/
def eventTypeValues : List String :=
  [ShipmentEventType.pickedUp, .inTransit, .outForDelivery, .delivered, .exception, .cancelled].map
      ShipmentEventType.value ++
    [InvoiceEventType.issued, .paid, .voided, .refunded].map InvoiceEventType.value

/-- The properties of `amount`. -/
def amountProperty : String → Option (Json → Bool)
  | "currency" => some fun x => x.asString?.any isCurrencyCode
  | "amount_minor" => some fun x => x.toInt?.any (0 ≤ ·)
  | _ => none

/-- The properties of `location`. -/
def locationProperty : String → Option (Json → Bool)
  | "code" | "name" => some isOptionalString
  | "latitude" | "longitude" => some isOptionalNumber
  | _ => none

/-- The properties of an answer. -/
def targetProperty : String → Option (Json → Bool)
  | "classification" => some fun x => x.asString?.any (["shipment", "invoice", "unclassified"].contains ·)
  | "vendor_id" => some fun x => x.asString?.any (· ≠ "")
  | "confidence" => some fun x => x.toRat?.any fun r => decide (0 ≤ r) && decide (r ≤ 1)
  | "event_type" => some fun x => x = .null || x.asString?.any (eventTypeValues.contains ·)
  | "amount" => some (isOptionalObject fun fields =>
      hasAll ["currency", "amount_minor"] fields && hasOnly amountProperty fields)
  | "reference_ids" | "linked_references" => some (isOptionalObject fun _ => true)
  | "location" => some (isOptionalObject (hasOnly locationProperty))
  | "entity_external_id" | "event_timestamp" | "due_at" | "raw_milestone" | "raw_kind" | "summary"
  | "reason" => some isOptionalString
  | _ => none

/-- `jsonschema.validate(instance=data, schema=self._schema)`, on an object. -/
def matchesTarget (data : JsonObject) : Bool :=
  hasAll ["classification", "vendor_id", "confidence"] data && hasOnly targetProperty data

/-! ### Building the canonical event

The adapter runs only on answers the target schema accepted, or on cached ones; a
value of another type is refused by the model it is given to. -/

/-- `data[key]`. -/
def requireKey (data : JsonObject) (key : String) : Except PyError Json :=
  match data.lookup key with
  | some value => .ok value
  | none => .error .keyError

/-- A field of type `str`. -/
def stringField : Json → Except PyError String
  | .str s => .ok s
  | _ => .error .validationError

/-- A field of type `str | None`. -/
def textField : Json → Except PyError (Option String)
  | .null => .ok none
  | x => some <$> stringField x

/-- `data.get(key) or {}` for a field of type `dict`. -/
def dictField (x : Json) : Except PyError JsonObject :=
  match x.truthy, x with
  | true, .obj fields => .ok fields
  | true, _ => .error .validationError
  | false, _ => .ok []

/-- A field of type `float | None`. -/
def floatField (env : Externals) (x : Json) : Except PyError (Option PyFloat) :=
  match x, x.toFloat env with
  | .null, _ => .ok none
  | _, .ok value => .ok (some value)
  | _, .error _ => .error .validationError

/-- `extra="forbid"`. -/
def forbidExtra (allowed : List String) (fields : JsonObject) : Except PyError Unit :=
  if fields.all fun (key, _) => allowed.contains key then .ok () else .error .validationError

/-- `Location(**location) if isinstance(location, dict) else None`. -/
def locationField (env : Externals) (location : Json) : Except PyError (Option Location) :=
  match location with
  | .obj fields => do
    forbidExtra ["code", "name", "latitude", "longitude"] fields
    return some
      { code := ← textField (JsonObject.get fields "code")
        name := ← textField (JsonObject.get fields "name")
        latitude := ← floatField env (JsonObject.get fields "latitude")
        longitude := ← floatField env (JsonObject.get fields "longitude") }
  | _ => return none

/-- A field of type `int`, given a number: a float is taken if it has no fractional part and
is within 64 bits. -/
def Json.intField? : Json → Option Int
  | .int n => some n
  | x => x.toInt?.filter fun n => -9223372036854775808 < n ∧ n < 9223372036854775808

/-- `Money(**amount_dict) if isinstance(amount_dict, dict) else None`. -/
def moneyField (amount : Json) : Except PyError (Option Money) :=
  match amount with
  | .obj fields => do
    forbidExtra ["currency", "amount_minor"] fields
    let currency ← stringField (JsonObject.get fields "currency")
    match (JsonObject.get fields "amount_minor").intField? with
    | some amountMinor => return some (← Money.validate currency amountMinor)
    | none => throw .validationError
  | _ => return none

/-- `parse_timestamp(x)`, which refuses anything but a string. -/
def parseTimestampField (env : Externals) : Json → Except PyError DateTime
  | .str value => parseTimestamp env value
  | _ => .error .valueError

/-- `parse_timestamp(data["due_at"]) if data.get("due_at") else None`. -/
def dueAtField (env : Externals) (x : Json) : Except PyError (Option DateTime) :=
  if x.truthy then some <$> parseTimestampField env x else .ok none

/-- `float(data.get("confidence") or 0.0)`. -/
def confidenceField (env : Externals) (x : Json) : Except PyError PyFloat :=
  if x.truthy then x.toFloat env else .ok (.finite false 0 0)

/-- `ShipmentEventType(x)` or `InvoiceEventType(x)`. -/
def eventTypeField (k : EntityType) : Json → Except PyError (EventTypeOf k)
  | .str value => match EventTypeOf.ofValue? k value with
    | some eventType => .ok eventType
    | none => .error .valueError
  | _ => .error .valueError

/-- The shared fields of the event, as its model checks them. -/
def llmBase (eventId : String) (vendorId : Json) (confidence : PyFloat) (source : Source) :
    Except PyError CanonicalBase := do
  let vendorId ← stringField vendorId
  match confidence.toRat? with
  | some confidence => return { eventId, vendorId, schemaVersion := "v1", source, confidence }
  | none => throw .validationError

section
variable (env : Externals) (eventId : String) (data : JsonObject) (vendorId : Json)
  (confidence : PyFloat) (source : Source)

/-- `event_type_str and ext_id and ts_str`. -/
def hasRequired : Bool :=
  (data.get "event_type").truthy && (data.get "entity_external_id").truthy &&
    (data.get "event_timestamp").truthy

/-- The `shipment` branch of `_build_canonical`. -/
def buildShipment : Except PyError CanonicalShipmentEvent := do
  if !hasRequired data then throw .valueError
  let eventType ← eventTypeField .shipment (data.get "event_type")
  let eventTimestamp ← parseTimestampField env (data.get "event_timestamp")
  let location ← locationField env (data.get "location")
  let base ← llmBase eventId vendorId confidence source
  let entityExternalId ← stringField (data.get "entity_external_id")
  let referenceIds ← dictField (data.get "reference_ids")
  let rawMilestone ← textField (data.get "raw_milestone")
  CanonicalEntityEvent.validate
    { base with
      entityExternalId, eventType, eventTimestamp
      detail := ShipmentDetail.mk referenceIds location rawMilestone }

/-- The `invoice` branch of `_build_canonical`. -/
def buildInvoice : Except PyError CanonicalInvoiceEvent := do
  if !hasRequired data then throw .valueError
  let amount ← moneyField (data.get "amount")
  let dueAt ← dueAtField env (data.get "due_at")
  let eventType ← eventTypeField .invoice (data.get "event_type")
  let eventTimestamp ← parseTimestampField env (data.get "event_timestamp")
  let base ← llmBase eventId vendorId confidence source
  let entityExternalId ← stringField (data.get "entity_external_id")
  let linkedReferences ← dictField (data.get "linked_references")
  let rawKind ← textField (data.get "raw_kind")
  CanonicalEntityEvent.validate
    { base with
      entityExternalId, eventType, eventTimestamp
      detail := InvoiceDetail.mk amount dueAt linkedReferences rawKind }

/-- The last branch of `_build_canonical`. -/
def buildUnclassified : Except PyError CanonicalUnclassifiedEvent := do
  let base ← llmBase eventId vendorId confidence source
  let summary ← textField (data.get "summary")
  let reason ← textField (data.get "reason")
  CanonicalUnclassifiedEvent.validate { base with summary, reason }

/-- `_build_canonical`; `source` is that of the answer. -/
def buildCanonical : Except PyError CanonicalEvent := do
  let classification ← requireKey data "classification"
  let vendorId ← requireKey data "vendor_id"
  let confidence ← confidenceField env (data.get "confidence")
  if classification = .str "shipment" then
    return .entity .shipment (← buildShipment env eventId data vendorId confidence source)
  if classification = .str "invoice" then
    return .entity .invoice (← buildInvoice env eventId data vendorId confidence source)
  return .unclassified (← buildUnclassified eventId data vendorId confidence source)

end

/-! ### An invoice

A payload with the time of issue and the time it was created, which is what the path
heuristics prefer; the LLM's answer for it; and the libraries' answers for both. -/

/-- Microseconds from the start of year 1 to an hour of 28 April 2026. -/
def april28 (hour : Int) : Int := 739733 * 86400000000 + hour * 3600000000

def issuedPayload (docRef createdAt : String) : JsonObject :=
  [("created_at", .str createdAt), ("doc_ref", .str docRef), ("kind", .str "issued"),
    ("total", .str "EUR 24.350,75"), ("when", .str "28/04/2026 12:00 WIB")]

/-- The invoice was issued at noon in UTC+7; the LLM may name where it read the type. -/
def issuedAnswer (rawKind : List String) : JsonObject :=
  [("classification", .str "invoice"), ("vendor_id", .str "globalfreightpay"), ("confidence", .int 1),
    ("entity_external_id", .str "INV-1"), ("event_type", .str "invoice.issued"),
    ("event_timestamp", .str "2026-04-28T05:00:00Z"),
    ("amount", .obj [("currency", .str "EUR"), ("amount_minor", .int 2435075)])] ++
  rawKind.map fun kind => ("raw_kind", .str kind)

/-- The payload's JSON. -/
def issuedText (docRef createdAt : String) : String :=
  "\x7b\"created_at\":\"" ++ createdAt ++ "\",\"doc_ref\":\"" ++ docRef ++
    "\",\"kind\":\"issued\",\"total\":\"EUR 24.350,75\",\"when\":\"28/04/2026 12:00 WIB\"\x7d"

/-- The answer's JSON. -/
def answerText (rawKind : List String) : String :=
  "\x7b\"classification\":\"invoice\",\"vendor_id\":\"globalfreightpay\",\"confidence\":1," ++
    "\"entity_external_id\":\"INV-1\",\"event_type\":\"invoice.issued\"," ++
    "\"event_timestamp\":\"2026-04-28T05:00:00Z\"," ++
    "\"amount\":\x7b\"currency\":\"EUR\",\"amount_minor\":2435075\x7d" ++
    String.join (rawKind.map fun kind => ",\"raw_kind\":\"" ++ kind ++ "\"") ++ "\x7d"

/-- The JSON of the payload's shape. -/
def shapeText : String :=
  "[[\"$\",\"object\"],[\"$.created_at\",\"string\"],[\"$.doc_ref\",\"string\"]," ++
    "[\"$.kind\",\"string\"],[\"$.total\",\"string\"],[\"$.when\",\"string\"]]"

/-- What the cache key of the payload's answer is the digest of. -/
def questionText (docRef createdAt vendorHint : String) : String :=
  "v1.1\x1f" ++ issuedText docRef createdAt ++ "\x1fv1\x1f" ++ vendorHint

def april28Runtime : Externals := .ofTables
  [(issuedText "INV-1" "2026-04-28T01:00:00Z", .obj (issuedPayload "INV-1" "2026-04-28T01:00:00Z")),
    (issuedText "INV-1" "2026-04-28T05:00:00Z", .obj (issuedPayload "INV-1" "2026-04-28T05:00:00Z")),
    (issuedText "INV-2" "2026-04-28T05:00:00Z", .obj (issuedPayload "INV-2" "2026-04-28T05:00:00Z")),
    (answerText ["issued"], .obj (issuedAnswer ["issued"])), (answerText [], .obj (issuedAnswer [])),
    (shapeText, .arr [.arr [.str "$", .str "object"], .arr [.str "$.created_at", .str "string"],
      .arr [.str "$.doc_ref", .str "string"], .arr [.str "$.kind", .str "string"],
      .arr [.str "$.total", .str "string"], .arr [.str "$.when", .str "string"]])]
  [
    (shapeText, ⟨"25e626c7571d2be2c4ab8d30d19bffa073fb39cb76abad08d2cff0c15c1debc1", by decide⟩),
    (issuedText "INV-1" "2026-04-28T01:00:00Z" ++ "\x1fINV-1",
      ⟨"2307faf029c81b6a0818b0f03fb114f74e4e9ad3af37e47746ec21406adbfdc8", by decide⟩),
    (issuedText "INV-1" "2026-04-28T05:00:00Z" ++ "\x1fINV-1",
      ⟨"aa15717eb3f61151d8e02bf6a2d52b9d7823cb371104f1faeb3dc6188e97d52d", by decide⟩),
    (issuedText "INV-2" "2026-04-28T05:00:00Z" ++ "\x1fINV-2",
      ⟨"a123b58c7aeab4591c9f3ec11dbd6ad03020f03a34b482d2a3cc8b894781bcd7", by decide⟩),
    (questionText "INV-1" "2026-04-28T01:00:00Z" "globalfreightpay",
      ⟨"552d0b71fcc3232dfae6c7d250fc78f53fccdf3a7eb7f15a3fc43a70f1b373ad", by decide⟩),
    (questionText "INV-1" "2026-04-28T05:00:00Z" "globalfreightpay",
      ⟨"3d243fd8eece0f238ea1e057988a803f2d8186fdc90357a46e1b1154a55eb712", by decide⟩),
    (questionText "INV-2" "2026-04-28T05:00:00Z" "globalfreightpay",
      ⟨"04cb8d7d7922dadc7ba2cf95e543d22cdc7c075fbf2aeb13ed1f17e99fbdfab3", by decide⟩),
    (questionText "INV-1" "2026-04-28T01:00:00Z" "unknown",
      ⟨"62286cbb3d115f2106a85a8f3f94634a9ab4949fc89cae038686dafde37de15b", by decide⟩),
    (questionText "INV-1" "2026-04-28T05:00:00Z" "unknown",
      ⟨"f1d65a26dcbf5dbe82e69c78f5759b798923a56239fdaf1ffc615ed4e745e68c", by decide⟩),
    (questionText "INV-2" "2026-04-28T05:00:00Z" "unknown",
      ⟨"1facb39d4ebdceabeadd00dc1dfe417b91c0362f6b4c4baf303bfcced45a44b2", by decide⟩),
    ("classify_event_type_v1\x1fglobalfreightpay\x1fissued",
      ⟨"b6cdccc68771e966b4d76cbed0f4571094dd02a3977d45134c5575e33697a3ca", by decide⟩)
  ]
  [("s3cret", issuedText "INV-1" "2026-04-28T05:00:00Z",
      ⟨"f5f6c17e87baa8ca8d02f4ec90fb473c4afb0d9fdd1b425910f840bbc44a350b", by decide⟩)]
  [("2026-04-28T01:00:00Z", ⟨april28 1, some 0⟩), ("2026-04-28T05:00:00Z", ⟨april28 5, some 0⟩)]

/-- The event of the payload, with the time read at an hour. -/
def issuedEvent (eventId : String) (source : Source) (confidence : Rat) (hour : Int) :
    CanonicalInvoiceEvent :=
  { eventId, vendorId := "globalfreightpay", schemaVersion := "v1", source, confidence
    entityExternalId := "INV-1", eventType := .issued, eventTimestamp := ⟨april28 hour, 0⟩
    detail := ⟨some ⟨"EUR", 2435075, by decide⟩, none, [], some "issued"⟩ }

example : buildCanonical april28Runtime "e1" (issuedAnswer ["issued"]) .llm =
    .ok (.entity .invoice (issuedEvent "e1" .llm 1 5)) := by decide +kernel

end WebhookIngestion
