import WebhookIngestion.Fallback
import WebhookIngestion.Normalizer
import WebhookIngestion.SchemaDiscoverer

/-! # The worker pipeline

`process_event`: Path A extracts a payload of a known shape with its schema; Path B asks
the LLM, and learns a schema from the answer.  Either way the event is finalized under
the vendor the pipeline has resolved. -/
namespace WebhookIngestion
open Text Programs

/-! ### The vendor -/

/-- `_infer_vendor_id`. -/
def inferVendorId (u : Unicode) (payload : JsonObject) : String :=
  let value (key : String) := (((payload.lookup key).getD (.str "")).text u).toList
  if upper (value "carrier_scac") = "MAEU".toList then "maersk"
  else if upper (value "carrier_scac") = "ONEY".toList then "ocean_network_express"
  else if contains "ocean network express".toList (lower (value "carrier")) then "ocean_network_express"
  else if lower (value "source") = "globalfreightpay.api".toList then "globalfreightpay"
  else if lower (value "issuer") = "marine-traffic-advisory".toList then "marine_traffic_advisory"
  else "unknown"

/-- `row["vendor_id"] or _infer_vendor_id(payload, headers)`. -/
def resolveVendorId (u : Unicode) (row : RawEvent) : String :=
  match row.vendorId with
  | some vendorId => if vendorId = "" then inferVendorId u row.payload else vendorId
  | none => inferVendorId u row.payload

/-! ### Finalizing -/

/-- What `process_event` returns. -/
inductive ProcessOutcome where
  | notFound
  | finalized (outcome : ApplyOutcome)
  | pendingLlm
  | requiresReview
  deriving DecidableEq

/-- The vendor identity override: a resolved vendor replaces the event's. -/
def overrideVendor (vendorId : String) (canonical : CanonicalEvent) : CanonicalEvent :=
  if vendorId ≠ "" ∧ vendorId ≠ "unknown" ∧ canonical.base.vendorId ≠ vendorId then
    canonical.withVendorId vendorId
  else canonical

/-- `_finalize`. -/
def finalizeEvent (eventId : EventId) (vendorId : String) (canonical : CanonicalEvent) :
    Job ProcessOutcome :=
  match normalize (overrideVendor vendorId canonical) with
  | .ok canonical => do
    let outcome ← .perform (Op.finalize eventId canonical)
    return .finalized outcome
  | .error .normalizationError => do
    .perform (Op.markReview eventId "normalization_failed")
    return .requiresReview
  | .error e => .raise e

section
variable (env : Externals) (settings : Settings)

/-! ### Path A -/

/-- `_classify_and_persist`. -/
def classifyAndPersist (vendorId rawEventType : String) : Job (Option (String × String)) := do
  match ← classifyEventType env settings vendorId rawEventType with
  | none => return none
  | some (classification, canonicalState, confidence) =>
    .perform (Op.upsertEventType vendorId rawEventType classification canonicalState confidence)
    -- the statement has refused anything but strings
    let classification ← Program.ofExcept (toText classification)
    let canonicalState ← Program.ofExcept (toText canonicalState)
    return some (classification, canonicalState)

/-- The mapping of a raw event type: the stored one, else the classifier's. -/
def resolveEventType (vendorId rawEventType : String) : Job (Option (String × String)) := do
  match ← .perform (Op.selectEventType vendorId rawEventType) with
  | some mapping => return some mapping
  | none => classifyAndPersist env settings vendorId rawEventType

/-- Path A's success: counted, and noted. -/
def extractionSucceeded (eventId : EventId) (schemaId : SchemaId) (canonical : CanonicalEvent) :
    Job (Option CanonicalEvent) := do
  .perform (Op.incrementSuccess schemaId)
  .perform (Op.note (.extracted eventId schemaId))
  return some canonical

/-- `_process_via_schema`. -/
def processViaSchema (eventId : EventId) (vendorId : String) (payload : JsonObject)
    (schemaMatch : SchemaMatch) : Job (Option CanonicalEvent) := do
  let schemaDoc := schemaMatch.schemaDoc
  -- First pass: extract raw_event_type.
  let extraction ← Program.ofExcept (extract env payload eventId vendorId schemaDoc none none)
  match extraction.event, decide (schemaDoc.get "classification" = .str "unclassified") with
  | .ok canonical, true => extractionSucceeded eventId schemaMatch.schemaId canonical
  | _, _ =>
    let rawEventType := extraction.rawEventType.getD ""
    if rawEventType = "" then return none
    match ← resolveEventType env settings vendorId rawEventType with
    | none => return none
    | some (resolvedClassification, canonicalState) =>
      -- Second pass: full extraction with the resolved state.
      let extraction ← Program.ofExcept
        (extract env payload eventId vendorId schemaDoc (some canonicalState) (some resolvedClassification))
      match extraction.event with
      | .ok canonical => extractionSucceeded eventId schemaMatch.schemaId canonical
      | .error _ => return none

/-! ### Path B -/

/-- `AdapterResult` of the universal adapter. -/
inductive AdapterResult where
  | ok (canonical : CanonicalEvent) (outcome : LLMOutcome)
  | deferred
  | unsupported (reason : String)

/-- What the adapter makes of an exception of the orchestrator. -/
def adapterFailure : PyError → Job (Except AdapterResult LLMOutcome)
  | .budgetExceeded => return .error .deferred
  | .llmValidationError => return .error (.unsupported "llm_invalid_after_retry")
  | e => .raise e

/-- `LLMUniversalAdapter.normalize`. -/
def universalNormalize (eventId : EventId) (vendorHint : String) (payload : JsonObject) :
    Job AdapterResult := do
  let hint := if vendorHint = "" then "unknown" else vendorHint
  match ← (Except.ok <$> classifyExtract env settings eventId hint payload).tryCatch adapterFailure with
  | .error result => return result
  | .ok outcome =>
    match buildCanonical env eventId outcome.data outcome.source with
    | .ok canonical => return .ok canonical outcome
    | .error e => if e.isValueError then return .unsupported "canonical_build_failed" else .raise e

/-- The mapping that discovery adds beside a schema for an entity. -/
def persistLessonType (vendorId : String) (llmOutput : JsonObject) (rawEventType : Json) : Job Unit :=
  match llmOutput.get "classification", llmOutput.get "event_type" with
  | .str classification, .str eventType =>
    if eventType ≠ "" ∧ rawEventType.truthy ∧ (classification = "shipment" ∨ classification = "invoice") then
      .perform (Op.insertEventType vendorId (rawEventType.text env.toUnicode) classification eventType)
    else return ()
  | _, _ => return ()

/-- `discover_and_persist`. -/
def discoverAndPersist (vendorId : String) (payload llmOutput : JsonObject) (eventId : EventId) :
    Job (Option SchemaId) := do
  match ← Program.ofExcept (discoverSchema env payload eventId vendorId llmOutput) with
  | none => return none
  | some schemaDoc =>
    let fingerprint := structuralFingerprint env (.obj payload) []
    match ← .perform (Op.upsertSchema vendorId fingerprint schemaDoc eventId) with
    -- `row["id"]` of no row
    | none => .raise .typeError
    | some schemaId =>
      let rawEventType ← Program.ofExcept (findRawEventType env.toUnicode payload schemaDoc)
      persistLessonType env vendorId llmOutput rawEventType
      .perform (Op.note (.learned eventId vendorId schemaId schemaDoc))
      return some schemaId

/-- Path B. -/
def processViaLLM (eventId : EventId) (vendorId : String) (payload : JsonObject) : Job ProcessOutcome := do
  match ← universalNormalize env settings eventId vendorId payload with
  | .ok canonical outcome =>
    if outcome.data ≠ [] ∧ outcome.source ≠ .llmCache then
      let _ ← (discoverAndPersist env vendorId payload outcome.data eventId).tryCatch fun _ => return none
      finalizeEvent eventId vendorId canonical
    else finalizeEvent eventId vendorId canonical
  | .deferred =>
    .perform (Op.markPendingLlm eventId "llm_budget_exceeded")
    return .pendingLlm
  | .unsupported reason =>
    .perform (Op.markReview eventId reason)
    return .requiresReview

/-- What `process_event` does with the row it has read. -/
def processRow (eventId : EventId) (row : RawEvent) : Job ProcessOutcome := do
  let vendorId := resolveVendorId env.toUnicode row
  let fingerprint := structuralFingerprint env (.obj row.payload) []
  match ← .perform (Op.selectSchema vendorId fingerprint) with
  | some schemaMatch =>
    match ← processViaSchema env settings eventId vendorId row.payload schemaMatch with
    | some canonical => finalizeEvent eventId vendorId canonical
    | none =>
      -- Schema extraction failed: fall through to Path B.
      .perform (Op.incrementFailure schemaMatch.schemaId)
      processViaLLM env settings eventId vendorId row.payload
  | none => processViaLLM env settings eventId vendorId row.payload

/-- `process_event`. -/
def processEvent (eventId : EventId) : Job ProcessOutcome := do
  match ← .perform (Op.selectRawEvent eventId) with
  | none => return .notFound
  | some row => processRow env settings eventId row

/-- `process_webhook`: an exception is written to the event's row, and raised again. -/
def processWebhook (eventId : EventId) : Job ProcessOutcome :=
  (processEvent env settings eventId).tryCatch fun exc => do
    .perform (Op.markFailed eventId (String.ofList ((env.errorText exc).toList.take 500)))
    .raise exc

end

end WebhookIngestion
