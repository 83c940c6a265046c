import WebhookIngestion.Hashing
import WebhookIngestion.StateMachine
import Mathlib.Algebra.Ring.Rat

/-! # The database and the operations on it

The tables beside the projections, and what the worker and the receiver ask of the
world: statements, one finalizing transaction, and completions of the LLM provider.
Every statement outside a transaction commits by itself.  Log lines and metrics are
left out; in their place a `trace`, which nothing reads, says what a run did. -/
namespace WebhookIngestion
open Tables Programs

/-! ### Tables -/

/-- `raw_events.processing_status`. -/
inductive ProcessingStatus where
  | queued | pendingLlm | processed | review | failed
  deriving DecidableEq

structure RawEvent where
  vendorId : Option String
  payload : JsonObject
  headers : List (String × String)
  signatureVerified : Bool
  processingStatus : ProcessingStatus
  processingError : Option String
  deriving DecidableEq

/-- `UNIQUE (vendor_id, structural_fingerprint, schema_version)` of `vendor_schemas`. -/
structure SchemaKey where
  vendorId : String
  structuralFingerprint : String
  schemaVersion : Nat
  deriving DecidableEq

/-- `vendor_schemas.status`. -/
inductive SchemaStatus where
  | provisional | active | deprecated
  deriving DecidableEq

abbrev SchemaId := Nat

structure VendorSchema where
  id : SchemaId
  schemaDoc : JsonObject
  status : SchemaStatus
  sourceEventId : EventId
  successCount : Nat
  failureCount : Nat
  deriving DecidableEq

/-- A row of `vendor_event_type_map`; a `NUMERIC` that is not a number is `none`. -/
structure EventTypeMapping where
  classification : String
  canonicalState : String
  confidence : Option Rat
  reviewedByHuman : Bool
  deriving DecidableEq

structure CacheEntry where
  output : JsonObject
  costEstimate : Rat
  deriving DecidableEq

/-- A row of `llm_audit`; `day` is `created_at::date`. -/
structure AuditRow where
  eventId : EventId
  source : Source
  costEstimate : Rat
  decision : String
  day : Nat
  deriving DecidableEq

structure Database where
  rawEvents : Table EventId RawEvent
  store : Store
  canonicalEvents : Table EventId CanonicalEvent
  requiresHumanReview : Table EventId String
  llmCache : Table String CacheEntry
  llmAudit : List AuditRow
  vendorSchemas : Table SchemaKey VendorSchema
  vendorSchemasSeq : Nat
  vendorEventTypeMap : Table (String × String) EventTypeMapping

/-- The freshly migrated database. -/
def Database.empty : Database := ⟨∅, .empty, ∅, ∅, ∅, [], ∅, 1, ∅⟩

/-! ### Numeric columns -/

/-- A value rounded to `scale` decimal digits, halves away from zero. -/
def roundNumeric (scale : Nat) (x : Rat) : Rat :=
  let scaled := x * 10 ^ scale
  let units := if x < 0 then -(1 / 2 - scaled).floor else (scaled + 1 / 2).floor
  units / 10 ^ scale

/-- Storing a number in a `NUMERIC(precision, scale)` column. -/
def toNumeric (precision scale : Nat) (x : Rat) : Except PyError Rat :=
  let rounded := roundNumeric scale x
  let bound : Rat := 10 ^ (precision - scale)
  if -bound < rounded ∧ rounded < bound then .ok rounded else .error .databaseError

theorem error_of_toNumeric {precision scale : Nat} {x : Rat} {e : PyError}
    (h : toNumeric precision scale x = .error e) : e = .databaseError := by
  rw [toNumeric] at h
  split at h
  · cases h
  · exact (Except.error.inj h).symm

/-- Storing a `float` in a `NUMERIC(precision, scale)` column. -/
def floatToNumeric (precision scale : Nat) : PyFloat → Except PyError (Option Rat)
  | .nan => .ok none
  | x =>
    match x.toRat? with
    | some x => some <$> toNumeric precision scale x
    | none => .error .databaseError

/-- A row of `llm_cache` as its columns hold it. -/
def CacheEntry.toRow (entry : CacheEntry) : Except PyError CacheEntry :=
  if (Json.obj entry.output).storable then
    (fun costEstimate => { entry with costEstimate }) <$> toNumeric 10 6 entry.costEstimate
  else .error .databaseError

theorem CacheEntry.toRow_eq_ok {entry row : CacheEntry} : entry.toRow = .ok row ↔
    (Json.obj entry.output).storable = true ∧ row.output = entry.output ∧
      toNumeric 10 6 entry.costEstimate = .ok row.costEstimate := by
  rw [toRow]
  split
  · rename_i hstorable
    cases toNumeric 10 6 entry.costEstimate with
    | ok cost =>
      refine Iff.trans ?_ (and_iff_right hstorable).symm
      constructor
      · rintro ⟨⟩
        exact ⟨rfl, rfl⟩
      · rintro ⟨hout, hcost⟩
        obtain ⟨output, costEstimate⟩ := row
        cases hout
        cases hcost
        rfl
    | error e => exact iff_of_false (fun h => by cases h) fun h => by cases h.2.2
  · rename_i hno
    exact iff_of_false (fun h => by cases h) fun h => hno h.1

theorem CacheEntry.error_of_toRow {entry : CacheEntry} {e : PyError} (h : entry.toRow = .error e) :
    e = .databaseError := by
  rw [toRow] at h
  split at h
  · cases hcost : toNumeric 10 6 entry.costEstimate with
    | ok cost =>
      rw [hcost] at h
      cases h
    | error e' =>
      rw [hcost] at h
      exact (Except.error.inj h) ▸ error_of_toNumeric hcost
  · exact (Except.error.inj h).symm

/-- A value for a `TEXT` column: the driver takes nothing but strings. -/
def toText : Json → Except PyError String
  | .str s => .ok s
  | _ => .error .databaseError

/-! ### Looking schemas up -/

/-- What `SchemaRegistry.lookup` returns of a row. -/
structure SchemaMatch where
  schemaId : SchemaId
  schemaDoc : JsonObject
  deriving DecidableEq

/-- The order of the lookup: active rows first, then the latest version. -/
def schemaRank (a b : SchemaKey × VendorSchema) : Bool :=
  if a.2.status = .active then b.2.status ≠ .active || b.1.schemaVersion ≤ a.1.schemaVersion
  else b.2.status ≠ .active && b.1.schemaVersion ≤ a.1.schemaVersion

/-- The rows the lookup chooses from. -/
def schemaCandidates (schemas : Table SchemaKey VendorSchema) (vendorId fingerprint : String) :
    List (SchemaKey × VendorSchema) :=
  (schemas.entries.map fun e => (e.1, e.2)).filter fun row =>
    row.1.vendorId = vendorId ∧ row.1.structuralFingerprint = fingerprint ∧ row.2.status ≠ .deprecated

/-- `SELECT … FROM vendor_schemas WHERE … ORDER BY … LIMIT 1`. -/
def lookupSchema (schemas : Table SchemaKey VendorSchema) (vendorId fingerprint : String) :
    Option SchemaMatch :=
  ((schemaCandidates schemas vendorId fingerprint).insertionSort fun a b => schemaRank a b).head?.map
    fun row => ⟨row.2.id, row.2.schemaDoc⟩

/-! ### Operations -/

/-- `LLMResult`, as far as it is read. -/
structure LLMResult where
  text : String
  costEstimate : Rat

/-- What a run did, for those who look at it from outside. -/
inductive Mark where
  /-- The receiver inserted the event, which came in under a vendor's URL or under none. -/
  | accepted (eventId : EventId) (vendorHint : Option String)
  /-- Discovery returned a schema id. -/
  | learned (eventId : EventId) (vendorId : String) (schemaId : SchemaId) (schemaDoc : JsonObject)
  /-- Path A extracted the event with a schema. -/
  | extracted (eventId : EventId) (schemaId : SchemaId)
  /-- The provider was called on behalf of a vendor; a completion has a cost. -/
  | called (vendorId : String) (day : Nat) (cost : Option Rat)
  /-- The event's job was put into the queue. -/
  | enqueued (eventId : EventId)
  deriving DecidableEq

/-- The database, the answers the provider is about to give, the day, and what the queue
raises, if it is down. -/
structure World where
  db : Database
  answers : List (Except PyError LLMResult)
  today : Nat
  queueError : Option PyError
  trace : List Mark

/-- The world when the provider is about to give other answers, on another day. -/
def World.facing (w : World) (day : Nat) (answers : List (Except PyError LLMResult)) : World :=
  { w with answers, today := day }

/-- The world before anything happened. -/
def World.start : World := ⟨.empty, [], 0, none, []⟩

/-- The operations of the worker and the receiver. -/
inductive Op where
  /-- `INSERT INTO raw_events … ON CONFLICT (event_id) DO NOTHING RETURNING event_id` -/
  | insertRawEvent (eventId : EventId) (vendorId : Option String) (payload : JsonObject)
      (headers : List (String × String)) (signatureVerified : Bool)
  /-- `enqueue_process`. -/
  | enqueue (eventId : EventId)
  /-- `SELECT vendor_id, payload, headers FROM raw_events WHERE event_id = …` -/
  | selectRawEvent (eventId : EventId)
  | selectSchema (vendorId fingerprint : String)
  | incrementSuccess (schemaId : SchemaId)
  | incrementFailure (schemaId : SchemaId)
  /-- `INSERT INTO vendor_schemas … ON CONFLICT … DO UPDATE … WHERE vendor_schemas.status =
  'provisional' RETURNING id` -/
  | upsertSchema (vendorId fingerprint : String) (schemaDoc : JsonObject) (eventId : EventId)
  | selectEventType (vendorId rawEventType : String)
  /-- `INSERT INTO vendor_event_type_map … ON CONFLICT … DO UPDATE … WHERE NOT
  vendor_event_type_map.reviewed_by_human` -/
  | upsertEventType (vendorId rawEventType : String) (classification canonicalState : Json)
      (confidence : PyFloat)
  /-- `INSERT INTO vendor_event_type_map … ON CONFLICT … DO NOTHING` -/
  | insertEventType (vendorId rawEventType classification canonicalState : String)
  | selectCache (cacheKey : String)
  /-- `INSERT INTO llm_cache … ON CONFLICT (cache_key) DO NOTHING` -/
  | insertCache (cacheKey : String) (entry : CacheEntry)
  /-- `BudgetGuard`'s sums over today's audit rows, all and by `decision`. -/
  | sumAudit (vendorId : String)
  | insertAudit (eventId : EventId) (source : Source) (costEstimate : Rat) (decision : String)
  /-- `LLMProvider.complete`, on behalf of a vendor. -/
  | complete (vendorId : String)
  /-- The transaction of `_finalize`. -/
  | finalize (eventId : EventId) (canonical : CanonicalEvent)
  /-- The transaction of `_mark_review`. -/
  | markReview (eventId : EventId) (reason : String)
  /-- `_mark_pending_llm`. -/
  | markPendingLlm (eventId : EventId) (reason : String)
  /-- `_mark_failed`. -/
  | markFailed (eventId : EventId) (error : String)
  /-- The transaction of `truncate`. -/
  | truncate
  /-- Leaves a mark on the trace. -/
  | note (mark : Mark)

@[reducible] def Op.Result : Op → Type
  | insertRawEvent .. => Option EventId
  | selectRawEvent _ => Option RawEvent
  | selectSchema _ _ => Option SchemaMatch
  | upsertSchema .. => Option SchemaId
  | selectEventType _ _ => Option (String × String)
  | selectCache _ => Option CacheEntry
  | sumAudit _ => Rat × Rat
  | complete _ => LLMResult
  | finalize _ _ => ApplyOutcome
  | incrementSuccess _ | incrementFailure _ | upsertEventType .. | insertEventType .. | insertCache _ _
  | insertAudit .. | markReview _ _ | markPendingLlm _ _ | markFailed _ _ | enqueue _ | truncate
  | note _ => Unit

/-! ### What each operation does -/

namespace Database
variable (db : Database)

def insertRawEvent (eventId : EventId) (vendorId : Option String) (payload : JsonObject)
    (headers : List (String × String)) (signatureVerified : Bool) : Database :=
  let row : RawEvent :=
    { vendorId, payload, headers, signatureVerified, processingStatus := .queued, processingError := none }
  { db with rawEvents := db.rawEvents.insert eventId row }

/-- `UPDATE raw_events SET … WHERE event_id = …`. -/
def updateRawEvent (eventId : EventId) (set : RawEvent → RawEvent) : Database :=
  { db with rawEvents := updateRows (fun id row => if id = eventId then set row else row) db.rawEvents }

/-- `UPDATE vendor_schemas SET … WHERE id = …`. -/
def updateSchema (schemaId : SchemaId) (set : VendorSchema → VendorSchema) : Database :=
  { db with vendorSchemas :=
      updateRows (fun _ row => if row.id = schemaId then set row else row) db.vendorSchemas }

/-- The row `_persist` leaves under its key, if its statement touches one. -/
def schemaRow (key : SchemaKey) (schemaDoc : JsonObject) (eventId : EventId) : Option VendorSchema :=
  match db.vendorSchemas.lookup key with
  | none => some ⟨db.vendorSchemasSeq, schemaDoc, .provisional, eventId, 0, 0⟩
  | some row =>
    if row.status = .provisional then some { row with schemaDoc, sourceEventId := eventId } else none

/-- `_persist`, which takes a value of the sequence either way. -/
def upsertSchema (key : SchemaKey) (schemaDoc : JsonObject) (eventId : EventId) :
    Option SchemaId × Database :=
  let db' := { db with vendorSchemasSeq := db.vendorSchemasSeq + 1 }
  match db.schemaRow key schemaDoc eventId with
  | some row => (some row.id, { db' with vendorSchemas := db.vendorSchemas.insert key row })
  | none => (none, db')

/-- `persist_event_type`'s statement. -/
def upsertEventType (key : String × String) (mapping : EventTypeMapping) : Database :=
  match db.vendorEventTypeMap.lookup key with
  | some row => if row.reviewedByHuman then db
      else { db with vendorEventTypeMap := db.vendorEventTypeMap.insert key mapping }
  | none => { db with vendorEventTypeMap := db.vendorEventTypeMap.insert key mapping }

/-- `_persist_event_type`'s statement. -/
def insertEventType (key : String × String) (mapping : EventTypeMapping) : Database :=
  match db.vendorEventTypeMap.lookup key with
  | some _ => db
  | none => { db with vendorEventTypeMap := db.vendorEventTypeMap.insert key mapping }

/-- `_cache_set`'s statement. -/
def insertCache (cacheKey : String) (entry : CacheEntry) : Database :=
  match db.llmCache.lookup cacheKey with
  | some _ => db
  | none => { db with llmCache := db.llmCache.insert cacheKey entry }

/-- `_audit`'s statement. -/
def insertAudit (row : AuditRow) : Database := { db with llmAudit := row :: db.llmAudit }

/-- `SUM(cost_estimate)` of today's completions among the rows that pass a test. -/
def auditSum (day : Nat) (test : AuditRow → Bool) : Rat :=
  ((db.llmAudit.filter fun row => row.day = day && row.source = .llm && test row).map
    AuditRow.costEstimate).sum

/-- The writes of `_finalize` around `apply_event`: the canonical event, and the raw
event's status and vendor, `COALESCE(vendor_id, $2)`. -/
def finalized (eventId : EventId) (canonical : CanonicalEvent) (store : Store) : Database :=
  let db := { db with store, canonicalEvents := db.canonicalEvents.insert canonical.base.eventId canonical }
  db.updateRawEvent eventId fun row =>
    { row with
      vendorId := row.vendorId.or (some canonical.base.vendorId)
      processingStatus := .processed
      processingError := none }

/-- `_mark_review`: a review that is there already stays. -/
def markedReview (eventId : EventId) (reason : String) : Database :=
  let requiresHumanReview := match db.requiresHumanReview.lookup eventId with
    | some _ => db.requiresHumanReview
    | none => db.requiresHumanReview.insert eventId reason
  { db with requiresHumanReview }.updateRawEvent eventId fun row =>
    { row with processingStatus := .review, processingError := some reason }

/-- `truncate`: everything derived from the raw events is gone, but for what was learned. -/
def truncated : Database :=
  { db with
    requiresHumanReview := ∅
    canonicalEvents := ∅
    store := { Store.empty with entitiesSeq := db.store.entitiesSeq }
    rawEvents := updateRows (fun _ row => { row with processingStatus := .queued, processingError := none })
      db.rawEvents }

end Database

/-- The errors of the appliers, as the worker sees them. -/
def ApplyError.toPyError : ApplyError → PyError
  | .assertionError => .assertionError
  | .uniqueViolation | .dataError => .databaseError

/-- The answer to an operation, and the world after it. -/
def Op.handle : (o : Op) → World → Except PyError o.Result × World
  | insertRawEvent eventId vendorId payload headers signatureVerified, w =>
    match w.db.rawEvents.lookup eventId with
    | some _ => (.ok none, w)
    | none =>
      let db := w.db.insertRawEvent eventId vendorId payload headers signatureVerified
      (.ok (some eventId), { w with db })
  | enqueue eventId, w =>
    match w.queueError with
    | none => (.ok (), { w with trace := .enqueued eventId :: w.trace })
    | some e => (.error e, w)
  | selectRawEvent eventId, w => (.ok (w.db.rawEvents.lookup eventId), w)
  | selectSchema vendorId fingerprint, w =>
    (.ok (lookupSchema w.db.vendorSchemas vendorId fingerprint), w)
  | incrementSuccess schemaId, w =>
    (.ok (), { w with db := w.db.updateSchema schemaId fun row =>
      { row with successCount := row.successCount + 1 } })
  | incrementFailure schemaId, w =>
    (.ok (), { w with db := w.db.updateSchema schemaId fun row =>
      { row with failureCount := row.failureCount + 1 } })
  | upsertSchema vendorId fingerprint schemaDoc eventId, w =>
    let (id, db) := w.db.upsertSchema ⟨vendorId, fingerprint, 1⟩ schemaDoc eventId
    (.ok id, { w with db })
  | selectEventType vendorId rawEventType, w =>
    (.ok ((w.db.vendorEventTypeMap.lookup (vendorId, rawEventType)).map fun row =>
      (row.classification, row.canonicalState)), w)
  | upsertEventType vendorId rawEventType classification canonicalState confidence, w =>
    match toText classification, toText canonicalState, floatToNumeric 4 3 confidence with
    | .ok classification, .ok canonicalState, .ok confidence =>
      let mapping := ⟨classification, canonicalState, confidence, false⟩
      (.ok (), { w with db := w.db.upsertEventType (vendorId, rawEventType) mapping })
    | _, _, _ => (.error .databaseError, w)
  | insertEventType vendorId rawEventType classification canonicalState, w =>
    let mapping := ⟨classification, canonicalState, some (85 / 100), false⟩
    (.ok (), { w with db := w.db.insertEventType (vendorId, rawEventType) mapping })
  | selectCache cacheKey, w => (.ok (w.db.llmCache.lookup cacheKey), w)
  | insertCache cacheKey entry, w =>
    match entry.toRow with
    | .ok row => (.ok (), { w with db := w.db.insertCache cacheKey row })
    | .error e => (.error e, w)
  | sumAudit vendorId, w =>
    (.ok (w.db.auditSum w.today fun _ => true, w.db.auditSum w.today fun row => row.decision = vendorId), w)
  | insertAudit eventId source costEstimate decision, w =>
    match toNumeric 10 6 costEstimate with
    | .ok costEstimate =>
      (.ok (), { w with db := w.db.insertAudit ⟨eventId, source, costEstimate, decision, w.today⟩ })
    | .error e => (.error e, w)
  | complete vendorId, w =>
    match w.answers with
    | .ok result :: answers =>
      (.ok result, { w with answers, trace := .called vendorId w.today (some result.costEstimate) :: w.trace })
    | .error e :: answers =>
      (.error e, { w with answers, trace := .called vendorId w.today none :: w.trace })
    | [] => (.error .providerError, { w with trace := .called vendorId w.today none :: w.trace })
  | finalize eventId canonical, w =>
    match applyEvent canonical w.db.store with
    | (.ok outcome, store) => (.ok outcome, { w with db := w.db.finalized eventId canonical store })
    | (.error e, store) => (.error e.toPyError, { w with db := { w.db with store } })
  | markReview eventId reason, w => (.ok (), { w with db := w.db.markedReview eventId reason })
  | markPendingLlm eventId reason, w =>
    (.ok (), { w with db := w.db.updateRawEvent eventId fun row =>
      { row with processingStatus := .pendingLlm, processingError := some reason } })
  | markFailed eventId error, w =>
    (.ok (), { w with db := w.db.updateRawEvent eventId fun row =>
      { row with processingStatus := .failed, processingError := some error } })
  | truncate, w => (.ok (), { w with db := w.db.truncated })
  | note mark, w => (.ok (), { w with trace := mark :: w.trace })

/-- A program of the worker or the receiver. -/
abbrev Job := Program PyError Op Op.Result

/-- Run a job by itself. -/
def Job.run {α : Type} (job : Job α) (w : World) : Except PyError α × World := Program.run Op.handle job w

end WebhookIngestion
