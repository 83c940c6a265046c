import WebhookIngestion.ApplyRuns
import WebhookIngestion.LearnedSchemas
import WebhookIngestion.Library.Runs
import WebhookIngestion.Receiver
import WebhookIngestion.WorkerSteps

/-! # Runs of the service

Deliveries and worker steps, in any order and with any answers of the provider.  A step
finalizes one event or leaves the tables behind the projections alone (`Leaves`); the laws
about runs are derived from that. -/
namespace WebhookIngestion
open Tables Text Programs Runs

/-! ### The identity of a draft -/

section Identity
variable {env : Externals} {payload : JsonObject} {eventId vendorId : String}

/-- **An extracted event goes by the id and the vendor it was extracted for**, and has the
classification that was asked for, else the document's. -/
theorem base_of_extract {schemaDoc : JsonObject} {canonicalState classification rawEventType : Option String}
    {event : CanonicalEvent}
    (h : extract env payload eventId vendorId schemaDoc canonicalState classification =
      .ok ⟨rawEventType, .ok event⟩) :
    event.base.eventId = eventId ∧ event.base.vendorId = vendorId ∧
      schemaClassification schemaDoc classification = .str event.classification.value := by
  cases extractedAs_of_extract h with
  | entity hclass hfields hread hbase => exact ⟨rfl, rfl, hclass⟩
  | unclassified hclass hev hbase =>
    exact ⟨congrArg CanonicalBase.eventId hev, congrArg CanonicalBase.vendorId hev, hclass⟩

/-- **An event built from an answer goes by its event id and the answer's vendor.** -/
theorem base_of_buildCanonical {data : JsonObject} {source : Source} {event : CanonicalEvent}
    (h : buildCanonical env eventId data source = .ok event) :
    event.base.eventId = eventId ∧ data.lookup "vendor_id" = some (.str event.base.vendorId) := by
  have hbase : ∀ {vendorId : Json} {confidence : PyFloat} {base : CanonicalBase},
      llmBase eventId vendorId confidence source = .ok base →
        base.eventId = eventId ∧ vendorId = .str base.vendorId := by
    intro vendorId confidence base h
    obtain ⟨text, htext, h⟩ := bind_eq_ok.mp h
    split at h
    · cases h
      exact ⟨rfl, by cases vendorId <;> cases htext; rfl⟩
    · cases h
  simp only [buildCanonical, bind_eq_ok] at h
  obtain ⟨classification, -, vendor, hvendor, confidence, -, h⟩ := h
  have hlookup : data.lookup "vendor_id" = some vendor := by
    rw [requireKey] at hvendor
    split at hvendor
    · cases hvendor
      assumption
    · cases hvendor
  split at h
  · obtain ⟨ev, hev, h⟩ := bind_eq_ok.mp h
    cases h
    simp only [buildShipment] at hev
    split at hev
    · cases hev
    · simp only [bind_eq_ok, CanonicalEntityEvent.validate_eq_ok] at hev
      obtain ⟨_, -, _, -, _, -, base, hllm, _, -, _, -, _, -, -, rfl⟩ := hev
      exact ⟨(hbase hllm).1, hlookup.trans (congrArg some (hbase hllm).2)⟩
  · split at h
    · obtain ⟨ev, hev, h⟩ := bind_eq_ok.mp h
      cases h
      simp only [buildInvoice] at hev
      split at hev
      · cases hev
      · simp only [bind_eq_ok, CanonicalEntityEvent.validate_eq_ok] at hev
        obtain ⟨_, -, _, -, _, -, _, -, base, hllm, _, -, _, -, _, -, -, rfl⟩ := hev
        exact ⟨(hbase hllm).1, hlookup.trans (congrArg some (hbase hllm).2)⟩
    · obtain ⟨ev, hev, h⟩ := bind_eq_ok.mp h
      cases h
      simp only [buildUnclassified, CanonicalUnclassifiedEvent.validate, bind_eq_ok] at hev
      obtain ⟨base, hllm, _, -, _, -, _, -, hev⟩ := hev
      cases hev
      exact ⟨(hbase hllm).1, hlookup.trans (congrArg some (hbase hllm).2)⟩

theorem Reads.base {schemaDoc : JsonObject} {resolves : String → String → String → Prop}
    {canonical : CanonicalEvent} (h : Reads env payload eventId vendorId schemaDoc resolves canonical) :
    canonical.base.eventId = eventId ∧ canonical.base.vendorId = vendorId := by
  cases h with
  | unclassified hdoc hfirst => exact ⟨(base_of_extract hfirst).1, (base_of_extract hfirst).2.1⟩
  | entity hfirst hnot hraw hresolves hsecond =>
    exact ⟨(base_of_extract hsecond).1, (base_of_extract hsecond).2.1⟩

/-- A draft goes by the id of the event it was drafted for. -/
theorem Draft.base_eventId {settings : Settings} {w : World} {canonical : CanonicalEvent}
    (h : Draft env payload eventId vendorId settings w canonical) : canonical.base.eventId = eventId := by
  cases h with
  | schema hlookup hreads => exact hreads.base.1
  | llm hnew hoffered hbuild => exact (base_of_buildCanonical hbuild).1

/-- A reading with one mapping is the reading with whatever that mapping says. -/
theorem Reads.unique {schemaDoc : JsonObject} {db : Database} {resolves : String → String → String → Prop}
    {canonical canonical' : CanonicalEvent}
    (hstored : ∀ rawEventType classification canonicalState classification' canonicalState',
      Stored db vendorId rawEventType classification canonicalState →
        resolves rawEventType classification' canonicalState' →
          classification' = classification ∧ canonicalState' = canonicalState)
    (h : Reads env payload eventId vendorId schemaDoc (Stored db vendorId) canonical)
    (h' : Reads env payload eventId vendorId schemaDoc resolves canonical') : canonical' = canonical := by
  cases h with
  | unclassified hdoc hfirst =>
    cases h' with
    | unclassified hdoc' hfirst' =>
      cases hfirst.symm.trans hfirst'
      rfl
    | entity hfirst' hnot' =>
      cases hfirst.symm.trans hfirst'
      exact absurd hdoc (hnot' _ rfl)
  | entity hfirst hnot hraw hresolves hsecond =>
    cases h' with
    | unclassified hdoc' hfirst' =>
      cases hfirst.symm.trans hfirst'
      exact absurd hdoc' (hnot _ rfl)
    | entity hfirst' hnot' hraw' hresolves' hsecond' =>
      cases hfirst.symm.trans hfirst'
      obtain ⟨rfl, rfl⟩ := hstored _ _ _ _ _ hresolves hresolves'
      cases hsecond.symm.trans hsecond'
      rfl

end Identity

theorem eventId_overrideVendor (vendorId : String) (canonical : CanonicalEvent) :
    (overrideVendor vendorId canonical).base.eventId = canonical.base.eventId := by
  rw [overrideVendor]
  split
  · cases canonical <;> rfl
  · rfl

/-- A vendor that was resolved is the event's. -/
theorem vendorId_overrideVendor {vendorId : String} (hne : vendorId ≠ "") (hknown : vendorId ≠ "unknown")
    (canonical : CanonicalEvent) : (overrideVendor vendorId canonical).base.vendorId = vendorId := by
  by_cases hsame : canonical.base.vendorId = vendorId
  · rw [overrideVendor, if_neg fun h => h.2.2 hsame, hsame]
  · rw [overrideVendor, if_pos ⟨hne, hknown, hsame⟩]
    cases canonical <;> rfl

/-- An event keeps its vendor where none was resolved. -/
theorem overrideVendor_unknown (canonical : CanonicalEvent) :
    overrideVendor "unknown" canonical = canonical := if_neg fun h => h.2.1 rfl

/-! ### What a step leaves in the tables -/

section Step
variable (env : Externals) (settings : Settings) (payload : JsonObject) (eventId : EventId)
  (vendorId : String)

/-- **What a step leaves**: the event it finalized, or what was there.  A step that the database
refuses may have used a number of the entities' sequence. -/
inductive Leaves (w : World) (r : Except PyError ProcessOutcome) (w' : World) : Prop
  | finalized {draft normalized : CanonicalEvent} {outcome : ApplyOutcome}
      (hdraft : Draft env payload eventId vendorId settings w draft)
      (hnormalize : normalize (overrideVendor vendorId draft) = .ok normalized)
      (hr : r = .ok (.finalized outcome)) (houtcome : (applyEvent normalized w.db.store).1 = .ok outcome)
      (hstore : w'.db.store = (applyEvent normalized w.db.store).2)
      (hcanonical : w'.db.canonicalEvents = w.db.canonicalEvents.insert eventId normalized)
      (hraw : ∀ id, (w'.db.rawEvents.lookup id).map RawEvent.delivered =
        (w.db.rawEvents.lookup id).map fun row => if id = eventId
          then (row.vendorId.or (some normalized.base.vendorId), row.delivered.2) else row.delivered)
  | raised {draft normalized : CanonicalEvent} {n : Nat}
      (hdraft : Draft env payload eventId vendorId settings w draft)
      (hnormalize : normalize (overrideVendor vendorId draft) = .ok normalized)
      (hr : r = .error .databaseError) (hraises : (applyEvent normalized w.db.store).1 = .error .dataError)
      (hstore : w'.db.store = (applyEvent normalized w.db.store).2)
      (hrows : (applyEvent normalized w.db.store).2 = { w.db.store with entitiesSeq := n })
      (hcanonical : w'.db.canonicalEvents = w.db.canonicalEvents)
      (hraw : w'.db.rawEvents = w.db.rawEvents)
  | stopped (hr : ∀ outcome, r ≠ .ok (.finalized outcome)) (hstore : w'.db.store = w.db.store)
      (hcanonical : w'.db.canonicalEvents = w.db.canonicalEvents)
      (hraw : ∀ id, (w'.db.rawEvents.lookup id).map RawEvent.delivered =
        (w.db.rawEvents.lookup id).map RawEvent.delivered)

variable {env settings payload eventId vendorId} {w w' : World}

/-- A normalized draft goes by its event's id, under its vendor without the space around it. -/
theorem Draft.normalized_base {draft normalized : CanonicalEvent}
    (h : Draft env payload eventId vendorId settings w draft)
    (hnormalize : normalize (overrideVendor vendorId draft) = .ok normalized) :
    normalized.base.eventId = eventId ∧
      normalized.base.vendorId = strip (overrideVendor vendorId draft).base.vendorId := by
  rw [base_of_normalize hnormalize, normalizeBase]
  exact ⟨(eventId_overrideVendor vendorId draft).trans h.base_eventId, rfl⟩

/-- Drafting leaves the deliveries, the projections and the canonical events. -/
theorem Drafted.frame {canonical : CanonicalEvent}
    (h : Drafted env settings payload eventId vendorId w canonical w') :
    w'.db.rawEvents = w.db.rawEvents ∧ w'.db.store = w.db.store ∧
      w'.db.canonicalEvents = w.db.canonicalEvents := by
  have hprepared : ∀ {w₁ : World}, Prepares w w₁ → w₁.db.rawEvents = w.db.rawEvents ∧
      w₁.db.store = w.db.store ∧ w₁.db.canonicalEvents = w.db.canonicalEvents := by
    intro w₁ h
    rw [h.db]
    exact ⟨rfl, rfl, rfl⟩
  cases h with
  | schema hlookup hreads hprepares =>
    obtain ⟨hraw, hstore, hcanonical⟩ := hprepared hprepares
    exact ⟨hraw, hstore, hcanonical⟩
  | @llm _ _ _ w₁ _ hnew hoffered hbuild hprepares hlearns =>
    obtain ⟨hraw, hstore, hcanonical⟩ := hprepared hprepares
    rcases hlearns with rfl | ⟨-, hlearns⟩
    · exact ⟨hraw, hstore, hcanonical⟩
    · cases hlearns with
      | nothing hdb htrace =>
        rw [hdb]
        exact ⟨hraw, hstore, hcanonical⟩
      | persisted hdiscover hrow hdb heventTypes htrace =>
        rw [hdb]
        exact ⟨hraw, hstore, hcanonical⟩

/-- Finalizing an event gives its row the event's vendor, if it has none. -/
theorem delivered_finalized (db : Database) (eventId : EventId) (canonical : CanonicalEvent) (store : Store)
    (id : EventId) : ((db.finalized eventId canonical store).rawEvents.lookup id).map RawEvent.delivered =
      (db.rawEvents.lookup id).map fun row => if id = eventId
        then (row.vendorId.or (some canonical.base.vendorId), row.delivered.2) else row.delivered := by
  simp only [Database.finalized, Database.updateRawEvent, lookup_updateRows, Option.map_map]
  congr 1
  funext row
  by_cases hid : id = eventId
  · simp only [Function.comp_apply, if_pos hid]
    rfl
  · simp only [Function.comp_apply, if_neg hid]

/-- **A step finalizes one event or leaves the tables alone.** -/
theorem Worked.leaves {r : Except PyError ProcessOutcome} (hs : Sound w.db.store)
    (h : Worked env settings payload eventId vendorId w r w') :
    Leaves env settings payload eventId vendorId w r w' := by
  cases h with
  | @finalized draft normalized outcome store w₁ hdrafted hnormalize happly =>
    obtain ⟨hraw, hstore, hcanonical⟩ := hdrafted.frame
    have hid := (hdrafted.draft.normalized_base hnormalize).1
    rw [hstore] at happly
    refine .finalized hdrafted.draft hnormalize rfl (congrArg Prod.fst happly)
      (congrArg Prod.snd happly).symm ?_ fun id => ?_
    · rw [← hcanonical, ← hid]
      rfl
    · rw [← hraw]
      exact delivered_finalized w₁.db eventId normalized store id
  | @failed draft normalized e store w₁ hdrafted hnormalize happly =>
    obtain ⟨hraw, hstore, hcanonical⟩ := hdrafted.frame
    rw [hstore] at happly
    have hfirst := congrArg Prod.fst happly
    rcases applyEvent_ok_or_raises hs normalized with ⟨outcome, hok⟩ | ⟨hraises, n, hrows⟩
    · cases hok.symm.trans hfirst
    · cases hraises.symm.trans hfirst
      exact .raised hdrafted.draft hnormalize rfl hraises (congrArg Prod.snd happly).symm hrows hcanonical hraw
  | @stopped _ w₁ _ hprepared hfiles hr =>
    have hframe : w₁.db.rawEvents = w.db.rawEvents ∧ w₁.db.store = w.db.store ∧
        w₁.db.canonicalEvents = w.db.canonicalEvents := by
      rcases hprepared with hprepares | ⟨canonical, hdrafted⟩
      · rw [hprepares.db]
        exact ⟨rfl, rfl, rfl⟩
      · exact hdrafted.frame
    obtain ⟨hraw, hstore, hcanonical⟩ := hframe
    refine .stopped hr ?_ ?_ fun id => (hfiles.rawEvents id).trans (by rw [hraw])
    · rw [hfiles.db]
      exact hstore
    · rw [hfiles.db]
      exact hcanonical

end Step

/-! ### Runs -/

/-- What happens to the service. -/
inductive Action where
  /-- A delivery, with or without a vendor in its URL; the queue may be down. -/
  | receive (vendorId : Option VendorPath) (request : Request) (queueError : Option PyError)
  /-- `process_event`, on a day, with the answers the provider will give. -/
  | process (eventId : EventId) (day : Nat) (answers : List (Except PyError LLMResult))

section Runs
variable (env : Externals) (settings : Settings)

/-- One step of the service. -/
def serve (w : World) : Action → World
  | .receive vendorId request queueError =>
    (Job.run (receive env settings vendorId request) { w with queueError }).2
  | .process eventId day answers =>
    (Job.run (processEvent env settings eventId) (w.facing day answers)).2

/-- A run from the freshly migrated database. -/
def run (actions : List Action) : World := actions.foldl (serve env settings) World.start

/-- **A step of the worker**, on the row of its event. -/
theorem serve_process {w : World} (hs : Sound w.db.store) {eventId : EventId} {row : RawEvent}
    (hrow : w.db.rawEvents.lookup eventId = some row) (day : Nat) (answers : List (Except PyError LLMResult)) :
    Leaves env settings row.payload eventId (resolveVendorId env.toUnicode row) (w.facing day answers)
      (Job.run (processEvent env settings eventId) (w.facing day answers)).1
      (serve env settings w (.process eventId day answers)) := by
  have hworked := processEvent_worked env settings eventId (w.facing day answers)
  have hrow' : (w.facing day answers).db.rawEvents.lookup eventId = some row := hrow
  rw [hrow'] at hworked
  exact hworked.leaves hs

/-- Without a row there is nothing to do. -/
theorem serve_process_none {w : World} {eventId : EventId} (hrow : w.db.rawEvents.lookup eventId = none)
    (day : Nat) (answers : List (Except PyError LLMResult)) :
    Job.run (processEvent env settings eventId) (w.facing day answers) = (.ok .notFound, w.facing day answers) := by
  have hworked := processEvent_worked env settings eventId (w.facing day answers)
  have hrow' : (w.facing day answers).db.rawEvents.lookup eventId = none := hrow
  rw [hrow'] at hworked
  exact hworked

/-- **A delivery adds a raw event or nothing.** -/
theorem serve_receive (w : World) (vendorId : Option VendorPath) (request : Request)
    (queueError : Option PyError) :
    let w' := serve env settings w (.receive vendorId request queueError)
    (w'.db = w.db ∧ w'.trace = w.trace) ∨ ∃ payload signatureVerified,
      let eventId := computeEventId env (.obj payload) (vendorEventId env.toUnicode request payload)
      let vendorHint := vendorId.map VendorPath.text
      verifySignature env settings request vendorHint = .ok signatureVerified ∧
        w.db.rawEvents.lookup eventId = none ∧
        w'.db = w.db.insertRawEvent eventId vendorHint payload (storedHeaders request.headers)
          signatureVerified ∧
        (w'.trace = .accepted eventId vendorHint :: w.trace ∨
          w'.trace = .enqueued eventId :: .accepted eventId vendorHint :: w.trace) := by
  intro w'
  rcases ingest_cases env settings (vendorId.map VendorPath.text) request { w with queueError } with
    hsame | ⟨payload, signatureVerified, hverify, hnone, haccepted⟩
  · have hw' : w' = { w with queueError } := hsame
    exact .inl ⟨by rw [hw'], by rw [hw']⟩
  · exact .inr ⟨payload, signatureVerified, hverify, hnone, haccepted.1, haccepted.2⟩

/-- **The projections stay sound.** -/
theorem sound_serve {w : World} (hs : Sound w.db.store) (action : Action) :
    Sound (serve env settings w action).db.store := by
  cases action with
  | receive vendorId request queueError =>
    rcases serve_receive env settings w vendorId request queueError with
      ⟨hdb, -⟩ | ⟨payload, signatureVerified, -, -, hdb, -⟩
    · rw [hdb]
      exact hs
    · rw [hdb]
      exact hs
  | process eventId day answers =>
    cases hrow : w.db.rawEvents.lookup eventId with
    | none =>
      rw [serve, serve_process_none env settings hrow]
      exact hs
    | some row =>
      cases serve_process env settings hs hrow day answers with
      | finalized hdraft hnormalize hr houtcome hstore hcanonical hraw =>
        rw [hstore]
        exact sound_applyEvent hs _
      | raised hdraft hnormalize hr hraises hstore hrows hcanonical hraw =>
        rw [hstore]
        exact sound_applyEvent hs _
      | stopped hr hstore hcanonical hraw =>
        rw [hstore]
        exact hs

theorem sound_run (actions : List Action) : Sound (run env settings actions).db.store :=
  Runs.invariant (I := fun w : World => Sound w.db.store) (fun _ action hs => sound_serve env settings hs action)
    sound_empty

end Runs

/-! ### Worlds as data -/

/-- The same rows in every table, in the same order, with nothing left for the provider to say. -/
def World.SameTables (w w' : World) : Prop :=
  w.db.rawEvents.entries = w'.db.rawEvents.entries ∧
  w.db.canonicalEvents.entries = w'.db.canonicalEvents.entries ∧
  w.db.requiresHumanReview.entries = w'.db.requiresHumanReview.entries ∧
  w.db.store.entities.entries = w'.db.store.entities.entries ∧
  (w.db.store.projections .shipment).entries = (w'.db.store.projections .shipment).entries ∧
  (w.db.store.projections .invoice).entries = (w'.db.store.projections .invoice).entries ∧
  w.db.store.appliedEvents.entries = w'.db.store.appliedEvents.entries ∧
  w.db.store.staleEventLog = w'.db.store.staleEventLog ∧
  w.db.store.entitiesSeq = w'.db.store.entitiesSeq ∧
  w.db.llmCache.entries = w'.db.llmCache.entries ∧
  w.db.llmAudit = w'.db.llmAudit ∧
  w.db.vendorSchemas.entries = w'.db.vendorSchemas.entries ∧
  w.db.vendorSchemasSeq = w'.db.vendorSchemasSeq ∧
  w.db.vendorEventTypeMap.entries = w'.db.vendorEventTypeMap.entries ∧
  (w.answers.length = 0 ∧ w'.answers.length = 0) ∧
  w.today = w'.today ∧ w.queueError = w'.queueError ∧ w.trace = w'.trace

instance (w w' : World) : Decidable (w.SameTables w') := inferInstanceAs (Decidable (_ ∧ _))

theorem World.SameTables.eq {w w' : World} (h : w.SameTables w') : w = w' := by
  obtain ⟨db, answers, today, queueError, trace⟩ := w
  obtain ⟨db', answers', today', queueError', trace'⟩ := w'
  obtain ⟨raw, ⟨entities, projections, applied, stale, seq⟩, canonical, review, cache, audit, schemas,
    schemasSeq, types⟩ := db
  obtain ⟨raw', ⟨entities', projections', applied', stale', seq'⟩, canonical', review', cache', audit',
    schemas', schemasSeq', types'⟩ := db'
  obtain ⟨hraw, hcanonical, hreview, hentities, hshipments, hinvoices, happlied, hstale, hseq, hcache,
    haudit, hschemas, hschemasSeq, htypes, ⟨hnone, hnone'⟩, htoday, hqueue, htrace⟩ := h
  have hprojections : projections = projections' := by
    funext k
    cases k with
    | shipment => exact AList.ext hshipments
    | invoice => exact AList.ext hinvoices
  have hanswers : answers = answers' :=
    (List.eq_nil_of_length_eq_zero hnone).trans (List.eq_nil_of_length_eq_zero hnone').symm
  cases AList.ext hraw
  cases AList.ext hcanonical
  cases AList.ext hreview
  cases AList.ext hentities
  cases AList.ext happlied
  cases AList.ext hcache
  cases AList.ext hschemas
  cases AList.ext htypes
  cases hprojections
  cases hanswers
  cases hstale
  cases hseq
  cases haudit
  cases hschemasSeq
  cases htoday
  cases hqueue
  cases htrace
  rfl

/-! ### An invoice, delivered and processed -/

/-- A delivery of the invoice's payload. -/
def issuedRequest (docRef createdAt : String) : Request := ⟨encode (issuedText docRef createdAt), []⟩

def globalfreightpayPath : VendorPath := ⟨"globalfreightpay", by decide⟩

/-- The LLM's answer, at a tenth of a cent. -/
def issuedResult (rawKind : List String) : LLMResult := ⟨answerText rawKind, 1 / 1000⟩

/-- The event id of the invoice's payload. -/
def issuedId (docRef createdAt : String) : EventId :=
  computeEventId april28Runtime (.obj (issuedPayload docRef createdAt)) (some docRef)

/-- The invoice is processed, and the LLM answers. -/
def issuedStep (createdAt : String) : Action :=
  .process (issuedId "INV-1" createdAt) 1 [.ok (issuedResult ["issued"])]

/-- The database after the invoice came in at a vendor's URL, or at none, and was processed:
the LLM has named the vendor, and a schema was learned for the one the URL names. -/
def issuedDatabase (hint : Option String) (signatureVerified : Bool) (createdAt : String) : Database :=
  let eventId := issuedId "INV-1" createdAt
  let vendorId := hint.getD "unknown"
  let event := issuedEvent eventId .llm 1 5
  let fingerprint := structuralFingerprint april28Runtime (.obj (issuedPayload "INV-1" createdAt)) []
  let row : RawEvent :=
    { vendorId := some "globalfreightpay"
      payload := issuedPayload "INV-1" createdAt
      headers := []
      signatureVerified
      processingStatus := .processed
      processingError := none }
  { rawEvents := (∅ : Table _ _).insert eventId row
    store :=
      { entities := (∅ : Table _ _).insert event.key 1
        projections
          | .shipment => ∅
          | .invoice => (∅ : Table _ _).insert 1 (initialRow event)
        appliedEvents := (∅ : Table _ _).insert (1, eventId) "ISSUED"
        staleEventLog := []
        entitiesSeq := 2 }
    canonicalEvents := (∅ : Table _ _).insert eventId (.entity .invoice event)
    requiresHumanReview := ∅
    llmCache := (∅ : Table _ _).insert
      (extractCacheKey april28Runtime .defaults vendorId (issuedPayload "INV-1" createdAt))
      ⟨issuedAnswer ["issued"], 1 / 1000⟩
    llmAudit := [⟨eventId, .llm, 1 / 1000, vendorId, 1⟩]
    vendorSchemas := (∅ : Table _ _).insert ⟨vendorId, fingerprint, 1⟩ ⟨1, issuedSchema, .provisional, eventId, 0, 0⟩
    vendorSchemasSeq := 2
    vendorEventTypeMap := (∅ : Table _ _).insert (vendorId, "issued")
      ⟨"invoice", "invoice.issued", some (85 / 100), false⟩ }

/-- The world after the invoice was processed. -/
def issuedWorld (hint : Option String) (signatureVerified : Bool) (createdAt : String) : World :=
  let eventId := issuedId "INV-1" createdAt
  let vendorId := hint.getD "unknown"
  { db := issuedDatabase hint signatureVerified createdAt
    answers := []
    today := 1
    queueError := none
    trace := [.learned eventId vendorId 1 issuedSchema, .called vendorId 1 (some (1 / 1000)), .enqueued eventId,
      .accepted eventId hint] }

/-- The step on the invoice applies it, and leaves the world above. -/
def IssuedRun (settings : Settings) (vendorPath : Option VendorPath) (request : Request)
    (createdAt : String) (w' : World) : Prop :=
  let step := Job.run (processEvent april28Runtime settings (issuedId "INV-1" createdAt))
    ((run april28Runtime settings [.receive vendorPath request none]).facing 1 [.ok (issuedResult ["issued"])])
  step.1 = .ok (.finalized .appliedInitial) ∧ step.2.SameTables w'

instance (settings : Settings) (vendorPath : Option VendorPath) (request : Request) (createdAt : String)
    (w' : World) : Decidable (IssuedRun settings vendorPath request createdAt w') :=
  inferInstanceAs (Decidable (_ ∧ _))

theorem IssuedRun.serve_eq {settings : Settings} {vendorPath : Option VendorPath} {request : Request}
    {createdAt : String} {w' : World} (h : IssuedRun settings vendorPath request createdAt w') :
    serve april28Runtime settings (run april28Runtime settings [.receive vendorPath request none])
      (issuedStep createdAt) = w' := h.2.eq

theorem IssuedRun.eq {settings : Settings} {vendorPath : Option VendorPath} {request : Request}
    {createdAt : String} {w' : World} (h : IssuedRun settings vendorPath request createdAt w') :
    run april28Runtime settings [.receive vendorPath request none, issuedStep createdAt] = w' := h.2.eq

/-- The invoice at its vendor's URL, created as it was issued. -/
theorem issuedRun_when_created :
    IssuedRun .defaults (some globalfreightpayPath) (issuedRequest "INV-1" "2026-04-28T05:00:00Z")
      "2026-04-28T05:00:00Z" (issuedWorld (some "globalfreightpay") false "2026-04-28T05:00:00Z") := by
  decide +kernel

/-- The invoice at its vendor's URL, created before it was issued. -/
theorem issuedRun_after_created :
    IssuedRun .defaults (some globalfreightpayPath) (issuedRequest "INV-1" "2026-04-28T01:00:00Z")
      "2026-04-28T01:00:00Z" (issuedWorld (some "globalfreightpay") false "2026-04-28T01:00:00Z") := by
  decide +kernel

/-- Signatures are enforced, and the invoice's vendor has a secret. -/
def enforcing : Settings :=
  { Settings.defaults with
    webhookVendorSecrets := [("globalfreightpay", "s3cret")]
    webhookSignatureEnforce := true }

/-- The invoice without a vendor in the URL, where signatures are enforced. -/
theorem issuedRun_unscoped :
    IssuedRun enforcing none (issuedRequest "INV-1" "2026-04-28T05:00:00Z") "2026-04-28T05:00:00Z"
      (issuedWorld none false "2026-04-28T05:00:00Z") := by
  decide +kernel

end WebhookIngestion
