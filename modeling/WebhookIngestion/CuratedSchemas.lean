import WebhookIngestion.FailureReports
import WebhookIngestion.WorkerSteps

/-! # Discovery beside curated schemas

`discover_and_persist` writes a schema row, and then the mapping of the raw event type.  Its
statement leaves a curated row alone and returns none, which it does not expect: it raises, and the
mapping is not written. -/
namespace WebhookIngestion
open Tables Text Programs

/-! ### The contract -/

section
variable (env : Externals) (vendorId : String) (payload llmOutput : JsonObject) (eventId : EventId) (w : World)

/-- **What discovery promises**: a schema id or none, no change to a curated row of the shape, and a mapping
for the raw event type that a validated document yields. -/
structure KeepsContract : Prop where
  returns : Returns (Job.run (discoverAndPersist env vendorId payload llmOutput eventId) w).1
  curated : ∀ key row, key.vendorId = vendorId →
    key.structuralFingerprint = structuralFingerprint env (.obj payload) [] →
    w.db.vendorSchemas.lookup key = some row → row.status ≠ .provisional →
      (Job.run (discoverAndPersist env vendorId payload llmOutput eventId) w).2.db.vendorSchemas.lookup key = some row
  mapped : ∀ (k : EntityType) schemaDoc raw, llmOutput.get "classification" = .str k.classification.value →
    discoverSchema env payload eventId vendorId llmOutput = .ok (some schemaDoc) →
    findRawEventType env.toUnicode payload schemaDoc = .ok raw → raw.truthy = true →
      ((Job.run (discoverAndPersist env vendorId payload llmOutput eventId) w).2.db.vendorEventTypeMap.lookup
        (vendorId, raw.text env.toUnicode)).isSome

/-- The canonical state that a document is validated with, if it is extracted with at all. -/
def validationState (schemaDoc llmOutput : JsonObject) : Option (Option String) :=
  if schemaDoc.get "classification" = .str "unclassified" then some none
  else match llmOutput.get "event_type" with
    | .str eventType => if eventType = "" then none else some (some eventType)
    | _ => none

/-- The inferred document can be extracted with, and no curated row stands in the place of its own. -/
structure CanLearn : Prop where
  extractable : ∀ schemaDoc fields state,
    inferSchemaDoc env.toUnicode payload llmOutput (llmOutput.get "classification") = some schemaDoc →
    schemaFields schemaDoc = .ok fields → validationState schemaDoc llmOutput = some state →
      Extractable env payload fields vendorId (schemaDoc.get "classification") state
  provisional : ∀ schemaDoc row, discoverSchema env payload eventId vendorId llmOutput = .ok (some schemaDoc) →
    w.db.vendorSchemas.lookup (lessonKey env vendorId payload) = some row → row.status = .provisional

end

/-! ### Validation -/

section Validation
variable {env : Externals} {vendorId eventId : String} {payload llmOutput schemaDoc : JsonObject}

theorem returns_validateSchema : Returns (validateSchema env payload eventId vendorId schemaDoc llmOutput) ↔
    ∀ state, validationState schemaDoc llmOutput = some state →
      Returns (extract env payload eventId vendorId schemaDoc state none) := by
  rw [validateSchema, validationState]
  split
  · rw [returns_bind_left]
    · simp
    · exact fun _ => .ok _
  · cases llmOutput.get "event_type" with
    | str eventType =>
      dsimp only
      split
      · exact iff_of_true (.ok _) fun _ h => by cases h
      · rw [returns_bind_left]
        · simp
        · intro result
          cases result.event <;> exact .ok _
    | _ => exact iff_of_true (.ok _) fun _ h => by cases h

theorem returns_discoverSchema : Returns (discoverSchema env payload eventId vendorId llmOutput) ↔
    ∀ schemaDoc, inferSchemaDoc env.toUnicode payload llmOutput (llmOutput.get "classification") = some schemaDoc →
      Returns (validateSchema env payload eventId vendorId schemaDoc llmOutput) := by
  rw [discoverSchema]
  split
  · next hfalsy =>
    have hnone : inferSchemaDoc env.toUnicode payload llmOutput (llmOutput.get "classification") = none := by
      rw [inferSchemaDoc, if_neg, if_neg, if_neg] <;> (intro heq; rw [heq] at hfalsy; exact absurd hfalsy (by decide))
    exact iff_of_true (.ok _) fun schemaDoc h => by rw [hnone] at h; cases h
  · cases inferSchemaDoc env.toUnicode payload llmOutput (llmOutput.get "classification") with
    | none => exact iff_of_true (.ok _) fun schemaDoc h => by cases h
    | some schemaDoc =>
      dsimp only
      rw [returns_bind_left]
      · simp
      · intro valid
        split <;> exact .ok _

variable {fields : JsonObject}

/-- **A document is validated without an exception if the payload is `Extractable` with it.** -/
theorem returns_discoverSchema_iff (hdateutil : DateutilContract env) (hid : strip eventId ≠ "") :
    Returns (discoverSchema env payload eventId vendorId llmOutput) ↔ ∀ schemaDoc fields state,
      inferSchemaDoc env.toUnicode payload llmOutput (llmOutput.get "classification") = some schemaDoc →
      schemaFields schemaDoc = .ok fields → validationState schemaDoc llmOutput = some state →
        Extractable env payload fields vendorId (schemaDoc.get "classification") state := by
  rw [returns_discoverSchema]
  constructor
  · intro h schemaDoc fields state hinfer hfields hstate
    obtain ⟨c, fields, rfl, hlearned⟩ := learned_of_inferSchemaDoc hinfer
    cases hfields
    have hextract := returns_validateSchema.mp (h _ hinfer) state hstate
    exact (returns_extract hlearned hid hdateutil rfl (schemaClassification_truthy c _ none)).mp hextract
  · intro h schemaDoc hinfer
    obtain ⟨c, fields, rfl, hlearned⟩ := learned_of_inferSchemaDoc hinfer
    refine returns_validateSchema.mpr fun state hstate => ?_
    exact (returns_extract hlearned hid hdateutil rfl (schemaClassification_truthy c _ none)).mpr
      (h _ fields state hinfer rfl hstate)

/-- The raw event type of a validated document is found. -/
theorem returns_findRawEventType (hdateutil : DateutilContract env) (hid : strip eventId ≠ "")
    (h : discoverSchema env payload eventId vendorId llmOutput = .ok (some schemaDoc)) :
    Returns (findRawEventType env.toUnicode payload schemaDoc) := by
  obtain ⟨hinfer, hvalid⟩ := discoverSchema_inferred h
  obtain ⟨c, fields, rfl, hlearned⟩ := learned_of_inferSchemaDoc hinfer
  obtain ⟨state, hstate⟩ : ∃ state, validationState (schemaDocument c fields) llmOutput = some state := by
    rw [validationState]
    rw [validateSchema] at hvalid
    split at hvalid
    · next hclass => exact ⟨none, if_pos hclass⟩
    · next hclass =>
      rw [if_neg hclass]
      revert hvalid
      cases llmOutput.get "event_type" with
      | str eventType =>
        intro hvalid
        change (if eventType = "" then Except.ok false else _) = .ok true at hvalid
        change ∃ state, (if eventType = "" then none else some (some eventType)) = some state
        by_cases hempty : eventType = ""
        · rw [if_pos hempty] at hvalid
          cases hvalid
        · exact ⟨some eventType, if_neg hempty⟩
      | _ =>
        intro hvalid
        cases hvalid
  have hextractable := (returns_discoverSchema_iff hdateutil hid).mp ⟨_, h⟩ _ fields state hinfer rfl hstate
  have hspec := hlearned.scalar "event_type" (by decide)
  have hresolved := (returns_resolveField hspec).mpr hextractable.eventType
  rw [findRawEventType]
  change Returns (match fields.get "event_type" with
    | .str path => resolvePath env.toUnicode payload (.str path)
    | _ => pure .null)
  revert hresolved
  cases fields.get "event_type" with
  | str path => exact id
  | _ => exact fun _ => .ok _

/-- A document has the classification it was inferred for. -/
theorem inferSchemaDoc_classification {u : Unicode} {classification : Json}
    (h : inferSchemaDoc u payload llmOutput classification = some schemaDoc) :
    schemaDoc.get "classification" = classification := by
  have hentity (k : EntityType) (hdoc : inferEntityDoc u payload llmOutput k = some schemaDoc) :
      schemaDoc.get "classification" = .str k.classification.value := by
    rw [inferEntityDoc] at hdoc
    split at hdoc
    · cases hdoc
    · cases hdoc
      rfl
  rw [inferSchemaDoc] at h
  split at h
  · next hclass => exact (hentity .shipment h).trans hclass.symm
  · split at h
    · next hclass => exact (hentity .invoice h).trans hclass.symm
    · split at h
      · next hclass =>
        cases h
        exact hclass.symm
      · cases h

/-- A document about an entity is validated with an event type. -/
theorem eventType_of_discoverSchema {k : EntityType}
    (hclass : llmOutput.get "classification" = .str k.classification.value)
    (h : discoverSchema env payload eventId vendorId llmOutput = .ok (some schemaDoc)) :
    ∃ eventType, llmOutput.get "event_type" = .str eventType ∧ eventType ≠ "" := by
  obtain ⟨hinfer, hvalid⟩ := discoverSchema_inferred h
  have hentity : schemaDoc.get "classification" ≠ .str "unclassified" := by
    rw [inferSchemaDoc_classification hinfer, hclass]
    cases k <;> decide
  rw [validateSchema, if_neg hentity] at hvalid
  split at hvalid
  · next eventType htype =>
    refine ⟨eventType, htype, fun hempty => ?_⟩
    rw [if_pos hempty] at hvalid
    cases hvalid
  · cases hvalid

end Validation

/-! ### What discovery leaves -/

section Discovery
variable {env : Externals} {vendorId : String} {eventId : EventId} {payload llmOutput schemaDoc : JsonObject}
variable {w : World}

/-- There is a mapping for the raw event type, if the answer is about an entity and has an event type. -/
def MapsRawType (env : Externals) (vendorId : String) (llmOutput : JsonObject) (rawEventType : Json)
    (db : Database) : Prop :=
  ∀ (k : EntityType) eventType, llmOutput.get "classification" = .str k.classification.value →
    llmOutput.get "event_type" = .str eventType → eventType ≠ "" → rawEventType.truthy = true →
      (db.vendorEventTypeMap.lookup (vendorId, rawEventType.text env.toUnicode)).isSome

/-- The rest of discovery succeeds: it leaves the schemas, and a mapping for the raw event type. -/
def Mapped (env : Externals) (vendorId : String) (llmOutput : JsonObject) (rawEventType : Json)
    (schemas : Table SchemaKey VendorSchema) {α : Type} (r : Except PyError α) (w : World) : Prop :=
  Returns r ∧ w.db.vendorSchemas = schemas ∧ MapsRawType env vendorId llmOutput rawEventType w.db

theorem persistLessonType_maps (rawEventType : Json) (schemas : Table SchemaKey VendorSchema) :
    Program.Triple Op.handle (fun w => w.db.vendorSchemas = schemas)
      (persistLessonType env vendorId llmOutput rawEventType)
      (Mapped env vendorId llmOutput rawEventType schemas) := by
  rw [persistLessonType]
  split
  · next classification eventType hclass htype =>
    split
    · refine .perform ?_
      rintro w rfl
      rw [Op.handle, Database.insertEventType]
      refine ⟨.ok (), ?_, fun _ _ _ _ _ _ => ?_⟩
      · dsimp only
        split <;> rfl
      · dsimp only
        split
        · next mapping hlookup => rw [hlookup]; rfl
        · rw [lookup_insert_eq, if_pos rfl]; rfl
    · next hcond =>
      refine .ret fun w hw => ⟨.ok (), hw, fun k eventType' hk htype' hne htruthy => ?_⟩
      cases htype.symm.trans htype'
      obtain rfl : classification = k.classification.value := Json.str.inj (hclass.symm.trans hk)
      exact absurd ⟨hne, htruthy, by cases k <;> decide⟩ hcond
  · next hnot => exact .ret fun w hw => ⟨.ok (), hw, fun k eventType hk htype => (hnot _ _ hk htype).elim⟩

/-- A curated row in the place of a document's own makes discovery raise. -/
theorem run_discoverAndPersist_curated
    (hdiscover : discoverSchema env payload eventId vendorId llmOutput = .ok (some schemaDoc))
    (hrow : w.db.schemaRow (lessonKey env vendorId payload) schemaDoc eventId = none) :
    Job.run (discoverAndPersist env vendorId payload llmOutput eventId) w =
      (.error .typeError, { w with db := { w.db with vendorSchemasSeq := w.db.vendorSchemasSeq + 1 } }) := by
  have hupsert : (Op.upsertSchema vendorId (structuralFingerprint env (.obj payload) []) schemaDoc eventId).handle w =
      (.ok none, { w with db := { w.db with vendorSchemasSeq := w.db.vendorSchemasSeq + 1 } }) := by
    rw [lessonKey] at hrow
    rw [Op.handle, Database.upsertSchema, hrow]
  rw [Job.run, discoverAndPersist, hdiscover]
  exact Program.run_perform_bind Op.handle hupsert _

/-- **A document that is persisted takes its own row, and its raw event type is mapped.** -/
theorem run_discoverAndPersist_learned {row : VendorSchema} {rawEventType : Json}
    (hdiscover : discoverSchema env payload eventId vendorId llmOutput = .ok (some schemaDoc))
    (hrow : w.db.schemaRow (lessonKey env vendorId payload) schemaDoc eventId = some row)
    (hraw : findRawEventType env.toUnicode payload schemaDoc = .ok rawEventType) :
    Mapped env vendorId llmOutput rawEventType (w.db.vendorSchemas.insert (lessonKey env vendorId payload) row)
      (Job.run (discoverAndPersist env vendorId payload llmOutput eventId) w).1
      (Job.run (discoverAndPersist env vendorId payload llmOutput eventId) w).2 := by
  have hupsert : (Op.upsertSchema vendorId (structuralFingerprint env (.obj payload) []) schemaDoc eventId).handle w =
      (.ok (some row.id), { w with db := { w.db with
        vendorSchemas := w.db.vendorSchemas.insert (lessonKey env vendorId payload) row
        vendorSchemasSeq := w.db.vendorSchemasSeq + 1 } }) := by
    rw [lessonKey] at hrow
    rw [Op.handle, Database.upsertSchema, hrow]
    rfl
  have hrest (schemas : Table SchemaKey VendorSchema) :
      Program.Triple Op.handle (fun w => w.db.vendorSchemas = schemas)
        (do
          let rawEventType ← Program.ofExcept (findRawEventType env.toUnicode payload schemaDoc)
          persistLessonType env vendorId llmOutput rawEventType
          .perform (Op.note (.learned eventId vendorId row.id schemaDoc))
          return some row.id : Job (Option SchemaId))
        (Mapped env vendorId llmOutput rawEventType schemas) := by
    rw [hraw]
    simp only [Program.ofExcept, Program.ret_bind]
    refine .bind (persistLessonType_maps rawEventType schemas) (fun _ => ?_) fun e w h => ?_
    · rintro w ⟨-, hschemas, hmaps⟩
      exact ⟨.ok _, hschemas, hmaps⟩
    · exact absurd h.1 (not_returns_error e)
  rw [Job.run, discoverAndPersist, hdiscover]
  simp only [Program.ofExcept, Program.ret_bind]
  rw [Program.run_perform_bind Op.handle hupsert]
  exact hrest _ _ rfl

/-- Discovery raises what inferring and validating the document raises. -/
theorem returns_discoverSchema_of_run
    (h : Returns (Job.run (discoverAndPersist env vendorId payload llmOutput eventId) w).1) :
    Returns (discoverSchema env payload eventId vendorId llmOutput) := by
  rw [Job.run, discoverAndPersist] at h
  cases hdiscover : discoverSchema env payload eventId vendorId llmOutput with
  | ok schemaDoc => exact .ok schemaDoc
  | error e =>
    rw [hdiscover] at h
    exact absurd h (not_returns_error e)

theorem run_discoverAndPersist_none (hdiscover : discoverSchema env payload eventId vendorId llmOutput = .ok none) :
    Job.run (discoverAndPersist env vendorId payload llmOutput eventId) w = (.ok none, w) := by
  rw [Job.run, discoverAndPersist, hdiscover]
  rfl

end Discovery

/-- **Discovery keeps its contract exactly if the document can be extracted with, and a row in its place is
provisional.** -/
theorem keepsContract_iff {env : Externals} (hdateutil : DateutilContract env) (vendorId : String)
    (payload llmOutput : JsonObject) (digest : HexDigest) (w : World) :
    KeepsContract env vendorId payload llmOutput digest.text w ↔
      CanLearn env vendorId payload llmOutput digest.text w := by
  constructor
  · intro h
    refine ⟨(returns_discoverSchema_iff hdateutil digest.strip_text).mp (returns_discoverSchema_of_run h.returns), ?_⟩
    intro schemaDoc row hdiscover hlookup
    by_contra hcurated
    have hrow : w.db.schemaRow (lessonKey env vendorId payload) schemaDoc digest.text = none := by
      rw [Database.schemaRow, hlookup]
      exact if_neg hcurated
    have hreturns := h.returns
    rw [run_discoverAndPersist_curated hdiscover hrow] at hreturns
    exact not_returns_error _ hreturns
  · intro h
    obtain ⟨doc, hdiscover⟩ := (returns_discoverSchema_iff hdateutil digest.strip_text).mpr h.extractable
    cases doc with
    | none =>
      have hrun := run_discoverAndPersist_none (w := w) hdiscover
      refine ⟨by rw [hrun]; exact .ok _, fun key row _ _ hlookup _ => by rw [hrun]; exact hlookup, ?_⟩
      intro k schemaDoc raw _ hdiscover'
      cases hdiscover.symm.trans hdiscover'
    | some schemaDoc =>
      obtain ⟨rawEventType, hraw⟩ := returns_findRawEventType hdateutil digest.strip_text hdiscover
      obtain ⟨row, hrow⟩ : ∃ row, w.db.schemaRow (lessonKey env vendorId payload) schemaDoc digest.text = some row := by
        rw [Database.schemaRow]
        cases hlookup : w.db.vendorSchemas.lookup (lessonKey env vendorId payload) with
        | none => exact ⟨_, rfl⟩
        | some row => exact ⟨_, if_pos (h.provisional schemaDoc row hdiscover hlookup)⟩
      obtain ⟨hreturns, hschemas, hmaps⟩ := run_discoverAndPersist_learned hdiscover hrow hraw
      refine ⟨hreturns, ?_, ?_⟩
      · intro key row' _ _ hlookup hcurated
        rw [hschemas, lookup_insert_eq, if_neg]
        · exact hlookup
        · rintro rfl
          exact hcurated (h.provisional schemaDoc row' hdiscover hlookup)
      · intro k schemaDoc' raw hclass hdiscover' hraw' htruthy
        cases hdiscover.symm.trans hdiscover'
        cases hraw.symm.trans hraw'
        obtain ⟨eventType, htype, hne⟩ := eventType_of_discoverSchema hclass hdiscover
        exact hmaps k eventType hclass htype hne htruthy

theorem keepsContract_iff_witness :
    KeepsContract april28Runtime "globalfreightpay" (issuedPayload "INV-1" "2026-04-28T05:00:00Z")
      (issuedAnswer ["issued"]) (april28Runtime.sha256 []).text World.start := by
  have hdateutil : DateutilContract april28Runtime := dateutil_ofTables _ _ _ _
  have hdiscover : discoverSchema april28Runtime (issuedPayload "INV-1" "2026-04-28T05:00:00Z")
      (april28Runtime.sha256 []).text "globalfreightpay" (issuedAnswer ["issued"]) = .ok (some issuedSchema) := by
    decide +kernel
  refine (keepsContract_iff hdateutil "globalfreightpay" _ _ (april28Runtime.sha256 []) World.start).mpr ⟨?_, ?_⟩
  · exact (returns_discoverSchema_iff hdateutil (april28Runtime.sha256 []).strip_text).mp ⟨_, hdiscover⟩
  · intro schemaDoc row _ hlookup
    cases hlookup

/-! ### A curated row -/

/-- The database with an active row for the shape of the issued invoices. -/
def curatedWorld : World :=
  let key := lessonKey april28Runtime "globalfreightpay" (issuedPayload "INV-1" "2026-04-28T05:00:00Z")
  let row : VendorSchema := ⟨1, issuedSchema, .active, "", 0, 0⟩
  let schemas : Table SchemaKey VendorSchema := ∅
  { World.start with db := { Database.empty with vendorSchemas := schemas.insert key row, vendorSchemasSeq := 2 } }

/-- Beside a curated row discovery raises, and the mapping it has learned is lost. -/
theorem curated_row_raises :
    let eventId := (april28Runtime.sha256 []).text
    let payload := issuedPayload "INV-1" "2026-04-28T05:00:00Z"
    let answer := issuedAnswer ["issued"]
    let run := Job.run (discoverAndPersist april28Runtime "globalfreightpay" payload answer eventId) curatedWorld
    matchesTarget answer = true ∧
      discoverSchema april28Runtime payload eventId "globalfreightpay" answer = .ok (some issuedSchema) ∧
      findRawEventType april28Runtime.toUnicode payload issuedSchema = .ok (.str "issued") ∧
      run.1 = .error .typeError ∧ run.2.db.vendorEventTypeMap.lookup ("globalfreightpay", "issued") = none ∧
      ¬ KeepsContract april28Runtime "globalfreightpay" payload answer eventId curatedWorld := by
  have hdiscover : discoverSchema april28Runtime (issuedPayload "INV-1" "2026-04-28T05:00:00Z")
      (april28Runtime.sha256 []).text "globalfreightpay" (issuedAnswer ["issued"]) = .ok (some issuedSchema) := by
    decide +kernel
  have hrow : curatedWorld.db.schemaRow (lessonKey april28Runtime "globalfreightpay"
      (issuedPayload "INV-1" "2026-04-28T05:00:00Z")) issuedSchema (april28Runtime.sha256 []).text = none := by
    simp only [Database.schemaRow, curatedWorld, AList.lookup_insert]
    rfl
  have hrun := run_discoverAndPersist_curated hdiscover hrow
  refine ⟨by decide +kernel, hdiscover, by decide +kernel, by rw [hrun], by rw [hrun]; rfl, fun h => ?_⟩
  have hreturns := h.returns
  rw [hrun] at hreturns
  exact not_returns_error _ hreturns

end WebhookIngestion
