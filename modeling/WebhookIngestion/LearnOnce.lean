import WebhookIngestion.CuratedSchemas
import WebhookIngestion.Lessons
import WebhookIngestion.UsableMappings

/-! # Learning once

A lesson serves if it is found for its shape, and Path A reads the payload it was learned
from with it and a stored mapping (`Learned`).  A step teaches such lessons only if they
last (`Lasting`); where every lesson of a run lasts, an event that reads the same is never
sent to the provider again (`learn_once`). -/
namespace WebhookIngestion
open Tables Text Programs Runs

/-! ### Lessons that serve -/

section Lesson
variable (env : Externals) (payload : JsonObject) (eventId : EventId) (vendorId : String) (schemaDoc : JsonObject)

/-- **A lesson that serves**: the document is found for the shape, and Path A needs no help with it. -/
structure Learned (db : Database) : Prop where
  found : ∃ schemaId, lookupSchema db.vendorSchemas vendorId (structuralFingerprint env (.obj payload) []) =
    some ⟨schemaId, schemaDoc⟩
  reads : ∃ canonical, Reads env payload eventId vendorId schemaDoc (Stored db vendorId) canonical

variable {env payload eventId vendorId schemaDoc}

variable {db db' : Database}

/-- A lesson is found as long as its shape is, and its mapping stays. -/
theorem Learned.of_stored (h : Learned env payload eventId vendorId schemaDoc db)
    (hfound : ∃ schemaId, lookupSchema db'.vendorSchemas vendorId (structuralFingerprint env (.obj payload) []) =
      some ⟨schemaId, schemaDoc⟩)
    (htypes : ∀ key mapping, db.vendorEventTypeMap.lookup key = some mapping →
      db'.vendorEventTypeMap.lookup key = some mapping) :
    Learned env payload eventId vendorId schemaDoc db' := by
  obtain ⟨canonical, hreads⟩ := h.reads
  refine ⟨hfound, canonical, hreads.mono ?_⟩
  rintro rawEventType classification canonicalState ⟨mapping, hmapping, hclass, hstate⟩
  exact ⟨mapping, htypes _ _ hmapping, hclass, hstate⟩

theorem Learned.of_tables (h : Learned env payload eventId vendorId schemaDoc db)
    (hschemas : db'.vendorSchemas = db.vendorSchemas) (htypes : db'.vendorEventTypeMap = db.vendorEventTypeMap) :
    Learned env payload eventId vendorId schemaDoc db' :=
  h.of_stored (hschemas ▸ h.found) fun _ _ hmapping => htypes ▸ hmapping

variable {w w' : World}

theorem Learned.of_prepares (h : Learned env payload eventId vendorId schemaDoc w.db) (hprepares : Prepares w w') :
    Learned env payload eventId vendorId schemaDoc w'.db := by
  obtain ⟨schemaId, hfound⟩ := h.found
  refine h.of_stored ⟨schemaId, ?_⟩ hprepares.eventTypes
  rw [lookupSchema_congr fun key _ _ => hprepares.schemas key]
  exact hfound

theorem Learned.succeeded (h : Learned env payload eventId vendorId schemaDoc w.db) (id : EventId)
    (schemaId : SchemaId) : Learned env payload eventId vendorId schemaDoc (w.succeeded id schemaId).db := by
  obtain ⟨schemaId', hfound⟩ := h.found
  refine h.of_stored ⟨schemaId', ?_⟩ fun _ _ hmapping => hmapping
  rw [← hfound]
  refine lookupSchema_congr fun key _ _ => ?_
  apply lesson_updateSchema
  exact fun _ => rfl

/-- What a statement of a lesson leaves under its key. -/
theorem schemaRow_eq_some {key : SchemaKey} {row : VendorSchema} (h : db.schemaRow key schemaDoc eventId = some row) :
    row.schemaDoc = schemaDoc ∧ row.status = .provisional ∧
      ∀ old, db.vendorSchemas.lookup key = some old → old.status = row.status := by
  rw [Database.schemaRow] at h
  cases hold : db.vendorSchemas.lookup key with
  | none =>
    rw [hold] at h
    cases h
    exact ⟨rfl, rfl, fun old h => by cases h⟩
  | some old =>
    simp only [hold] at h
    split at h
    · next hprovisional =>
      cases h
      exact ⟨rfl, hprovisional, fun old' h => by cases h; rfl⟩
    · cases h

/-- **After a lesson its document is found**, if it was the document of the shape before. -/
theorem found_of_persisted {row : VendorSchema}
    (hrow : db.schemaRow (lessonKey env vendorId payload) schemaDoc eventId = some row)
    (hschemas : db'.vendorSchemas = db.vendorSchemas.insert (lessonKey env vendorId payload) row)
    (hsame : ∀ schemaMatch, lookupSchema db.vendorSchemas vendorId (structuralFingerprint env (.obj payload) []) =
      some schemaMatch → schemaMatch.schemaDoc = schemaDoc) :
    ∃ schemaId, lookupSchema db'.vendorSchemas vendorId (structuralFingerprint env (.obj payload) []) =
      some ⟨schemaId, schemaDoc⟩ := by
  obtain ⟨hdoc, hprovisional, hstatus⟩ := schemaRow_eq_some hrow
  have hlive : row.status ≠ .deprecated := by
    rw [hprovisional]
    decide
  obtain ⟨schemaMatch, hfound, hwhich⟩ := lookupSchema_insert hlive hstatus
  rw [hschemas]
  refine ⟨schemaMatch.schemaId, hfound.trans ?_⟩
  rcases hwhich with rfl | hold
  · rw [hdoc]
  · rw [← hsame schemaMatch hold]

end Lesson

/-! ### Reading a lesson's payload -/

section Reading
variable {env : Externals} {payload llmOutput : JsonObject} {eventId vendorId : String} {schemaDoc : JsonObject}

/-- The classification a document has may as well be asked for. -/
theorem extract_own_classification {classification : String} {canonicalState : Option String}
    (hclass : schemaDoc.get "classification" = .str classification) (hne : classification ≠ "") :
    extract env payload eventId vendorId schemaDoc canonicalState (some classification) =
      extract env payload eventId vendorId schemaDoc canonicalState none := by
  have hsame : schemaClassification schemaDoc (some classification) = schemaClassification schemaDoc none := by
    have htruthy : (Json.str classification).truthy = true := decide_eq_true hne
    rw [schemaClassification, schemaClassification, Json.ofText, Json.ofText, if_pos htruthy, if_neg (by decide),
      hclass]
  rw [extract, extract, hsame]

theorem textIfTruthy_of_ne {u : Unicode} {x : Json} (h : (x.textIfTruthy u).getD "" ≠ "") :
    x.truthy = true ∧ x.textIfTruthy u = some (x.text u) := by
  rw [Json.textIfTruthy] at h ⊢
  split
  · next htruthy => exact ⟨htruthy, rfl⟩
  · next hfalsy =>
    rw [if_neg hfalsy] at h
    exact absurd rfl h

/-- The first pass over a payload that has a raw event type. -/
theorem extract_first {k : EntityType} {fields : JsonObject} {raw : Json}
    (hraw : findRawEventType env.toUnicode payload (schemaDocument k.classification fields) = .ok raw)
    (htext : (raw.textIfTruthy env.toUnicode).getD "" ≠ "") :
    extract env payload eventId vendorId (schemaDocument k.classification fields) none none =
      .ok ⟨raw.textIfTruthy env.toUnicode, .error .canonicalStateNotResolved⟩ := by
  have hfield : resolveField env.toUnicode payload (fields.get "event_type") = .ok raw := by
    rw [findRawEventType] at hraw
    obtain ⟨fields', hfields, hraw⟩ := bind_eq_ok.mp hraw
    cases hfields
    revert hraw
    cases fields.get "event_type" with
    | str path => exact id
    | _ =>
      intro hraw
      cases hraw
      exact absurd rfl htext
  have hfirst : extract env payload eventId vendorId (schemaDocument k.classification fields) none none = (do
      let raw ← resolveField env.toUnicode payload (fields.get "event_type")
      return ⟨raw.textIfTruthy env.toUnicode, .error .canonicalStateNotResolved⟩) := by cases k <;> rfl
  rw [hfirst, hfield]
  rfl

/-- **A document is validated by extracting the payload**, with the event type of the answer unless it is
for unclassified events. -/
theorem extract_of_validated (hvalid : validateSchema env payload eventId vendorId schemaDoc llmOutput = .ok true) :
    (schemaDoc.get "classification" = .str "unclassified" ∧ ∃ rawEventType canonical,
      extract env payload eventId vendorId schemaDoc none none = .ok ⟨rawEventType, .ok canonical⟩) ∨
    (schemaDoc.get "classification" ≠ .str "unclassified" ∧ ∃ eventType rawEventType canonical,
      llmOutput.get "event_type" = .str eventType ∧
        extract env payload eventId vendorId schemaDoc (some eventType) none = .ok ⟨rawEventType, .ok canonical⟩) := by
  rw [validateSchema] at hvalid
  split at hvalid
  · next hclass =>
    obtain ⟨⟨rawEventType, event⟩, hresult, hvalid⟩ := bind_eq_ok.mp hvalid
    cases event with
    | error e => cases hvalid
    | ok canonical => exact .inl ⟨hclass, rawEventType, canonical, hresult⟩
  · next hclass =>
    split at hvalid
    · next eventType htype =>
      split at hvalid
      · cases hvalid
      · obtain ⟨⟨rawEventType, event⟩, hresult, hvalid⟩ := bind_eq_ok.mp hvalid
        cases event with
        | error e => cases hvalid
        | ok canonical => exact .inr ⟨hclass, eventType, rawEventType, canonical, htype, hresult⟩
    · cases hvalid

/-- A document that is not for unclassified events is for entities of a kind. -/
theorem kind_of_document {c : Classification} {fields : JsonObject}
    (h : (schemaDocument c fields).get "classification" ≠ .str "unclassified") :
    ∃ k : EntityType, c = k.classification := by
  cases c with
  | shipment => exact ⟨.shipment, rfl⟩
  | invoice => exact ⟨.invoice, rfl⟩
  | unclassified => exact absurd rfl h

end Reading

/-! ### What a step teaches -/

section Condition
variable (env : Externals) (settings : Settings)

/-- The mappings that a step may find for a raw event type when it learns: the stored one, or the
classifier's answer, where it is asked. -/
inductive MappedAs (w : World) (eventId : EventId) (vendorId rawEventType : String) : String → String → Prop
  | stored {classification canonicalState : String}
      (hstored : Stored w.db vendorId rawEventType classification canonicalState) :
      MappedAs w eventId vendorId rawEventType classification canonicalState
  | asked {data : JsonObject} {classification canonicalState : String} {confidence : PyFloat} {numeric : Option Rat}
      (hasks : AsksClassifier env w eventId vendorId rawEventType)
      (hconsulted : Consulted env settings w vendorId rawEventType data)
      (hanswer : eventTypeAnswer env data = .ok (some (.str classification, .str canonicalState, confidence)))
      (hnumeric : floatToNumeric 4 3 confidence = .ok numeric) :
      MappedAs w eventId vendorId rawEventType classification canonicalState

/-- **A lesson that lasts**: the shape has no other document, the document finds a raw event type, and a
mapping that this has already reads the payload. -/
structure Lasting (w : World) (eventId : EventId) (row : RawEvent) (schemaDoc : JsonObject) : Prop where
  same : ∀ schemaMatch, lookupSchema w.db.vendorSchemas (resolveVendorId env.toUnicode row)
    (structuralFingerprint env (.obj row.payload) []) = some schemaMatch → schemaMatch.schemaDoc = schemaDoc
  readable : schemaDoc.get "classification" ≠ .str "unclassified" →
    ∃ raw, findRawEventType env.toUnicode row.payload schemaDoc = .ok raw ∧
      (raw.textIfTruthy env.toUnicode).getD "" ≠ "" ∧
        ∀ classification canonicalState,
          MappedAs env settings w eventId (resolveVendorId env.toUnicode row) (raw.text env.toUnicode)
            classification canonicalState →
            ∃ rawEventType canonical, extract env row.payload eventId (resolveVendorId env.toUnicode row) schemaDoc
              (some canonicalState) (some classification) = .ok ⟨rawEventType, .ok canonical⟩

/-- Every lesson that the answers of a step may teach lasts. -/
def TeachesLasting (w : World) (eventId : EventId) (row : RawEvent) : Prop :=
  ∀ data schemaDoc, ¬ Familiar env row.payload eventId (resolveVendorId env.toUnicode row) w.db →
    Offered env settings w (resolveVendorId env.toUnicode row) row.payload .llm data →
    discoverSchema env row.payload eventId (resolveVendorId env.toUnicode row) data = .ok (some schemaDoc) →
      Lasting env settings w eventId row schemaDoc

end Condition

section Teaching
variable {env : Externals} {settings : Settings} {eventId : EventId} {row : RawEvent} {w w' w'' : World}

/-- **What a step has taught serves**: every lesson among its marks is one of its event and its vendor,
and a lesson that serves. -/
def Teaches (env : Externals) (eventId : EventId) (row : RawEvent) (w w' : World) : Prop :=
  ∃ marks, w'.trace = marks ++ w.trace ∧ ∀ id vendorId schemaId schemaDoc,
    .learned id vendorId schemaId schemaDoc ∈ marks → vendorId = resolveVendorId env.toUnicode row ∧
      Learned env row.payload eventId (resolveVendorId env.toUnicode row) schemaDoc w'.db

theorem Teaches.of_tables (h : Teaches env eventId row w w') (htrace : w''.trace = w'.trace)
    (hschemas : w''.db.vendorSchemas = w'.db.vendorSchemas)
    (htypes : w''.db.vendorEventTypeMap = w'.db.vendorEventTypeMap) : Teaches env eventId row w w'' := by
  obtain ⟨marks, hmarks, hlearned⟩ := h
  refine ⟨marks, htrace.trans hmarks, fun id vendorId schemaId schemaDoc hmem => ?_⟩
  obtain ⟨hvendor, hserves⟩ := hlearned id vendorId schemaId schemaDoc hmem
  exact ⟨hvendor, hserves.of_tables hschemas htypes⟩

/-- Calls note no lesson. -/
theorem not_learned_of_calls {calls : List Mark} (hcalls : ∀ mark ∈ calls, mark.isCall = true) (id : EventId)
    (vendorId : String) (schemaId : SchemaId) (schemaDoc : JsonObject) :
    .learned id vendorId schemaId schemaDoc ∉ calls := by
  intro hmem
  have hcall := hcalls _ hmem
  cases hcall

/-- A step that notes no lesson teaches none. -/
theorem Teaches.of_marks {marks : List Mark} (htrace : w'.trace = marks ++ w.trace)
    (hnone : ∀ id vendorId schemaId schemaDoc, .learned id vendorId schemaId schemaDoc ∉ marks) :
    Teaches env eventId row w w' :=
  ⟨marks, htrace, fun id vendorId schemaId schemaDoc hmem => absurd hmem (hnone id vendorId schemaId schemaDoc)⟩

theorem Prepares.teaches (h : Prepares w w') : Teaches env eventId row w w' := by
  obtain ⟨calls, htrace, hcalls⟩ := h.trace
  exact .of_marks htrace (not_learned_of_calls hcalls)

/-- Finalizing teaches nothing more. -/
theorem finalizeEvent_teaches (vendorId : String) (canonical : CanonicalEvent) :
    Program.Keeps Op.handle (Teaches env eventId row w) (finalizeEvent eventId vendorId canonical) := by
  rw [finalizeEvent]
  split
  · refine .bind (.perform fun w' h => ?_) fun outcome => .ret _
    rw [Op.handle]
    split
    · exact h.of_tables rfl rfl rfl
    · exact h.of_tables rfl rfl rfl
  · exact .bind (.perform fun w' h => h.of_tables rfl rfl rfl) fun _ => .ret _
  · exact .raise _

/-- An answer that is not from the cache is the provider's. -/
theorem Offered.source_llm {vendorId : String} {payload data : JsonObject} {source : Source}
    (h : Offered env settings w vendorId payload source data) (hcache : source ≠ .llmCache) : source = .llm := by
  cases h with
  | answered => rfl
  | _ => exact absurd rfl hcache

/-- Every mapping of a table is one that the step may find. -/
def FindsMappings (env : Externals) (settings : Settings) (eventId : EventId) (w : World) (db : Database) : Prop :=
  MapHolds (fun key mapping =>
    MappedAs env settings w eventId key.1 key.2 mapping.classification mapping.canonicalState) db

theorem FindsMappings.refl : FindsMappings env settings eventId w w.db :=
  fun _ mapping hmapping => .stored ⟨mapping, hmapping, rfl, rfl⟩

/-- A mapping that discovery leaves was there before, or is the answer's own. -/
theorem discovery_mappings (h : FindsMappings env settings eventId w w'.db) (vendorId : String)
    (payload data : JsonObject) :
    MapHolds (fun key mapping =>
      MappedAs env settings w eventId key.1 key.2 mapping.classification mapping.canonicalState ∨
        data.get "classification" = .str mapping.classification ∧
          data.get "event_type" = .str mapping.canonicalState)
      (Job.run (discoverAndPersist env vendorId payload data eventId) w').2.db :=
  (discoverAndPersist_holds fun _ _ _ hclass htype _ => .inr ⟨hclass, htype⟩).run
    fun key mapping hmapping => .inl (h key mapping hmapping)

/-- **A lesson that lasts serves**, once discovery has noted it. -/
theorem learned_of_lasting {data schemaDoc : JsonObject} {schema : VendorSchema} {w₁ w₂ : World}
    (hdiscover : discoverSchema env row.payload eventId (resolveVendorId env.toUnicode row) data = .ok (some schemaDoc))
    (hlasting : Lasting env settings w eventId row schemaDoc) (hprepares : Prepares w w₁)
    (hmappings : FindsMappings env settings eventId w w₁.db)
    (hrow : w₁.db.schemaRow (lessonKey env (resolveVendorId env.toUnicode row) row.payload) schemaDoc eventId =
      some schema)
    (hrun : (Job.run (discoverAndPersist env (resolveVendorId env.toUnicode row) row.payload data eventId) w₁).2 = w₂)
    (hschemas : w₂.db.vendorSchemas =
      w₁.db.vendorSchemas.insert (lessonKey env (resolveVendorId env.toUnicode row) row.payload) schema) :
    Learned env row.payload eventId (resolveVendorId env.toUnicode row) schemaDoc w₂.db := by
  refine ⟨found_of_persisted hrow hschemas fun schemaMatch hfound => ?_, ?_⟩
  · rw [lookupSchema_congr fun key _ _ => hprepares.schemas key] at hfound
    exact hlasting.same schemaMatch hfound
  · obtain ⟨hinfer, hvalid⟩ := discoverSchema_inferred hdiscover
    rcases extract_of_validated hvalid with ⟨hclass, rawEventType, canonical, hextract⟩ |
      ⟨hentity, eventType, rawEventType, canonical, htype, hextract⟩
    · exact ⟨canonical, .unclassified hclass hextract⟩
    · obtain ⟨c, fields, rfl, -⟩ := learned_of_inferSchemaDoc hinfer
      obtain ⟨k, rfl⟩ := kind_of_document hentity
      obtain ⟨raw, hraw, htext, hreads⟩ := hlasting.readable hentity
      obtain ⟨htruthy, htextIf⟩ := textIfTruthy_of_ne htext
      have hclass : data.get "classification" = .str k.classification.value :=
        (inferSchemaDoc_classification hinfer).symm
      -- the raw event type has a mapping now
      obtain ⟨-, -, hmaps⟩ := run_discoverAndPersist_learned hdiscover hrow hraw
      obtain ⟨eventType', htype', hne⟩ := eventType_of_discoverSchema hclass hdiscover
      cases htype.symm.trans htype'
      have hmapped := hmaps k eventType hclass htype hne htruthy
      have hwhich := discovery_mappings hmappings (resolveVendorId env.toUnicode row) row.payload data
      rw [hrun] at hmapped hwhich
      obtain ⟨mapping, hmapping⟩ := Option.isSome_iff_exists.mp hmapped
      have hstored : Stored w₂.db (resolveVendorId env.toUnicode row) ((raw.textIfTruthy env.toUnicode).getD "")
          mapping.classification mapping.canonicalState := by
        rw [htextIf]
        exact ⟨mapping, hmapping, rfl, rfl⟩
      have hsecond : ∃ rawEventType canonical, extract env row.payload eventId (resolveVendorId env.toUnicode row)
          (schemaDocument k.classification fields) (some mapping.canonicalState) (some mapping.classification) =
            .ok ⟨rawEventType, .ok canonical⟩ := by
        rcases hwhich _ mapping hmapping with hold | ⟨hownClass, hownType⟩
        · exact hreads _ _ hold
        · -- the answer's own mapping is the one it was validated with
          cases htype.symm.trans hownType
          obtain hclassification := Json.str.inj (hclass.symm.trans hownClass)
          rw [← hclassification, extract_own_classification rfl (by cases k <;> decide)]
          exact ⟨rawEventType, canonical, hextract⟩
      obtain ⟨rawEventType', canonical', hsecond⟩ := hsecond
      exact ⟨canonical', .entity (extract_first hraw htext) (fun event hevent => by cases hevent) htext hstored hsecond⟩

/-- Discovery teaches what lasts, or nothing. -/
theorem discoverAndPersist_teaches {data : JsonObject} (hlasting : ∀ schemaDoc,
      discoverSchema env row.payload eventId (resolveVendorId env.toUnicode row) data = .ok (some schemaDoc) →
        Lasting env settings w eventId row schemaDoc) :
    Program.Triple Op.handle (fun w' => Prepares w w' ∧ FindsMappings env settings eventId w w'.db)
      (discoverAndPersist env (resolveVendorId env.toUnicode row) row.payload data eventId)
      fun _ => Teaches env eventId row w := by
  rintro w₁ ⟨hprepares, hmappings⟩
  have hlearns : Learns env eventId (resolveVendorId env.toUnicode row) row.payload data w₁
      (Program.run Op.handle
        (discoverAndPersist env (resolveVendorId env.toUnicode row) row.payload data eventId) w₁).2 :=
    discoverAndPersist_spec env data w₁ w₁ rfl
  obtain ⟨calls, htrace, hcalls⟩ := hprepares.trace
  have hunnoted : ∀ {w₂ : World}, w₂.trace = w₁.trace → Teaches env eventId row w w₂ := fun hsame =>
    .of_marks (hsame.trans htrace) (not_learned_of_calls hcalls)
  generalize hrun : (Program.run Op.handle _ w₁).2 = w₂ at hlearns ⊢
  cases hlearns with
  | nothing hdb hsame => exact hunnoted hsame
  | @persisted schemaDoc schema _ hdiscover hrow hdb heventTypes hnoted =>
    rcases hnoted with hsame | hnoted
    · exact hunnoted hsame
    · refine ⟨.learned eventId (resolveVendorId env.toUnicode row) schema.id schemaDoc :: calls,
        by rw [hnoted, htrace]; rfl, fun id vendorId schemaId schemaDoc' hmem => ?_⟩
      rcases List.mem_cons.mp hmem with hmark | hcall
      · cases hmark
        refine ⟨rfl, learned_of_lasting hdiscover (hlasting schemaDoc hdiscover) hprepares hmappings hrow hrun ?_⟩
        rw [hdb]
      · exact absurd hcall (not_learned_of_calls hcalls _ _ _ _)

/-- **Path B teaches what lasts.** -/
theorem processViaLLM_teaches (hlasting : TeachesLasting env settings w eventId row)
    (hnew : ¬ Familiar env row.payload eventId (resolveVendorId env.toUnicode row) w.db) :
    Program.Triple Op.handle
      (fun w' => Consults env (resolveVendorId env.toUnicode row) w w' ∧ FindsMappings env settings eventId w w'.db)
      (processViaLLM env settings eventId (resolveVendorId env.toUnicode row) row.payload)
      fun _ => Teaches env eventId row w := by
  rintro w₀ ⟨hconsults, hmappings⟩
  suffices hrest : Program.Triple Op.handle (fun w' => w' = w₀)
      (processViaLLM env settings eventId (resolveVendorId env.toUnicode row) row.payload)
      (fun _ => Teaches env eventId row w) from hrest w₀ rfl
  have hprepares : ∀ {w'}, Asks w₀ w' → Prepares w w' := fun hasks =>
    hconsults.toPrepares.trans hasks.prepares
  have hkept : ∀ {w'}, Asks w₀ w' → FindsMappings env settings eventId w w'.db := by
    intro w' hasks
    rw [hasks.db]
    exact hmappings
  refine .bind (universalNormalize_spec env settings (resolveVendorId_ne_empty env.toUnicode row) w₀)
    (fun result => ?_) fun e w' h => (hprepares h.1).teaches
  cases result with
  | ok canonical outcome =>
    dsimp only
    split
    · rename_i hfresh
      intro w₁ h
      have hoffered := (h.2 canonical outcome rfl).1
      have hllm : outcome.source = .llm := hoffered.source_llm hfresh.2
      rw [hllm] at hoffered
      have hdiscovery : Program.Triple Op.handle (fun w' => w' = w₁)
          (discoverAndPersist env (resolveVendorId env.toUnicode row) row.payload outcome.data eventId)
          (fun _ => Teaches env eventId row w) := by
        rintro w' rfl
        exact discoverAndPersist_teaches (fun schemaDoc => hlasting _ schemaDoc hnew (hconsults.offered hoffered))
          w' ⟨hprepares h.1, hkept h.1⟩
      exact Program.Triple.bind (R := fun _ => Teaches env eventId row w)
        (.tryCatch hdiscovery (fun _ _ h => h) fun _ => .ret fun _ h => h)
        (fun _ => (finalizeEvent_teaches _ canonical).triple) (fun e w' h => h) w₁ rfl
    · exact (finalizeEvent_teaches _ canonical).triple.weaken (fun w' h => (hprepares h.1).teaches) fun _ _ h => h
  | deferred =>
    intro w' h
    exact (hprepares h.1).teaches.of_tables rfl rfl rfl
  | unsupported reason =>
    intro w' h
    exact (hprepares h.1).teaches.of_tables rfl rfl rfl

/-- **A step teaches what lasts**, where every lesson its answers may teach does. -/
theorem processEvent_teaches (hrow : w.db.rawEvents.lookup eventId = some row)
    (hlasting : TeachesLasting env settings w eventId row) :
    Teaches env eventId row w (Job.run (processEvent env settings eventId) w).2 := by
  rw [Job.run, processEvent, Program.run_perform_bind Op.handle (by rw [Op.handle, hrow])]
  simp only [processRow]
  cases hlookup : lookupSchema w.db.vendorSchemas (resolveVendorId env.toUnicode row)
      (structuralFingerprint env (.obj row.payload) []) with
  | none =>
    rw [Program.run_perform_bind Op.handle (by rw [Op.handle, hlookup])]
    refine processViaLLM_teaches hlasting ?_ w ⟨.refl env _ w, .refl⟩
    rintro ⟨schemaMatch, canonical, hsome, -⟩
    rw [hlookup] at hsome
    cases hsome
  | some schemaMatch =>
    rw [Program.run_perform_bind Op.handle (by rw [Op.handle, hlookup])]
    have hholds : Program.Triple Op.handle (fun w' => w' = w)
        (processViaSchema env settings eventId (resolveVendorId env.toUnicode row) row.payload schemaMatch)
        (fun _ w' => FindsMappings env settings eventId w w'.db) :=
      processViaSchema_holds FindsMappings.refl hrow hlookup fun vendorId rawEventType hasks data hconsulted
        classification canonicalState confidence numeric hanswer hnumeric =>
          .asked hasks hconsulted hanswer hnumeric
    refine Program.Triple.bind (R := fun r w' =>
        (ViaSchema env row.payload eventId (resolveVendorId env.toUnicode row) schemaMatch w r w' ∧
          (r = .ok none → ¬ Familiar env row.payload eventId (resolveVendorId env.toUnicode row) w.db)) ∧
        FindsMappings env settings eventId w w'.db) (Q := fun _ => Teaches env eventId row w)
      (fun w' h => ⟨processViaSchema_spec env settings hlookup w' h, hholds w' h⟩) (fun canonical => ?_)
      (fun e w' h => h.1.1.teaches) w rfl
    cases canonical with
    | some canonical =>
      refine (finalizeEvent_teaches _ canonical).triple.weaken (fun w' h => ?_) fun _ _ h => h
      obtain ⟨⟨⟨-, w₁, hprepares, rfl⟩, -⟩, -⟩ := h
      obtain ⟨calls, htrace, hcalls⟩ := hprepares.trace
      have hmarks : (w₁.succeeded eventId schemaMatch.schemaId).trace =
          (.extracted eventId schemaMatch.schemaId :: calls) ++ w.trace := congrArg _ htrace
      refine .of_marks hmarks fun id vendorId schemaId schemaDoc hmem => ?_
      rcases List.mem_cons.mp hmem with hmark | hcall
      · cases hmark
      · exact not_learned_of_calls hcalls _ _ _ _ hcall
    | none =>
      intro w' h
      rw [Program.run_perform_bind Op.handle rfl]
      have hconsults : Consults env (resolveVendorId env.toUnicode row) w w' := h.1.1
      exact processViaLLM_teaches hlasting (h.1.2 rfl) _
        ⟨⟨hconsults.toPrepares.trans (prepares_incrementFailure schemaMatch.schemaId w'), hconsults.cache⟩, h.2⟩

end Teaching

/-! ### What later steps leave of a lesson -/

section Keeping
variable {env : Externals} {settings : Settings} {payload payload' : JsonObject} {eventId eventId' : EventId}
variable {vendorId vendorId' : String} {schemaDoc : JsonObject} {w w' : World}

/-- **Learning the same again leaves a lesson**, and so does learning another. -/
theorem Learned.of_learns {data : JsonObject} (h : Learned env payload eventId vendorId schemaDoc w.db)
    (hlearns : Learns env eventId' vendorId' payload' data w w')
    (hsame : ∀ schemaDoc', discoverSchema env payload' eventId' vendorId' data = .ok (some schemaDoc') →
      ∀ schemaMatch, lookupSchema w.db.vendorSchemas vendorId' (structuralFingerprint env (.obj payload') []) =
        some schemaMatch → schemaMatch.schemaDoc = schemaDoc') :
    Learned env payload eventId vendorId schemaDoc w'.db := by
  obtain ⟨schemaId, hfound⟩ := h.found
  cases hlearns with
  | nothing hdb htrace =>
    apply h.of_tables
    · rw [hdb]
    · rw [hdb]
  | @persisted schemaDoc' schema _ hdiscover hrow hdb heventTypes htrace =>
    have hschemas : w'.db.vendorSchemas =
        w.db.vendorSchemas.insert (lessonKey env vendorId' payload') schema := by rw [hdb]
    refine h.of_stored ?_ heventTypes
    by_cases hkey : vendorId' = vendorId ∧
        structuralFingerprint env (.obj payload') [] = structuralFingerprint env (.obj payload) []
    · obtain ⟨rfl, hshape⟩ := hkey
      rw [← hshape] at hfound ⊢
      obtain rfl : schemaDoc = schemaDoc' := hsame schemaDoc' hdiscover _ hfound
      exact found_of_persisted hrow hschemas (hsame schemaDoc hdiscover)
    · refine ⟨schemaId, ?_⟩
      rw [← hfound, hschemas]
      refine lookupSchema_congr fun key hvendor hfingerprint => ?_
      rw [lookup_insert_eq, if_neg]
      -- a lesson of another vendor or shape has another key
      rintro rfl
      exact hkey ⟨hvendor, hfingerprint⟩

/-- **A draft leaves a lesson.** -/
theorem Learned.of_drafted {row : RawEvent} {canonical : CanonicalEvent}
    (h : Learned env payload eventId vendorId schemaDoc w.db) (hlasting : TeachesLasting env settings w eventId' row)
    (hdrafted : Drafted env settings row.payload eventId' (resolveVendorId env.toUnicode row) w canonical w') :
    Learned env payload eventId vendorId schemaDoc w'.db := by
  cases hdrafted with
  | schema hlookup hreads hprepares => exact (h.of_prepares hprepares).succeeded _ _
  | @llm source data _ w₁ _ hnew hoffered hbuild hprepares hlearns =>
    have hprepared := h.of_prepares hprepares
    rcases hlearns with rfl | ⟨rfl, hlearns⟩
    · exact hprepared
    · refine hprepared.of_learns hlearns fun schemaDoc' hdiscover schemaMatch hfound => ?_
      rw [lookupSchema_congr fun key _ _ => hprepares.schemas key] at hfound
      exact (hlasting data schemaDoc' hnew hoffered hdiscover).same schemaMatch hfound

/-- The lessons that a step of the service may teach last. -/
def LearnsForGood (env : Externals) (settings : Settings) (w : World) : Action → Prop
  | .receive .. => True
  | .process eventId day answers => ∀ row, w.db.rawEvents.lookup eventId = some row →
      TeachesLasting env settings (w.facing day answers) eventId row

/-- **Every step leaves a lesson**, if what it teaches itself lasts. -/
theorem learned_serve (action : Action) (hgood : LearnsForGood env settings w action)
    (h : Learned env payload eventId vendorId schemaDoc w.db) :
    Learned env payload eventId vendorId schemaDoc (serve env settings w action).db := by
  cases action with
  | receive vendorPath request queueError =>
    rcases serve_receive env settings w vendorPath request queueError with ⟨hdb, -⟩ | ⟨_, _, -, -, hdb, -⟩
    · rw [hdb]
      exact h
    · rw [hdb]
      exact h.of_tables rfl rfl
  | process id day answers =>
    have hfacing : Learned env payload eventId vendorId schemaDoc (w.facing day answers).db := h
    cases hrow : w.db.rawEvents.lookup id with
    | none =>
      rw [serve, serve_process_none env settings hrow]
      exact hfacing
    | some row =>
      have hworked := processEvent_worked env settings id (w.facing day answers)
      have hrow' : (w.facing day answers).db.rawEvents.lookup id = some row := hrow
      rw [hrow'] at hworked
      rw [serve]
      generalize Job.run (processEvent env settings id) (w.facing day answers) = result at hworked ⊢
      obtain ⟨r, w'⟩ := result
      cases hworked with
      | finalized hdrafted hnormalize happly =>
        exact (hfacing.of_drafted (hgood row hrow) hdrafted).of_tables rfl rfl
      | failed hdrafted hnormalize happly =>
        exact (hfacing.of_drafted (hgood row hrow) hdrafted).of_tables rfl rfl
      | stopped hprepared hfiles hr =>
        rename_i w₁
        have hstopped : Learned env payload eventId vendorId schemaDoc w₁.db := by
          rcases hprepared with hprepares | ⟨canonical, hdrafted⟩
          · exact hfacing.of_prepares hprepares
          · exact hfacing.of_drafted (hgood row hrow) hdrafted
        apply hstopped.of_tables
        · rw [hfiles.db]
        · rw [hfiles.db]

end Keeping

/-! ### Events that read the same -/

section Reuse
variable {env : Externals} {settings : Settings} {payload payload' : JsonObject} {eventId eventId' : EventId}
variable {vendorId : String} {schemaDoc : JsonObject} {resolves : String → String → String → Prop} {w : World}
variable {canonical : CanonicalEvent}

/-- Payloads that agree where the document reads have the same readings. -/
theorem Reads.congr (halike : ∀ fields, schemaFields schemaDoc = .ok fields →
      ReadAlike env.toUnicode payload payload' (namedPaths fields))
    (h : Reads env payload eventId vendorId schemaDoc resolves canonical) :
    Reads env payload' eventId vendorId schemaDoc resolves canonical := by
  cases h with
  | unclassified hdoc hfirst =>
    rw [extract_congr halike] at hfirst
    exact .unclassified hdoc hfirst
  | entity hfirst hnot hraw hresolves hsecond =>
    rw [extract_congr halike] at hfirst hsecond
    exact .entity hfirst hnot hraw hresolves hsecond

/-- A reading has an event id. -/
theorem Reads.eventId_ne (h : Reads env payload eventId vendorId schemaDoc resolves canonical) :
    strip eventId ≠ "" := by
  intro hblank
  have hnone : ∀ {state classification : Option String} {rawEventType : Option String},
      extract env payload eventId vendorId schemaDoc state classification ≠ .ok ⟨rawEventType, .ok canonical⟩ := by
    intro state classification rawEventType hextract
    have hraises := extract_blank hblank hextract
    rw [hextract] at hraises
    cases hraises
  cases h with
  | unclassified hdoc hfirst => exact hnone hfirst
  | entity hfirst hnot hraw hresolves hsecond => exact hnone hsecond

/-- Another event with the payload has the same reading. -/
theorem Reads.withEventId (hid : strip eventId' ≠ "")
    (h : Reads env payload eventId vendorId schemaDoc resolves canonical) :
    Reads env payload eventId' vendorId schemaDoc resolves (canonical.withEventId eventId') := by
  have hextract := extract_eventId h.eventId_ne hid env payload vendorId
  cases h with
  | @unclassified rawEventType _ hdoc hfirst =>
    have hfirst' : extract env payload eventId' vendorId schemaDoc none none =
        .ok ⟨rawEventType, .ok (canonical.withEventId eventId')⟩ := by
      rw [hextract, hfirst]
      rfl
    exact .unclassified hdoc hfirst'
  | @entity first classification canonicalState rawEventType _ hfirst hnot hraw hresolves hsecond =>
    have hfirst' : extract env payload eventId' vendorId schemaDoc none none =
        .ok { first with event := first.event.map (CanonicalEvent.withEventId eventId') } := by
      rw [hextract, hfirst]
      rfl
    have hsecond' : extract env payload eventId' vendorId schemaDoc (some canonicalState) (some classification) =
        .ok ⟨rawEventType, .ok (canonical.withEventId eventId')⟩ := by
      rw [hextract, hsecond]
      rfl
    refine .entity hfirst' (fun event hevent => ?_) hraw hresolves hsecond'
    obtain ⟨event', hevent', -⟩ := map_eq_ok.mp hevent
    exact hnot event' hevent'

/-- **An event without an id gets no further than Path A**, which raises. -/
theorem run_processViaSchema_blank (hblank : strip eventId' = "") {schemaMatch : SchemaMatch}
    (h : Reads env payload eventId vendorId schemaMatch.schemaDoc (Stored w.db vendorId) canonical) :
    Program.run Op.handle (processViaSchema env settings eventId' vendorId payload schemaMatch) w =
      (.error .validationError, w) := by
  rw [processViaSchema]
  cases h with
  | unclassified hdoc hfirst =>
    rw [extract_blank hblank hfirst]
    rfl
  | @entity first _ _ _ _ hfirst hnot hraw hresolves hsecond =>
    rw [extract_blank hblank hfirst]
    cases hevent : first.event with
    | ok event => rfl
    | error e =>
      obtain ⟨mapping, hmapping, rfl, rfl⟩ := hresolves
      have hresolve : (Op.selectEventType vendorId (first.rawEventType.getD "")).handle w =
          (.ok (some (mapping.classification, mapping.canonicalState)), w) := by
        rw [Op.handle, hmapping]
        rfl
      simp only [Program.ofExcept, Program.ret_bind, hevent, if_neg hraw, resolveEventType, Program.bind_assoc]
      rw [Program.run_perform_bind Op.handle hresolve]
      simp only [Program.pure_eq, Program.ret_bind, extract_blank hblank hsecond]
      rfl

/-- **Where a lesson serves, an event that reads the same asks nobody.** -/
theorem Learned.asks_nobody (h : Learned env payload eventId vendorId schemaDoc w.db) {row : RawEvent}
    (hrow : w.db.rawEvents.lookup eventId' = some row) (hvendor : resolveVendorId env.toUnicode row = vendorId)
    (hshape : structuralFingerprint env (.obj row.payload) [] = structuralFingerprint env (.obj payload) [])
    (halike : ∀ fields, schemaFields schemaDoc = .ok fields →
      ReadAlike env.toUnicode payload row.payload (namedPaths fields)) :
    ∃ marks, (Job.run (processEvent env settings eventId') w).2.trace = marks ++ w.trace ∧
      ∀ mark ∈ marks, mark.isCall = false := by
  obtain ⟨schemaId, hfound⟩ := h.found
  obtain ⟨canonical, hreads⟩ := h.reads
  subst hvendor
  rw [← hshape] at hfound
  have hsame := hreads.congr halike
  by_cases hblank : strip eventId' = ""
  · refine ⟨[], ?_, fun mark hmem => by cases hmem⟩
    rw [Job.run, processEvent, Program.run_perform_bind Op.handle (by rw [Op.handle, hrow])]
    simp only [processRow]
    rw [Program.run_perform_bind Op.handle (by rw [Op.handle, hfound])]
    simp only []
    have hraises : Program.run Op.handle (processViaSchema env settings eventId'
        (resolveVendorId env.toUnicode row) row.payload ⟨schemaId, schemaDoc⟩) w = (.error .validationError, w) :=
      run_processViaSchema_blank hblank hsame
    rw [Program.run_bind, hraises]
    rfl
  · have hfamiliar : Familiar env row.payload eventId' (resolveVendorId env.toUnicode row) w.db :=
      ⟨⟨schemaId, schemaDoc⟩, _, hfound, hsame.withEventId hblank⟩
    obtain ⟨schemaId', htrace⟩ : ∃ schemaId', (Job.run (processEvent env settings eventId') w).2.trace =
        .extracted eventId' schemaId' :: w.trace := processEvent_familiar hrow hfamiliar
    refine ⟨[.extracted eventId' schemaId'], htrace, fun mark hmem => ?_⟩
    obtain rfl := List.mem_singleton.mp hmem
    rfl

end Reuse

/-! ### An invoice, stated again -/

/-- The invoice's payload with another local time, which no lesson reads. -/
def restatedPayload : JsonObject :=
  [("created_at", .str "2026-04-28T05:00:00Z"), ("doc_ref", .str "INV-1"), ("kind", .str "issued"),
    ("total", .str "EUR 24.350,75"), ("when", .str "29/04/2026 12:00 WIB")]

def restatedText : String :=
  "\x7b\"created_at\":\"2026-04-28T05:00:00Z\",\"doc_ref\":\"INV-1\",\"kind\":\"issued\"," ++
    "\"total\":\"EUR 24.350,75\",\"when\":\"29/04/2026 12:00 WIB\"\x7d"

def restatedRuntime : Externals := april28Runtime.also
  [(restatedText, .obj restatedPayload)]
  [(restatedText ++ "\x1fINV-1", ⟨"5943f61e4d18b34831a1e250cc1890c77da173c9f340ce88e6d8248e0198a1f1", by decide⟩),
    ("v1.1\x1f" ++ restatedText ++ "\x1fv1\x1fglobalfreightpay",
      ⟨"e8811f1b9b92e96fd7751ba63a5c1bcd05e730f446cd861088062b5dc72a258a", by decide⟩)]

def restatedId : EventId := computeEventId restatedRuntime (.obj restatedPayload) (some "INV-1")

/-- The invoice has been delivered. -/
def deliveredInvoice : World :=
  run restatedRuntime .defaults
    [.receive (some globalfreightpayPath) (issuedRequest "INV-1" "2026-04-28T05:00:00Z") none]

/-- The invoice stands in the table, and nothing was learned yet. -/
theorem deliveredInvoice_tables :
    deliveredInvoice.db.vendorSchemas.entries = [] ∧ deliveredInvoice.db.vendorEventTypeMap.entries = [] ∧
      (deliveredInvoice.db.rawEvents.lookup (issuedId "INV-1" "2026-04-28T05:00:00Z")).map (fun row =>
        (resolveVendorId restatedRuntime.toUnicode row, row.payload)) =
          some ("globalfreightpay", issuedPayload "INV-1" "2026-04-28T05:00:00Z") ∧
      deliveredInvoice.trace = [.enqueued (issuedId "INV-1" "2026-04-28T05:00:00Z"),
        .accepted (issuedId "INV-1" "2026-04-28T05:00:00Z") (some "globalfreightpay")] := by
  decide +kernel

/-- The lesson of the step on it lasts: it is the first one, and the answer says where the raw event type
stands. -/
theorem learnsForGood_deliveredInvoice :
    LearnsForGood restatedRuntime .defaults deliveredInvoice (issuedStep "2026-04-28T05:00:00Z") := by
  have hparse : parseAndValidate restatedRuntime (answerText ["issued"]) = .ok (issuedAnswer ["issued"]) := by
    decide +kernel
  have hdiscover : discoverSchema restatedRuntime (issuedPayload "INV-1" "2026-04-28T05:00:00Z")
      (issuedId "INV-1" "2026-04-28T05:00:00Z") "globalfreightpay" (issuedAnswer ["issued"]) =
        .ok (some issuedSchema) := by decide +kernel
  have hraw : findRawEventType restatedRuntime.toUnicode (issuedPayload "INV-1" "2026-04-28T05:00:00Z") issuedSchema =
      .ok (.str "issued") := by decide +kernel
  intro row hrow data schemaDoc hnew hoffered hlearned
  obtain ⟨hschemas, htypes, hrow', -⟩ := deliveredInvoice_tables
  generalize deliveredInvoice = w at *
  rw [hrow, Option.map_some] at hrow'
  obtain ⟨hvendor, hpayload⟩ := Prod.mk.inj (Option.some.inj hrow')
  rw [hvendor, hpayload] at hlearned
  rw [hvendor, hpayload] at hoffered
  cases hoffered with
  | answered hmiss hresult hdata =>
    obtain hresult := Except.ok.inj (List.mem_singleton.mp hresult)
    subst hresult
    cases hparse.symm.trans hdata
    cases hdiscover.symm.trans hlearned
    have hnone : (w.facing 1 [.ok (issuedResult ["issued"])]).db.vendorSchemas = ∅ := AList.ext hschemas
    refine ⟨fun schemaMatch hfound => ?_, fun _ => ⟨.str "issued", by rw [hpayload]; exact hraw, by decide, ?_⟩⟩
    · rw [hnone] at hfound
      cases hfound
    · intro classification canonicalState hmapped
      cases hmapped with
      | stored hstored =>
        obtain ⟨mapping, hmapping, -⟩ := hstored
        have hmapping' : w.db.vendorEventTypeMap.lookup _ = some mapping := hmapping
        rw [show w.db.vendorEventTypeMap = ∅ from AList.ext htypes] at hmapping'
        cases hmapping'
      | asked hasks => exact absurd hasks (not_asks_of_no_schemas hnone)

/-- The invoice was processed, and then delivered as restated. -/
def restatedInvoice : World :=
  serve restatedRuntime .defaults
    (serve restatedRuntime .defaults deliveredInvoice (issuedStep "2026-04-28T05:00:00Z"))
    (.receive (some globalfreightpayPath) ⟨encode restatedText, []⟩ none)

/-- The step on the invoice has taught a document, and the restatement stands in the table. -/
theorem restatedInvoice_tables :
    (serve restatedRuntime .defaults deliveredInvoice (issuedStep "2026-04-28T05:00:00Z")).trace =
        [.learned (issuedId "INV-1" "2026-04-28T05:00:00Z") "globalfreightpay" 1 issuedSchema,
          .called "globalfreightpay" 1 (some (1 / 1000))] ++ deliveredInvoice.trace ∧
      (restatedInvoice.db.rawEvents.lookup restatedId).map (fun row =>
        (resolveVendorId restatedRuntime.toUnicode row, row.payload)) = some ("globalfreightpay", restatedPayload) ∧
      structuralFingerprint restatedRuntime (.obj restatedPayload) [] =
        structuralFingerprint restatedRuntime (.obj (issuedPayload "INV-1" "2026-04-28T05:00:00Z")) [] := by
  decide +kernel

/-- The restatement reads the same at the paths of a document that names no other. -/
theorem restated_readAlike {paths : List Json}
    (h : ∀ path ∈ paths, path ∈ [Json.str "$.doc_ref", .str "$.created_at", .str "$.kind", .str "$.total"]) :
    ReadAlike restatedRuntime.toUnicode (issuedPayload "INV-1" "2026-04-28T05:00:00Z") restatedPayload paths := by
  have hall : ReadAlike restatedRuntime.toUnicode (issuedPayload "INV-1" "2026-04-28T05:00:00Z") restatedPayload
      [.str "$.doc_ref", .str "$.created_at", .str "$.kind", .str "$.total"] := by
    unfold ReadAlike
    decide +kernel
  exact fun path hpath => hall path (h path hpath)

/-- The document that is learned from an answer which does not say where it has read the event type. -/
def untypedSchema : JsonObject :=
  schemaDocument .invoice [("entity_external_id", .str "$.doc_ref"), ("event_timestamp", .str "$.created_at"),
    ("raw_kind", .null), ("amount", .str "$.total")]

/-- The invoice is delivered, processed with an answer that does not say so, and delivered as restated. -/
def restatedWorld : World :=
  run restatedRuntime .defaults
    [.receive (some globalfreightpayPath) (issuedRequest "INV-1" "2026-04-28T05:00:00Z") none,
      .process (issuedId "INV-1" "2026-04-28T05:00:00Z") 1 [.ok (issuedResult [])],
      .receive (some globalfreightpayPath) ⟨encode restatedText, []⟩ none]

end WebhookIngestion
