import WebhookIngestion.LearnedRows
import WebhookIngestion.LearnOnce

/-! # Where stored rows come from

A schema names the raw event it was learned from, and a canonical event goes by its own.
Raw events may get a vendor after they have taught a schema, a schema may be taught again by
another event, and an event may be finalized twice; what a row says of its event stays true
through all of it: a schema reads the event it was learned from (`schemas_learned`), and a
canonical event is in normal form (`canonical_events_normal`). -/
namespace WebhookIngestion
open Tables Programs

/-! ### Learned schemas -/

/-- The document reads the payload, once it is told the state of its raw event type. -/
def ExtractedWith (env : Externals) (payload : JsonObject) (eventId : EventId) (vendorId : String)
    (schemaDoc : JsonObject) : Prop :=
  ∃ canonicalState rawEventType event, extract env payload eventId vendorId schemaDoc canonicalState none =
    .ok ⟨rawEventType, .ok event⟩

/-- **A schema was learned from its source event**: from its payload, which has the shape that
the schema is looked up for, and for the vendor that was inferred from it or that it has. -/
structure LearnedFrom (env : Externals) (key : SchemaKey) (schema : VendorSchema) (raw : RawEvent) : Prop where
  version : key.schemaVersion = 1
  shape : key.structuralFingerprint = structuralFingerprint env (.obj raw.payload) []
  vendor : key.vendorId = inferVendorId env.toUnicode raw.payload ∨ raw.vendorId = some key.vendorId
  reads : ExtractedWith env raw.payload schema.sourceEventId key.vendorId schema.schemaDoc

/-- What discovery persists reads the payload it was discovered in. -/
theorem extractedWith_of_discoverSchema {env : Externals} {payload llmOutput schemaDoc : JsonObject}
    {eventId vendorId : String}
    (h : discoverSchema env payload eventId vendorId llmOutput = .ok (some schemaDoc)) :
    ExtractedWith env payload eventId vendorId schemaDoc := by
  rw [discoverSchema] at h
  split at h
  · cases h
  · split at h
    · cases h
    · obtain ⟨valid, hvalid, h⟩ := bind_eq_ok.mp h
      cases valid with
      | false => cases h
      | true =>
        cases h
        rcases extract_of_validated hvalid with ⟨-, rawEventType, event, hextract⟩ |
          ⟨-, eventType, rawEventType, event, -, hextract⟩
        · exact ⟨none, rawEventType, event, hextract⟩
        · exact ⟨some eventType, rawEventType, event, hextract⟩

/-- What was learned from a row was learned from what has become of it. -/
theorem TaughtBy.learnedFrom {env : Externals} {key : SchemaKey} {schema : VendorSchema} {row raw : RawEvent}
    (h : TaughtBy env schema.sourceEventId row key.vendorId key.structuralFingerprint schema.schemaDoc)
    (hversion : key.schemaVersion = 1) (hlater : row.Later raw) : LearnedFrom env key schema raw := by
  obtain ⟨hvendor, hshape, llmOutput, hdiscover⟩ := h
  constructor
  · exact hversion
  · rw [hlater.payload]
    exact hshape
  · rw [hvendor]
    exact hlater.vendor env.toUnicode
  · rw [hlater.payload]
    exact extractedWith_of_discoverSchema hdiscover

/-- A later state of the source event changes nothing of it, and counting the schema does not. -/
theorem LearnedFrom.later {env : Externals} {key : SchemaKey} {schema schema' : VendorSchema} {raw raw' : RawEvent}
    (h : LearnedFrom env key schema raw) (hlater : raw.Later raw') (hdoc : schema'.schemaDoc = schema.schemaDoc)
    (hsource : schema'.sourceEventId = schema.sourceEventId) : LearnedFrom env key schema' raw' := by
  constructor
  · exact h.version
  · rw [hlater.payload]
    exact h.shape
  · rw [hlater.payload]
    exact h.vendor.imp_right (hlater.vendorId _)
  · rw [hlater.payload, hdoc, hsource]
    exact h.reads

/-- Every schema was learned from its source event, which is there. -/
def SchemasLearned (env : Externals) (db : Database) : Prop :=
  ∀ key schema, db.vendorSchemas.lookup key = some schema →
    ∃ raw, db.rawEvents.lookup schema.sourceEventId = some raw ∧ LearnedFrom env key schema raw

theorem schemasLearned_empty (env : Externals) : SchemasLearned env Database.empty := by
  intro key schema hschema
  simp [Database.empty] at hschema

/-- **What is filed under rows that are there keeps it so.** -/
theorem schemasLearned_handle {env : Externals} {o : Op} {w : World} (hfiled : o.Filed env w.db)
    (h : SchemasLearned env w.db) : SchemasLearned env (o.handle w).2.db := by
  intro key schema hschema
  have hstep := schemaStep_handle o w key
  rw [hschema] at hstep
  generalize hbefore : w.db.vendorSchemas.lookup key = before at hstep
  cases hstep with
  | same =>
    obtain ⟨raw, hraw, hlearned⟩ := h key schema hbefore
    obtain ⟨raw', hraw', hlater⟩ := later_handle hfiled hraw
    exact ⟨raw', hraw', hlearned.later hlater rfl rfl⟩
  | @counted old _ _ hdoc hsource =>
    obtain ⟨raw, hraw, hlearned⟩ := h key old hbefore
    obtain ⟨raw', hraw', hlater⟩ := later_handle hfiled hraw
    exact ⟨raw', hsource ▸ hraw', hlearned.later hlater hdoc hsource⟩
  | taught ho hversion hstatus hold =>
    obtain ⟨row, raw, hraw, hlater, hserves⟩ := hfiled.row schema.sourceEventId (by rw [ho]; rfl)
    obtain ⟨raw', hraw', hlater'⟩ := later_handle hfiled hraw
    rw [ho] at hserves
    exact ⟨raw', hraw', hserves.2.learnedFrom hversion (hlater.trans hlater')⟩

/-! ### Canonical events -/

/-- A canonical event goes by the id of a raw event, and is in normal form. -/
def CanonicalNormal (db : Database) : Prop :=
  ∀ eventId event, db.canonicalEvents.lookup eventId = some event →
    (db.rawEvents.lookup eventId).isSome ∧ event.base.eventId = eventId ∧ Normal event

theorem canonicalNormal_empty : CanonicalNormal Database.empty := by
  intro eventId event hevent
  simp [Database.empty] at hevent

/-- A canonical event was there, or has just been finalized. -/
theorem canonical_handle {o : Op} {w : World} {eventId : EventId} {event : CanonicalEvent}
    (hown : ∀ id canonical, o = .finalize id canonical → canonical.base.eventId = id)
    (hevent : (o.handle w).2.db.canonicalEvents.lookup eventId = some event) :
    w.db.canonicalEvents.lookup eventId = some event ∨ o = .finalize eventId event := by
  by_cases hderives : o.Derives
  · cases o with
    | finalize id canonical =>
      rw [Op.handle] at hevent
      split at hevent
      · have hlookup : (w.db.canonicalEvents.insert canonical.base.eventId canonical).lookup eventId =
            some event := hevent
        rw [lookup_insert_eq] at hlookup
        split at hlookup
        · rename_i hid
          cases hlookup
          rw [hid, hown id _ rfl]
          exact .inr rfl
        · exact .inl hlookup
      · exact .inl hevent
    | insertRawEvent =>
      rw [Op.handle] at hevent
      split at hevent <;> exact .inl hevent
    | markReview | markPendingLlm | markFailed => exact .inl hevent
    | truncate => simp [Op.handle, Database.truncated] at hevent
    | _ => exact hderives.elim
  · rw [(derived_handle hderives w).2.2.1] at hevent
    exact .inl hevent

theorem canonicalNormal_handle {env : Externals} {o : Op} {w : World} (hfiled : o.Filed env w.db)
    (h : CanonicalNormal w.db) : CanonicalNormal (o.handle w).2.db := by
  intro eventId event hevent
  have hthere : ∀ {raw}, w.db.rawEvents.lookup eventId = some raw →
      ((o.handle w).2.db.rawEvents.lookup eventId).isSome := by
    intro raw hraw
    obtain ⟨raw', hraw', -⟩ := later_handle hfiled hraw
    rw [hraw']
    rfl
  rcases canonical_handle hfiled.own hevent with hold | rfl
  · obtain ⟨hraw, hid, hnormal⟩ := h eventId event hold
    obtain ⟨raw, hraw⟩ := Option.isSome_iff_exists.mp hraw
    exact ⟨hthere hraw, hid, hnormal⟩
  · obtain ⟨row, raw, hraw, -, -, hnormal⟩ := hfiled.row eventId rfl
    exact ⟨hthere hraw, hfiled.own eventId event rfl, hnormal⟩

/-! ### Runs -/

section Runs
variable (env : Externals) (settings : Settings) {mayLose : Op → Prop} {C : Op → World → Prop} {ι : Type}
  [DecidableEq ι]

/-- **Every canonical event is in normal form**, under the id of its raw event. -/
theorem canonical_events_normal {c : ServiceConfig ι}
    (h : (service env settings mayLose).Reaches C (.idle World.start) c) : CanonicalNormal c.state.db :=
  ((serving_idle env World.start).reaches env settings (fun _ _ hfiled hJ => canonicalNormal_handle hfiled hJ)
    canonicalNormal_empty h).2

end Runs

/-- The canonical event of the issued invoice is in normal form. -/
theorem issued_event_normal :
    Normal (.entity .invoice (issuedEvent (issuedId "INV-1" "2026-04-28T05:00:00Z") .llm 1 5)) := by
  obtain ⟨c, hreaches, hstate⟩ := reaches_issued
  have hnormal := canonical_events_normal april28Runtime .defaults hreaches
  rw [hstate] at hnormal
  exact (hnormal _ _ (AList.lookup_insert ∅)).2.2

end WebhookIngestion
