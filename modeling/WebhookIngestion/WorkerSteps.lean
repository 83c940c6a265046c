import WebhookIngestion.Asking
import WebhookIngestion.Pipeline

/-! # What a worker step can do

Where the event that `process_event` finalizes comes from, and what each path changes
on the way (`Drafted`); `Worked` adds how a step ends.  Every law about runs of the
worker is derived from `Worked`. -/
namespace WebhookIngestion
open Tables Text Programs

/-! ### Readings -/

section Readings
variable (env : Externals)

/-- The mappings of a raw event type that a step may go on with. -/
inductive Resolves (w : World) (vendorId rawEventType : String) : String → String → Prop
  | stored {mapping : EventTypeMapping}
      (hmapping : w.db.vendorEventTypeMap.lookup (vendorId, rawEventType) = some mapping) :
      Resolves w vendorId rawEventType mapping.classification mapping.canonicalState
  | classified {data : JsonObject} {classification canonicalState : String} {confidence : PyFloat}
      (hmiss : w.db.vendorEventTypeMap.lookup (vendorId, rawEventType) = none)
      (hoffered : EventTypeOffered env w vendorId rawEventType data)
      (hanswer : eventTypeAnswer env data =
        .ok (some (.str classification, .str canonicalState, confidence))) :
      Resolves w vendorId rawEventType classification canonicalState

/-- The mappings that are stored. -/
def Stored (db : Database) (vendorId rawEventType classification canonicalState : String) : Prop :=
  ∃ mapping, db.vendorEventTypeMap.lookup (vendorId, rawEventType) = some mapping ∧
    mapping.classification = classification ∧ mapping.canonicalState = canonicalState

variable (payload : JsonObject) (eventId : EventId) (vendorId : String)

/-- **Path A's readings of a payload**, with the mappings that `resolves` has for its raw
event type. -/
inductive Reads (schemaDoc : JsonObject) (resolves : String → String → String → Prop) :
    CanonicalEvent → Prop
  | unclassified {rawEventType : Option String} {canonical : CanonicalEvent}
      (hdoc : schemaDoc.get "classification" = .str "unclassified")
      (hfirst : extract env payload eventId vendorId schemaDoc none none =
        .ok ⟨rawEventType, .ok canonical⟩) :
      Reads schemaDoc resolves canonical
  | entity {first : ExtractionResult} {classification canonicalState : String}
      {rawEventType : Option String} {canonical : CanonicalEvent}
      (hfirst : extract env payload eventId vendorId schemaDoc none none = .ok first)
      (hnot : ∀ event, first.event = .ok event → schemaDoc.get "classification" ≠ .str "unclassified")
      (hraw : first.rawEventType.getD "" ≠ "")
      (hresolves : resolves (first.rawEventType.getD "") classification canonicalState)
      (hsecond : extract env payload eventId vendorId schemaDoc (some canonicalState) (some classification) =
        .ok ⟨rawEventType, .ok canonical⟩) :
      Reads schemaDoc resolves canonical

variable {env payload eventId vendorId} in
/-- A reading with some mappings is a reading with more of them. -/
theorem Reads.mono {schemaDoc : JsonObject} {resolves resolves' : String → String → String → Prop}
    {canonical : CanonicalEvent}
    (himp : ∀ rawEventType classification canonicalState,
      resolves rawEventType classification canonicalState → resolves' rawEventType classification canonicalState)
    (h : Reads env payload eventId vendorId schemaDoc resolves canonical) :
    Reads env payload eventId vendorId schemaDoc resolves' canonical := by
  cases h with
  | unclassified hdoc hfirst => exact .unclassified hdoc hfirst
  | entity hfirst hnot hraw hresolves hsecond => exact .entity hfirst hnot hraw (himp _ _ _ hresolves) hsecond

/-- **Path A needs no help**: the stored schema reads the payload with a stored mapping. -/
def Familiar (db : Database) : Prop :=
  ∃ schemaMatch canonical,
    lookupSchema db.vendorSchemas vendorId (structuralFingerprint env (.obj payload) []) = some schemaMatch ∧
      Reads env payload eventId vendorId schemaMatch.schemaDoc (Stored db vendorId) canonical

variable (settings : Settings)

/-- **The events a step may go on to finalize**: what Path A may read, and, where it needs
help, what the LLM may say. -/
inductive Draft (w : World) : CanonicalEvent → Prop
  | schema {schemaMatch : SchemaMatch} {canonical : CanonicalEvent}
      (hlookup : lookupSchema w.db.vendorSchemas vendorId (structuralFingerprint env (.obj payload) []) =
        some schemaMatch)
      (hreads : Reads env payload eventId vendorId schemaMatch.schemaDoc (Resolves env w vendorId) canonical) :
      Draft w canonical
  | llm {source : Source} {data : JsonObject} {canonical : CanonicalEvent}
      (hnew : ¬ Familiar env payload eventId vendorId w.db)
      (hoffered : Offered env settings w vendorId payload source data)
      (hbuild : buildCanonical env eventId data source = .ok canonical) :
      Draft w canonical

end Readings

/-! ### Path A -/

section PathA
variable (env : Externals) (settings : Settings)

/-- What resolving a raw event type changes. -/
structure Consults (vendorId : String) (w w' : World) : Prop extends Prepares w w' where
  cache : Caches env vendorId w w'.db.llmCache

theorem Classifies.consults {vendorId : String} {w w' : World} (h : Classifies env vendorId w w') :
    Consults env vendorId w w' := ⟨h.toAsks.prepares, h.cache⟩

theorem Consults.refl (vendorId : String) (w : World) : Consults env vendorId w w :=
  (Classifies.refl env vendorId w).consults

/-- A mapping is only added where there was none. -/
theorem Consults.upsertEventType {vendorId rawEventType : String} {w w' : World}
    (h : Consults env vendorId w w')
    (hmiss : w.db.vendorEventTypeMap.lookup (vendorId, rawEventType) = none)
    (classification canonicalState : Json) (confidence : PyFloat) :
    Consults env vendorId w ((Op.upsertEventType vendorId rawEventType classification canonicalState
      confidence).handle w').2 := by
  simp only [Op.handle]
  split
  · rename_i cls state conf _ _ _
    -- the row is inserted, or replaces one that is not there in `w`
    have hcases : ∀ mapping, (w'.db.upsertEventType (vendorId, rawEventType) mapping) = w'.db ∨
        w'.db.upsertEventType (vendorId, rawEventType) mapping = { w'.db with
          vendorEventTypeMap := w'.db.vendorEventTypeMap.insert (vendorId, rawEventType) mapping } := by
      intro mapping
      rw [Database.upsertEventType]
      split
      · split
        · exact .inl rfl
        · exact .inr rfl
      · exact .inr rfl
    rcases hcases ⟨cls, state, conf, false⟩ with hdb | hdb
    · rw [hdb]
      exact h
    · rw [hdb]
      refine ⟨⟨by rw [h.db], h.schemas, fun key mapping hkey => ?_, h.answers, h.trace⟩, h.cache⟩
      rw [lookup_insert_eq, if_neg]
      · exact h.eventTypes key mapping hkey
      · rintro rfl
        rw [hmiss] at hkey
        cases hkey
  · exact h

/-- **A raw event type is resolved to a stored mapping or to an offered one.** -/
theorem resolveEventType_spec (vendorId rawEventType : String) (w : World) :
    Program.Triple Op.handle (fun w' => w' = w)
      (resolveEventType env settings vendorId rawEventType) fun r w' =>
        Consults env vendorId w w' ∧ ∀ classification canonicalState,
          r = .ok (some (classification, canonicalState)) →
            Resolves env w vendorId rawEventType classification canonicalState := by
  refine .bind (R := fun r w' => w' = w ∧
      r = .ok ((w.db.vendorEventTypeMap.lookup (vendorId, rawEventType)).map fun row =>
        (row.classification, row.canonicalState)))
    (.perform fun w' h => ⟨h, h ▸ rfl⟩) (fun stored => ?_) fun e w' h => nomatch h.2
  cases stored with
  | some mapping =>
    refine .ret fun w' h => ⟨h.1 ▸ .refl env vendorId w, ?_⟩
    rintro classification canonicalState ⟨⟩
    obtain ⟨row, hrow, he⟩ := Option.map_eq_some_iff.mp (Except.ok.inj h.2).symm
    cases he
    exact .stored hrow
  | none =>
    have hmiss : ∀ {x : Option EventTypeMapping},
        (.ok none : Except PyError (Option (String × String))) =
          .ok (x.map fun row => (row.classification, row.canonicalState)) → x = none := by
      intro x hx
      exact Option.map_eq_none_iff.mp (Except.ok.inj hx).symm
    refine .bind (R := fun r w' => (Classifies env vendorId w w' ∧ ∀ answer, r = .ok (some answer) →
          ∃ data, Consulted env settings w vendorId rawEventType data ∧
            eventTypeAnswer env data = .ok (some answer)) ∧
        w.db.vendorEventTypeMap.lookup (vendorId, rawEventType) = none)
      (fun w' h => ⟨classifyEventType_spec env settings vendorId rawEventType w w' h.1, hmiss h.2⟩)
      (fun answer => ?_) fun e w' h => ⟨h.1.1.consults, nofun⟩
    cases answer with
    | none => exact .ret fun w' h => ⟨h.1.1.consults, nofun⟩
    | some answer =>
      obtain ⟨classification, canonicalState, confidence⟩ := answer
      refine .bind (R := fun _ w' => Consults env vendorId w w' ∧
          w.db.vendorEventTypeMap.lookup (vendorId, rawEventType) = none ∧
          ∃ data, Consulted env settings w vendorId rawEventType data ∧
            eventTypeAnswer env data = .ok (some (classification, canonicalState, confidence)))
        (.perform fun w' h => ⟨h.1.1.consults.upsertEventType env h.2 .., h.2, h.1.2 _ rfl⟩)
        (fun _ => ?_) fun e w' h => ⟨h.1, nofun⟩
      cases classification with
      | str cls =>
        cases canonicalState with
        | str state =>
          refine .ret fun w' h => ⟨h.1, ?_⟩
          rintro cls' state' ⟨⟩
          obtain ⟨data, hconsulted, hanswer⟩ := h.2.2
          exact .classified h.2.1 hconsulted.offered hanswer
        | _ => exact .raise fun w' h => ⟨h.1, nofun⟩
      | _ => exact .raise fun w' h => ⟨h.1, nofun⟩

/-- The world after Path A has counted and noted its success. -/
def World.succeeded (w : World) (eventId : EventId) (schemaId : SchemaId) : World :=
  { w with
    db := w.db.updateSchema schemaId fun row => { row with successCount := row.successCount + 1 }
    trace := .extracted eventId schemaId :: w.trace }

variable {payload : JsonObject} {eventId : EventId} {vendorId : String} {schemaMatch : SchemaMatch}
  {w : World}

theorem run_extractionSucceeded (canonical : CanonicalEvent) (w : World) :
    Program.run Op.handle (extractionSucceeded eventId schemaMatch.schemaId canonical) w =
      (.ok (some canonical), w.succeeded eventId schemaMatch.schemaId) := rfl

/-- **A stored mapping is enough**: Path A then asks nobody. -/
theorem run_processViaSchema_stored {canonical : CanonicalEvent}
    (h : Reads env payload eventId vendorId schemaMatch.schemaDoc (Stored w.db vendorId) canonical) :
    Program.run Op.handle (processViaSchema env settings eventId vendorId payload schemaMatch) w =
      (.ok (some canonical), w.succeeded eventId schemaMatch.schemaId) := by
  rw [processViaSchema]
  cases h with
  | unclassified hdoc hfirst =>
    simp only [hfirst, Program.ofExcept, Program.ret_bind, hdoc, decide_true]
    exact run_extractionSucceeded canonical w
  | @entity first _ _ _ _ hfirst hnot hraw hresolves hsecond =>
    obtain ⟨mapping, hmapping, rfl, rfl⟩ := hresolves
    have hresolve : (Op.selectEventType vendorId (first.rawEventType.getD "")).handle w =
        (.ok (some (mapping.classification, mapping.canonicalState)), w) := by
      rw [Op.handle, hmapping]
      rfl
    simp only [hfirst, Program.ofExcept, Program.ret_bind]
    split
    · rename_i event hevent hdoc
      exact absurd (of_decide_eq_true hdoc) (hnot event hevent)
    · simp only [if_neg hraw, resolveEventType, Program.bind_assoc]
      rw [Program.run_perform_bind Op.handle hresolve]
      simp only [Program.pure_eq, Program.ret_bind, hsecond]
      exact run_extractionSucceeded canonical w

/-- What Path A leaves behind. -/
def ViaSchema (payload : JsonObject) (eventId : EventId) (vendorId : String) (schemaMatch : SchemaMatch)
    (w : World) (r : Except PyError (Option CanonicalEvent)) (w' : World) : Prop :=
  match r with
  | .ok (some canonical) =>
    Reads env payload eventId vendorId schemaMatch.schemaDoc (Resolves env w vendorId) canonical ∧
      ∃ w₁, Prepares w w₁ ∧ w' = w₁.succeeded eventId schemaMatch.schemaId
  | .ok none => Consults env vendorId w w'
  | .error _ => Prepares w w'

theorem processViaSchema_triple : Program.Triple Op.handle (fun w' => w' = w)
    (processViaSchema env settings eventId vendorId payload schemaMatch)
    (ViaSchema env payload eventId vendorId schemaMatch w) := by
  have hrefl := Consults.refl env vendorId w
  refine .bind (R := fun first w' => w' = w ∧
      extract env payload eventId vendorId schemaMatch.schemaDoc none none = first)
    (.ofExcept fun w' h => ⟨h, rfl⟩) (fun first => ?_) fun e w' h => h.1 ▸ hrefl.toPrepares
  dsimp only
  split
  · -- an unclassified document is done after the first pass
    rename_i canonical hevent hdoc
    rintro w' ⟨rfl, hfirst⟩
    have hread : first = ⟨first.rawEventType, .ok canonical⟩ := by rw [← hevent]
    rw [hread] at hfirst
    rw [run_extractionSucceeded]
    exact ⟨.unclassified (of_decide_eq_true hdoc) hfirst, w', hrefl.toPrepares, rfl⟩
  · rename_i hnot
    split
    · exact .ret fun w' h => h.1 ▸ hrefl
    · rename_i hraw
      refine .bind (R := fun r w' => (Consults env vendorId w w' ∧ ∀ classification canonicalState,
            r = .ok (some (classification, canonicalState)) →
              Resolves env w vendorId (first.rawEventType.getD "") classification canonicalState) ∧
          extract env payload eventId vendorId schemaMatch.schemaDoc none none = .ok first)
        (fun w' h => ⟨resolveEventType_spec env settings vendorId _ w w' h.1, h.2⟩) (fun mapping => ?_)
        fun e w' h => h.1.1.toPrepares
      cases mapping with
      | none => exact .ret fun w' h => h.1.1
      | some mapping =>
        obtain ⟨classification, canonicalState⟩ := mapping
        refine .bind (R := fun second w' => ((Consults env vendorId w w' ∧
              Resolves env w vendorId (first.rawEventType.getD "") classification canonicalState) ∧
            extract env payload eventId vendorId schemaMatch.schemaDoc none none = .ok first) ∧
            extract env payload eventId vendorId schemaMatch.schemaDoc (some canonicalState)
              (some classification) = second)
          (.ofExcept fun w' h => ⟨⟨⟨h.1.1, h.1.2 _ _ rfl⟩, h.2⟩, rfl⟩) (fun second => ?_)
          fun e w' h => h.1.1.1.toPrepares
        split
        · rename_i canonical hevent
          rintro w' ⟨⟨⟨hconsults, hresolves⟩, hfirst⟩, hsecond⟩
          have hread : second = ⟨second.rawEventType, .ok canonical⟩ := by rw [← hevent]
          rw [hread] at hsecond
          rw [run_extractionSucceeded]
          exact ⟨.entity hfirst (fun event he hdoc => hnot event he (decide_eq_true hdoc)) hraw hresolves
            hsecond, w', hconsults.toPrepares, rfl⟩
        · exact .ret fun w' h => h.1.1.1

/-- **Path A fails only where it needs help.** -/
theorem processViaSchema_spec (hlookup : lookupSchema w.db.vendorSchemas vendorId
      (structuralFingerprint env (.obj payload) []) = some schemaMatch) :
    Program.Triple Op.handle (fun w' => w' = w)
      (processViaSchema env settings eventId vendorId payload schemaMatch) fun r w' =>
        ViaSchema env payload eventId vendorId schemaMatch w r w' ∧
          (r = .ok none → ¬ Familiar env payload eventId vendorId w.db) := by
  rintro w' rfl
  refine ⟨processViaSchema_triple env settings w' rfl, fun hnone => ?_⟩
  rintro ⟨schemaMatch', canonical, hlookup', hreads⟩
  obtain rfl := Option.some.inj (hlookup.symm.trans hlookup')
  rw [run_processViaSchema_stored env settings hreads] at hnone
  cases hnone

end PathA

/-! ### Path B -/

section PathB
variable (env : Externals) (settings : Settings) {payload : JsonObject} {eventId : EventId}
  {vendorId : String}

/-- What the adapter has when the orchestrator is done: an answer of which `said` holds, or a
failure. -/
def Answered (said : Source → JsonObject → Prop) : Except AdapterResult LLMOutcome → Prop
  | .ok outcome => said outcome.source outcome.data
  | .error (.ok _ _) => False
  | .error _ => True

/-- **The universal adapter builds its event from what the orchestrator answers.** -/
theorem universalNormalize_triple (hvendor : vendorId ≠ "") (w : World) {said : Source → JsonObject → Prop}
    (hextract : Program.Triple Op.handle (fun w' => w' = w) (classifyExtract env settings eventId vendorId payload)
      fun r w' => Asks w w' ∧ ∀ outcome, r = .ok outcome → said outcome.source outcome.data) :
    Program.Triple Op.handle (fun w' => w' = w)
      (universalNormalize env settings eventId vendorId payload) fun r w' =>
        Asks w w' ∧ ∀ canonical outcome, r = .ok (.ok canonical outcome) →
          said outcome.source outcome.data ∧
            buildCanonical env eventId outcome.data outcome.source = .ok canonical := by
  have hhint : (if vendorId = "" then "unknown" else vendorId) = vendorId := if_neg hvendor
  have hanswer : Program.Triple Op.handle (fun w' => w' = w)
      ((Except.ok <$> classifyExtract env settings eventId vendorId payload).tryCatch adapterFailure)
      fun r w' => Asks w w' ∧ ∀ answer, r = .ok answer → Answered said answer := by
    refine .tryCatch (.map hextract
      (Q := fun r w' => Asks w w' ∧ ∀ answer, r = .ok answer → Answered said answer)
      (fun outcome w' h => ⟨h.1, ?_⟩) fun e w' h => ⟨h.1, fun _ he => by cases he⟩) (fun _ _ h => h) fun e => ?_
    · rintro answer ⟨⟩
      exact h.2 outcome rfl
    · cases e with
      | budgetExceeded | llmValidationError =>
        refine .ret fun w' h => ⟨h.1, ?_⟩
        rintro answer ⟨⟩
        trivial
      | _ => exact .raise fun w' h => ⟨h.1, fun _ he => by cases he⟩
  rw [universalNormalize]
  simp only [hhint]
  refine .bind hanswer (fun answer => ?_) fun e w' h => ⟨h.1, fun _ _ he => nomatch he⟩
  cases answer with
  | error result =>
    cases result with
    | ok canonical outcome => exact fun w' h => (h.2 _ rfl).elim
    | _ => exact .ret fun w' h => ⟨h.1, fun _ _ he => by cases he⟩
  | ok outcome =>
    dsimp only
    split
    · rename_i canonical hbuild
      refine .ret fun w' h => ⟨h.1, ?_⟩
      rintro canonical' outcome' ⟨⟩
      exact ⟨h.2 _ rfl, hbuild⟩
    · split
      · exact .ret fun w' h => ⟨h.1, fun _ _ he => by cases he⟩
      · exact .raise fun w' h => ⟨h.1, fun _ _ he => by cases he⟩

/-- **The universal adapter asks, and builds its event from what was offered.** -/
theorem universalNormalize_spec (hvendor : vendorId ≠ "") (w : World) :
    Program.Triple Op.handle (fun w' => w' = w)
      (universalNormalize env settings eventId vendorId payload) fun r w' =>
        Asks w w' ∧ ∀ canonical outcome, r = .ok (.ok canonical outcome) →
          Offered env settings w vendorId payload outcome.source outcome.data ∧
            buildCanonical env eventId outcome.data outcome.source = .ok canonical :=
  universalNormalize_triple env settings hvendor w (classifyExtract_spec env settings w eventId vendorId payload)

/-- The key of a lesson: a vendor and the fingerprint of a payload, in version 1. -/
def lessonKey (vendorId : String) (payload : JsonObject) : SchemaKey :=
  ⟨vendorId, structuralFingerprint env (.obj payload) [], 1⟩

/-- **What discovery changes**: nothing, or the schema row of its lesson.  It notes the
lesson unless it then fails to find the raw event type. -/
inductive Learns (eventId : EventId) (vendorId : String) (payload llmOutput : JsonObject) (w : World) :
    World → Prop
  | nothing {w' : World} (hdb : w'.db = { w.db with vendorSchemasSeq := w'.db.vendorSchemasSeq })
      (htrace : w'.trace = w.trace) : Learns eventId vendorId payload llmOutput w w'
  | persisted {schemaDoc : JsonObject} {row : VendorSchema} {w' : World}
      (hdiscover : discoverSchema env payload eventId vendorId llmOutput = .ok (some schemaDoc))
      (hrow : w.db.schemaRow (lessonKey env vendorId payload) schemaDoc eventId = some row)
      (hdb : w'.db = { w.db with
        vendorSchemas := w.db.vendorSchemas.insert (lessonKey env vendorId payload) row
        vendorSchemasSeq := w.db.vendorSchemasSeq + 1
        vendorEventTypeMap := w'.db.vendorEventTypeMap })
      (heventTypes : ∀ key mapping, w.db.vendorEventTypeMap.lookup key = some mapping →
        w'.db.vendorEventTypeMap.lookup key = some mapping)
      (htrace : w'.trace = w.trace ∨ w'.trace = .learned eventId vendorId row.id schemaDoc :: w.trace) :
      Learns eventId vendorId payload llmOutput w w'

/-- The world once the statement of a lesson has succeeded. -/
structure Persists (key : SchemaKey) (row : VendorSchema) (w w' : World) : Prop where
  db : w'.db = { w.db with
    vendorSchemas := w.db.vendorSchemas.insert key row
    vendorSchemasSeq := w.db.vendorSchemasSeq + 1
    vendorEventTypeMap := w'.db.vendorEventTypeMap }
  eventTypes : ∀ key mapping, w.db.vendorEventTypeMap.lookup key = some mapping →
    w'.db.vendorEventTypeMap.lookup key = some mapping
  trace : w'.trace = w.trace

/-- The mapping beside a lesson takes the place of none. -/
theorem persistLessonType_keeps {key : SchemaKey} {row : VendorSchema} {w : World}
    (llmOutput : JsonObject) (rawEventType : Json) :
    Program.Keeps Op.handle (Persists key row w)
      (persistLessonType env vendorId llmOutput rawEventType) := by
  rw [persistLessonType]
  split
  · split
    · refine .perform fun w' h => ?_
      simp only [Op.handle, Database.insertEventType]
      split
      · exact h
      · rename_i hmiss
        refine ⟨by rw [h.db], fun key mapping hkey => ?_, h.trace⟩
        rw [lookup_insert_eq, if_neg]
        · exact h.eventTypes key mapping hkey
        · rintro rfl
          have hkept := h.eventTypes _ mapping hkey
          rw [hmiss] at hkept
          cases hkept
    · exact .ret _
  · exact .ret _

/-- What discovery does once its statement has succeeded. -/
theorem learned_spec {schemaDoc llmOutput : JsonObject} {row : VendorSchema} {w : World}
    (hdiscover : discoverSchema env payload eventId vendorId llmOutput = .ok (some schemaDoc))
    (hrow : w.db.schemaRow (lessonKey env vendorId payload) schemaDoc eventId = some row) :
    Program.Triple Op.handle (Persists (lessonKey env vendorId payload) row w)
      (do
        let rawEventType ← Program.ofExcept (findRawEventType env.toUnicode payload schemaDoc)
        persistLessonType env vendorId llmOutput rawEventType
        .perform (Op.note (.learned eventId vendorId row.id schemaDoc))
        return some row.id : Job (Option SchemaId))
      fun _ => Learns env eventId vendorId payload llmOutput w := by
  have hunnoted : ∀ w', Persists (lessonKey env vendorId payload) row w w' →
      Learns env eventId vendorId payload llmOutput w w' := fun w' h =>
    .persisted hdiscover hrow h.db h.eventTypes (.inl h.trace)
  refine .bind (Program.Keeps.ofExcept _).triple (fun rawEventType => ?_) fun e => hunnoted
  refine .bind (persistLessonType_keeps env llmOutput rawEventType).triple (fun _ => ?_) fun e => hunnoted
  intro w' h
  exact .persisted hdiscover hrow h.db h.eventTypes (.inr (congrArg _ h.trace))

/-- **Discovery learns at most the lesson it has validated.** -/
theorem discoverAndPersist_spec (llmOutput : JsonObject) (w : World) :
    Program.Triple Op.handle (fun w' => w' = w)
      (discoverAndPersist env vendorId payload llmOutput eventId)
      fun _ => Learns env eventId vendorId payload llmOutput w := by
  rw [discoverAndPersist]
  refine .bind (R := fun schemaDoc w' => w' = w ∧
      discoverSchema env payload eventId vendorId llmOutput = schemaDoc)
    (.ofExcept fun w' h => ⟨h, rfl⟩) (fun schemaDoc => ?_) fun e w' h => h.1 ▸ .nothing rfl rfl
  cases schemaDoc with
  | none => exact .ret fun w' h => h.1 ▸ .nothing rfl rfl
  | some schemaDoc =>
    rintro w' ⟨rfl, hdiscover⟩
    cases hrow : w'.db.schemaRow (lessonKey env vendorId payload) schemaDoc eventId with
    | none =>
      have hupsert : (Op.upsertSchema vendorId (structuralFingerprint env (.obj payload) []) schemaDoc
          eventId).handle w' =
          (.ok none, { w' with db := { w'.db with vendorSchemasSeq := w'.db.vendorSchemasSeq + 1 } }) := by
        rw [lessonKey] at hrow
        rw [Op.handle, Database.upsertSchema, hrow]
      rw [Program.run_perform_bind Op.handle hupsert]
      exact .nothing rfl rfl
    | some row =>
      have hupsert : (Op.upsertSchema vendorId (structuralFingerprint env (.obj payload) []) schemaDoc
          eventId).handle w' =
          (.ok (some row.id), { w' with db := { w'.db with
            vendorSchemas := w'.db.vendorSchemas.insert (lessonKey env vendorId payload) row
            vendorSchemasSeq := w'.db.vendorSchemasSeq + 1 } }) := by
        rw [lessonKey] at hrow
        rw [Op.handle, Database.upsertSchema, hrow]
        rfl
      rw [Program.run_perform_bind Op.handle hupsert]
      exact learned_spec env hdiscover hrow _ ⟨rfl, fun _ _ h => h, rfl⟩

end PathB

/-! ### A whole step -/

/-- A raw event as it was delivered, and the vendor it has been given since. -/
def RawEvent.delivered (row : RawEvent) :
    Option String × JsonObject × List (String × String) × Bool :=
  (row.vendorId, row.payload, row.headers, row.signatureVerified)

/-- **What a step that does not finalize changes at its end**: the event's status, and the
queue of reviews. -/
structure Files (w w' : World) : Prop where
  db : w'.db = { w.db with
    rawEvents := w'.db.rawEvents
    requiresHumanReview := w'.db.requiresHumanReview }
  rawEvents : ∀ eventId, (w'.db.rawEvents.lookup eventId).map RawEvent.delivered =
    (w.db.rawEvents.lookup eventId).map RawEvent.delivered
  trace : w'.trace = w.trace

theorem Files.refl (w : World) : Files w w := ⟨rfl, fun _ => rfl, rfl⟩

/-- A status leaves the delivery. -/
theorem delivered_updateRawEvent (db : Database) (eventId : EventId) {set : RawEvent → RawEvent}
    (hset : ∀ row, (set row).delivered = row.delivered) (id : EventId) :
    ((db.updateRawEvent eventId set).rawEvents.lookup id).map RawEvent.delivered =
      (db.rawEvents.lookup id).map RawEvent.delivered := by
  rw [Database.updateRawEvent, lookup_updateRows, Option.map_map]
  congr 1
  funext row
  by_cases hid : id = eventId
  · simp only [Function.comp_apply, if_pos hid, hset]
  · simp only [Function.comp_apply, if_neg hid]

theorem files_markReview (eventId : EventId) (reason : String) (w : World) :
    Files w ((Op.markReview eventId reason).handle w).2 :=
  ⟨rfl, delivered_updateRawEvent { w.db with requiresHumanReview := _ } eventId fun _ => rfl, rfl⟩

theorem files_markPendingLlm (eventId : EventId) (reason : String) (w : World) :
    Files w ((Op.markPendingLlm eventId reason).handle w).2 :=
  ⟨rfl, delivered_updateRawEvent w.db eventId fun _ => rfl, rfl⟩

section Step
variable (env : Externals) (settings : Settings) (payload : JsonObject) (eventId : EventId)
  (vendorId : String)

/-- **A drafted event**, and the world it is drafted in. -/
inductive Drafted (w : World) : CanonicalEvent → World → Prop
  | schema {schemaMatch : SchemaMatch} {canonical : CanonicalEvent} {w' : World}
      (hlookup : lookupSchema w.db.vendorSchemas vendorId (structuralFingerprint env (.obj payload) []) =
        some schemaMatch)
      (hreads : Reads env payload eventId vendorId schemaMatch.schemaDoc (Resolves env w vendorId) canonical)
      (hprepares : Prepares w w') : Drafted w canonical (w'.succeeded eventId schemaMatch.schemaId)
  | llm {source : Source} {data : JsonObject} {canonical : CanonicalEvent} {w₁ w' : World}
      (hnew : ¬ Familiar env payload eventId vendorId w.db)
      (hoffered : Offered env settings w vendorId payload source data)
      (hbuild : buildCanonical env eventId data source = .ok canonical) (hprepares : Prepares w w₁)
      (hlearns : w' = w₁ ∨ source = .llm ∧ Learns env eventId vendorId payload data w₁ w') :
      Drafted w canonical w'

theorem Drafted.draft {w w' : World} {canonical : CanonicalEvent}
    (h : Drafted env settings payload eventId vendorId w canonical w') :
    Draft env payload eventId vendorId settings w canonical := by
  cases h with
  | schema hlookup hreads => exact .schema hlookup hreads
  | llm hnew hoffered hbuild => exact .llm hnew hoffered hbuild

/-- **What `process_event` does on a row**: it drafts an event and finalizes it, or it stops
with nothing finalized. -/
inductive Worked (w : World) : Except PyError ProcessOutcome → World → Prop
  | finalized {canonical normalized : CanonicalEvent} {outcome : ApplyOutcome} {store : Store} {w' : World}
      (hdrafted : Drafted env settings payload eventId vendorId w canonical w')
      (hnormalize : normalize (overrideVendor vendorId canonical) = .ok normalized)
      (happly : applyEvent normalized w'.db.store = (.ok outcome, store)) :
      Worked w (.ok (.finalized outcome)) { w' with db := w'.db.finalized eventId normalized store }
  | failed {canonical normalized : CanonicalEvent} {e : ApplyError} {store : Store} {w' : World}
      (hdrafted : Drafted env settings payload eventId vendorId w canonical w')
      (hnormalize : normalize (overrideVendor vendorId canonical) = .ok normalized)
      (happly : applyEvent normalized w'.db.store = (.error e, store)) :
      Worked w (.error e.toPyError) { w' with db := { w'.db with store } }
  | stopped {r : Except PyError ProcessOutcome} {w' w'' : World}
      (hprepared : Prepares w w' ∨ ∃ canonical, Drafted env settings payload eventId vendorId w canonical w')
      (hfiles : Files w' w'') (hr : ∀ outcome, r ≠ .ok (.finalized outcome)) : Worked w r w''

variable {env settings payload eventId vendorId} {w : World}

theorem finalizeEvent_spec (canonical : CanonicalEvent) :
    Program.Triple Op.handle (Drafted env settings payload eventId vendorId w canonical)
      (finalizeEvent eventId vendorId canonical) (Worked env settings payload eventId vendorId w) := by
  intro w' hdrafted
  rw [finalizeEvent]
  cases hnormalize : normalize (overrideVendor vendorId canonical) with
  | ok normalized =>
    cases happly : applyEvent normalized w'.db.store with
    | mk r store =>
      cases r with
      | ok outcome =>
        have hfinalize : (Op.finalize eventId normalized).handle w' =
            (.ok outcome, { w' with db := w'.db.finalized eventId normalized store }) := by
          rw [Op.handle, happly]
        simp only []
        rw [Program.run_perform_bind Op.handle hfinalize]
        exact .finalized hdrafted hnormalize happly
      | error e =>
        have hfinalize : (Op.finalize eventId normalized).handle w' =
            (.error e.toPyError, { w' with db := { w'.db with store } }) := by
          rw [Op.handle, happly]
        simp only []
        rw [Program.run_perform_error Op.handle hfinalize]
        exact .failed hdrafted hnormalize happly
  | error e =>
    cases e with
    | normalizationError =>
      simp only []
      rw [Program.run_perform_bind Op.handle rfl]
      exact .stopped (.inr ⟨canonical, hdrafted⟩) (files_markReview ..) (fun _ hr => by cases hr)
    | _ => exact .stopped (.inr ⟨canonical, hdrafted⟩) (.refl w') (fun _ hr => by cases hr)

/-- What is offered after a consultation was offered before it. -/
theorem Consults.offered {w' : World} (h : Consults env vendorId w w') {source : Source}
    {data : JsonObject} (hoffered : Offered env settings w' vendorId payload source data) :
    Offered env settings w vendorId payload source data := by
  cases hoffered with
  | @cached entry hentry =>
    rcases h.cache.new _ _ hentry with hold | ⟨⟨rawEventType, hkey⟩, result, hresult, hdata⟩
    · exact .cached hold
    · exact .shared hkey hresult hdata
  | shared hkey hresult hdata => exact .shared hkey (h.answers _ hresult) hdata
  | answered hmiss hresult hdata =>
    refine .answered ?_ (h.answers _ hresult) hdata
    cases hold : w.db.llmCache.lookup (extractCacheKey env settings vendorId payload) with
    | none => rfl
    | some entry =>
      rw [h.cache.kept _ _ hold] at hmiss
      cases hmiss

theorem processViaLLM_spec (hvendor : vendorId ≠ "") (hnew : ¬ Familiar env payload eventId vendorId w.db) :
    Program.Triple Op.handle (Consults env vendorId w) (processViaLLM env settings eventId vendorId payload)
      (Worked env settings payload eventId vendorId w) := by
  intro w₀ hconsults
  suffices hrest : Program.Triple Op.handle (fun w' => w' = w₀)
      (processViaLLM env settings eventId vendorId payload) (Worked env settings payload eventId vendorId w) from
    hrest w₀ rfl
  have hprepares : ∀ {w'}, Asks w₀ w' → Prepares w w' := fun hasks =>
    hconsults.toPrepares.trans hasks.prepares
  refine .bind (universalNormalize_spec env settings hvendor w₀) (fun result => ?_) fun e w' h =>
    .stopped (.inl (hprepares h.1)) (.refl w') fun _ hr => by cases hr
  cases result with
  | ok canonical outcome =>
    dsimp only
    have hdrafted : ∀ w', Asks w₀ w' → ∀ w'', (w'' = w' ∨ outcome.source = .llm ∧
        Learns env eventId vendorId payload outcome.data w' w'') →
        Offered env settings w₀ vendorId payload outcome.source outcome.data ∧
          buildCanonical env eventId outcome.data outcome.source = .ok canonical →
        Drafted env settings payload eventId vendorId w canonical w'' :=
      fun w' hasks w'' hlearns hsaid =>
        .llm hnew (hconsults.offered hsaid.1) hsaid.2 (hprepares hasks) hlearns
    split
    · rename_i hfresh
      intro w₁ h
      have hsaid := h.2 canonical outcome rfl
      have hllm : outcome.source = .llm := by
        cases hsource : outcome.source with
        | llm => rfl
        | llmCache => exact absurd hsource hfresh.2
        | _ =>
          have hoffered := hsaid.1
          rw [hsource] at hoffered
          cases hoffered
      refine Program.Triple.bind (R := fun _ => Learns env eventId vendorId payload outcome.data w₁)
        (.tryCatch (discoverAndPersist_spec env outcome.data w₁) (fun _ _ hlearns => hlearns)
          fun _ => .ret fun _ hlearns => hlearns)
        (fun _ => (finalizeEvent_spec canonical).weaken (fun w' hlearns =>
          hdrafted w₁ h.1 w' (.inr ⟨hllm, hlearns⟩) hsaid) fun _ _ hworked => hworked)
        (fun e w' hlearns => ?_) w₁ rfl
      exact .stopped (.inr ⟨canonical, hdrafted w₁ h.1 w' (.inr ⟨hllm, hlearns⟩) hsaid⟩) (.refl w')
        fun _ hr => by cases hr
    · exact (finalizeEvent_spec canonical).weaken (fun w' h =>
        hdrafted w' h.1 w' (.inl rfl) (h.2 canonical outcome rfl)) fun _ _ hworked => hworked
  | deferred =>
    intro w' h
    exact .stopped (.inl (hprepares h.1)) (files_markPendingLlm ..) fun _ hr => by cases hr
  | unsupported reason =>
    intro w' h
    exact .stopped (.inl (hprepares h.1)) (files_markReview ..) fun _ hr => by cases hr

/-- Every row has a vendor the step goes on with. -/
theorem resolveVendorId_ne_empty (u : Unicode) (row : RawEvent) : resolveVendorId u row ≠ "" := by
  have hinfer : inferVendorId u row.payload ≠ "" := by
    rw [inferVendorId]
    repeat' split
    all_goals decide
  rw [resolveVendorId]
  split
  · split
    · exact hinfer
    · assumption
  · exact hinfer

theorem processRow_spec (eventId : EventId) (row : RawEvent) (w : World) :
    Program.Triple Op.handle (fun w' => w' = w) (processRow env settings eventId row)
      (Worked env settings row.payload eventId (resolveVendorId env.toUnicode row) w) := by
  have hvendor := resolveVendorId_ne_empty env.toUnicode row
  rintro w' rfl
  rw [processRow]
  cases hlookup : lookupSchema w'.db.vendorSchemas (resolveVendorId env.toUnicode row)
      (structuralFingerprint env (.obj row.payload) []) with
  | none =>
    rw [Program.run_perform_bind Op.handle (by rw [Op.handle, hlookup])]
    refine processViaLLM_spec hvendor ?_ w' (.refl env _ w')
    rintro ⟨schemaMatch, canonical, hsome, -⟩
    rw [hlookup] at hsome
    cases hsome
  | some schemaMatch =>
    rw [Program.run_perform_bind Op.handle (by rw [Op.handle, hlookup])]
    refine Program.Triple.bind (processViaSchema_spec env settings hlookup) (fun canonical => ?_)
      (fun e w'' h => .stopped (.inl h.1) (.refl w'') fun _ hr => by cases hr) w' rfl
    cases canonical with
    | some canonical =>
      refine (finalizeEvent_spec canonical).weaken (fun w'' h => ?_) fun _ _ hworked => hworked
      obtain ⟨⟨hreads, w₁, hprepares, rfl⟩, -⟩ := h
      exact .schema hlookup hreads hprepares
    | none =>
      intro w'' h
      rw [Program.run_perform_bind Op.handle rfl]
      have hconsults : Consults env (resolveVendorId env.toUnicode row) w' w'' := h.1
      exact processViaLLM_spec hvendor (h.2 rfl) _
        ⟨hconsults.toPrepares.trans (prepares_incrementFailure schemaMatch.schemaId w''), hconsults.cache⟩

/-- **What one `process_event` call does**: nothing without a row, else one of the ways of
`Worked`. -/
theorem processEvent_worked (env : Externals) (settings : Settings) (eventId : EventId) (w : World) :
    match w.db.rawEvents.lookup eventId with
    | none => Job.run (processEvent env settings eventId) w = (.ok .notFound, w)
    | some row => Worked env settings row.payload eventId (resolveVendorId env.toUnicode row) w
        (Job.run (processEvent env settings eventId) w).1 (Job.run (processEvent env settings eventId) w).2 := by
  rw [Job.run, processEvent]
  cases hrow : w.db.rawEvents.lookup eventId with
  | none =>
    rw [Program.run_perform_bind Op.handle (by rw [Op.handle, hrow])]
    rfl
  | some row =>
    rw [Program.run_perform_bind Op.handle (by rw [Op.handle, hrow])]
    exact processRow_spec eventId row w w rfl

/-- Finalizing leaves the trace. -/
theorem finalizeEvent_trace (canonical : CanonicalEvent) (w : World) :
    (Program.run Op.handle (finalizeEvent eventId vendorId canonical) w).2.trace = w.trace := by
  have hkeeps : Program.Keeps Op.handle (fun w' : World => w'.trace = w.trace)
      (finalizeEvent eventId vendorId canonical) := by
    rw [finalizeEvent]
    split
    · refine .bind (.perform fun w' h => ?_) fun outcome => .ret _
      rw [Op.handle]
      split
      · exact h
      · exact h
    · exact .bind (.perform fun w' h => h) fun _ => .ret _
    · exact .raise _
  exact hkeeps.run rfl

/-- **A familiar event is processed without asking.** -/
theorem processEvent_familiar {row : RawEvent} (hrow : w.db.rawEvents.lookup eventId = some row)
    (h : Familiar env row.payload eventId (resolveVendorId env.toUnicode row) w.db) :
    ∃ schemaId, (Job.run (processEvent env settings eventId) w).2.trace = .extracted eventId schemaId :: w.trace := by
  obtain ⟨schemaMatch, canonical, hlookup, hreads⟩ := h
  refine ⟨schemaMatch.schemaId, ?_⟩
  rw [Job.run, processEvent, Program.run_perform_bind Op.handle (by rw [Op.handle, hrow])]
  simp only [processRow]
  rw [Program.run_perform_bind Op.handle (by rw [Op.handle, hlookup])]
  simp only []
  rw [Program.run_bind, run_processViaSchema_stored env settings hreads]
  exact finalizeEvent_trace canonical _

end Step

end WebhookIngestion
