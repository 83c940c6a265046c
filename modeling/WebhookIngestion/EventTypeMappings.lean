import WebhookIngestion.ServiceTasks

/-! # The event-type map

Two statements write the map of raw event types: discovery's, which gives way to a row that
is there, and the classifier's, which replaces it.  `mapping_handle` says what either leaves
under a key; where no classifier meets a row that says something else, every row is
permanent and every event of Path A is applied as its row says (`mappings_permanent`). -/
namespace WebhookIngestion
open Tables Text Programs Runs

/-! ### Writing the map -/

/-- The row that the classifier's statement puts under its key, unless the driver or a column
refuses a value. -/
def Op.upserts : Op → Option ((String × String) × EventTypeMapping)
  | .upsertEventType vendorId rawEventType classification canonicalState confidence =>
    match toText classification, toText canonicalState, floatToNumeric 4 3 confidence with
    | .ok classification, .ok canonicalState, .ok confidence =>
      some ((vendorId, rawEventType), ⟨classification, canonicalState, confidence, false⟩)
    | _, _, _ => none
  | _ => none

theorem lookup_upsertEventType (db : Database) (key key' : String × String) (mapping : EventTypeMapping) :
    (db.upsertEventType key mapping).vendorEventTypeMap.lookup key' =
      if key' = key ∧ ∀ row ∈ db.vendorEventTypeMap.lookup key, row.reviewedByHuman = false then some mapping
      else db.vendorEventTypeMap.lookup key' := by
  rw [Database.upsertEventType]
  cases hkey : db.vendorEventTypeMap.lookup key with
  | none =>
    dsimp only
    rw [lookup_insert_eq]
    simp
  | some row =>
    cases hreviewed : row.reviewedByHuman with
    | true => simp [hreviewed]
    | false =>
      simp only [hreviewed, Bool.false_eq_true, if_false, lookup_insert_eq]
      simp [hreviewed]

theorem lookup_insertEventType (db : Database) (key key' : String × String) (mapping : EventTypeMapping) :
    (db.insertEventType key mapping).vendorEventTypeMap.lookup key' =
      if key' = key ∧ db.vendorEventTypeMap.lookup key = none then some mapping
      else db.vendorEventTypeMap.lookup key' := by
  rw [Database.insertEventType]
  cases hkey : db.vendorEventTypeMap.lookup key with
  | none =>
    dsimp only
    rw [lookup_insert_eq]
    simp
  | some row => simp

/-- **What an operation does to the map.** -/
inductive MapsBy (w : World) : Op → Table (String × String) EventTypeMapping → Prop
  | kept {o : Op} (hnone : o.upserts = none) : MapsBy w o w.db.vendorEventTypeMap
  | upserted {o : Op} {key : String × String} {mapping : EventTypeMapping}
      (hupserts : o.upserts = some (key, mapping)) :
      MapsBy w o (w.db.upsertEventType key mapping).vendorEventTypeMap
  | inserted (vendorId rawEventType classification canonicalState : String) :
      MapsBy w (.insertEventType vendorId rawEventType classification canonicalState)
        (w.db.insertEventType (vendorId, rawEventType)
          ⟨classification, canonicalState, some (85 / 100), false⟩).vendorEventTypeMap

theorem mapsBy_handle (o : Op) (w : World) : MapsBy w o (o.handle w).2.db.vendorEventTypeMap := by
  cases o with
  | upsertEventType vendorId rawEventType classification canonicalState confidence =>
    simp only [Op.handle]
    split
    · rename_i cls state conf hcls hstate hconf
      refine .upserted ?_
      simp only [Op.upserts, hcls, hstate, hconf]
    · rename_i hrefused
      refine .kept ?_
      rw [Op.upserts]
      split
      · rename_i cls state conf hcls hstate hconf
        exact (hrefused cls state conf hcls hstate hconf).elim
      · rfl
  | insertEventType vendorId rawEventType classification canonicalState =>
    exact .inserted vendorId rawEventType classification canonicalState
  | insertRawEvent eventId vendorId payload headers signatureVerified =>
    rw [Op.handle]
    split <;> exact .kept rfl
  | enqueue eventId =>
    rw [Op.handle]
    split <;> exact .kept rfl
  | upsertSchema vendorId fingerprint schemaDoc eventId =>
    simp only [Op.handle, Database.upsertSchema]
    split <;> exact .kept rfl
  | insertCache cacheKey entry =>
    simp only [Op.handle, Database.insertCache]
    split
    · split <;> exact .kept rfl
    · exact .kept rfl
  | insertAudit eventId source costEstimate decision =>
    simp only [Op.handle]
    split <;> exact .kept rfl
  | complete vendorId =>
    simp only [Op.handle]
    split <;> exact .kept rfl
  | finalize eventId event =>
    rw [Op.handle]
    split <;> exact .kept rfl
  | _ => exact .kept rfl

/-! ### Permanence -/

/-- A statement of the classifier brings a classification, and where it meets a row it says
what the row says. -/
def MappingAgrees (o : Op) (w : World) : Prop :=
  ∀ upsert ∈ o.upserts, upsert.2.classification ≠ "" ∧
    ∀ row ∈ w.db.vendorEventTypeMap.lookup upsert.1,
      row.classification = upsert.2.classification ∧ row.canonicalState = upsert.2.canonicalState

instance (o : Op) (w : World) : Decidable (MappingAgrees o w) :=
  inferInstanceAs (Decidable (∀ upsert ∈ o.upserts, _))

instance (db : Database) (vendorId rawEventType classification canonicalState : String) :
    Decidable (Stored db vendorId rawEventType classification canonicalState) :=
  inferInstanceAs (Decidable (∃ mapping ∈ db.vendorEventTypeMap.lookup (vendorId, rawEventType), _))

/-- Every row of the map has a classification. -/
def Classified (db : Database) : Prop :=
  ∀ key row, db.vendorEventTypeMap.lookup key = some row → row.classification ≠ ""

section Step
variable {o : Op} {w : World} (hagrees : MappingAgrees o w)
include hagrees

/-- **What is stored stays stored.** -/
theorem Stored.handle {vendorId rawEventType classification canonicalState : String}
    (h : Stored w.db vendorId rawEventType classification canonicalState) :
    Stored (o.handle w).2.db vendorId rawEventType classification canonicalState := by
  obtain ⟨row, hrow, rfl, rfl⟩ := h
  have hmaps := mapsBy_handle o w
  unfold Stored
  generalize (o.handle w).2.db.vendorEventTypeMap = rows at hmaps ⊢
  cases hmaps with
  | kept hnone => exact ⟨row, hrow, rfl, rfl⟩
  | @upserted _ key mapping hupserts =>
    rw [lookup_upsertEventType]
    split
    · rename_i hkey
      have hsame := (hagrees (key, mapping) hupserts).2 row (by rw [← hkey.1]; exact hrow)
      exact ⟨mapping, rfl, hsame.1.symm, hsame.2.symm⟩
    · exact ⟨row, hrow, rfl, rfl⟩
  | inserted vendorId' rawEventType' classification canonicalState =>
    rw [lookup_insertEventType, if_neg]
    · exact ⟨row, hrow, rfl, rfl⟩
    · rintro ⟨hkey, hnone⟩
      rw [← hkey, hrow] at hnone
      cases hnone

theorem classified_handle (hinserts : ∀ vendorId rawEventType classification canonicalState,
      o = .insertEventType vendorId rawEventType classification canonicalState →
        classification = "shipment" ∨ classification = "invoice")
    (h : Classified w.db) : Classified (o.handle w).2.db := by
  intro key row hrow
  have hmaps := mapsBy_handle o w
  generalize (o.handle w).2.db.vendorEventTypeMap = rows at hmaps hrow
  cases hmaps with
  | kept hnone => exact h key row hrow
  | @upserted _ key' mapping hupserts =>
    rw [lookup_upsertEventType] at hrow
    split at hrow
    · cases hrow
      exact (hagrees _ hupserts).1
    · exact h key row hrow
  | inserted vendorId rawEventType classification canonicalState =>
    rw [lookup_insertEventType] at hrow
    split at hrow
    · cases hrow
      rcases hinserts vendorId rawEventType classification canonicalState rfl with rfl | rfl
      · exact (by decide : "shipment" ≠ "")
      · exact (by decide : "invoice" ≠ "")
    · exact h key row hrow

/-- A mapping that was written is stored, by the statement or before it. -/
theorem stored_of_upserts {vendorId rawEventType : String} {mapping : EventTypeMapping}
    (hupserts : o.upserts = some ((vendorId, rawEventType), mapping)) :
    Stored (o.handle w).2.db vendorId rawEventType mapping.classification mapping.canonicalState := by
  have hmaps := mapsBy_handle o w
  unfold Stored
  generalize (o.handle w).2.db.vendorEventTypeMap = rows at hmaps ⊢
  cases hmaps with
  | kept hnone =>
    rw [hnone] at hupserts
    cases hupserts
  | upserted hupserts' =>
    cases hupserts.symm.trans hupserts'
    rw [lookup_upsertEventType]
    split
    · exact ⟨mapping, rfl, rfl, rfl⟩
    · -- a row that a human has reviewed stays, and it agrees
      rename_i hreviewed
      cases hrow : w.db.vendorEventTypeMap.lookup (vendorId, rawEventType) with
      | none => simp [hrow] at hreviewed
      | some row => exact ⟨row, rfl, (hagrees _ hupserts).2 row hrow⟩
  | inserted => cases hupserts

end Step

/-- A job has heard of mappings that are stored. -/
structure Heard (db : Database) (past : Past) : Prop where
  selected : ∀ vendorId rawEventType classification canonicalState,
    ⟨.selectEventType vendorId rawEventType, .ok (some (classification, canonicalState))⟩ ∈ past →
      Stored db vendorId rawEventType classification canonicalState
  upserted : ∀ vendorId rawEventType classification canonicalState confidence,
    ⟨.upsertEventType vendorId rawEventType (.str classification) (.str canonicalState) confidence, .ok ()⟩ ∈ past →
      Stored db vendorId rawEventType classification canonicalState

theorem Heard.nil (db : Database) : Heard db [] := ⟨fun _ _ _ _ h => (by cases h), fun _ _ _ _ _ h => (by cases h)⟩

theorem Heard.mono {db db' : Database} {past : Past} (h : Heard db past)
    (hkeeps : ∀ vendorId rawEventType classification canonicalState,
      Stored db vendorId rawEventType classification canonicalState →
        Stored db' vendorId rawEventType classification canonicalState) : Heard db' past :=
  ⟨fun v r cls st hm => hkeeps v r cls st (h.selected v r cls st hm),
    fun v r cls st conf hm => hkeeps v r cls st (h.upserted v r cls st conf hm)⟩

/-- The classifier's statement was answered, so it was not refused. -/
theorem upserts_of_ok {vendorId rawEventType classification canonicalState : String} {confidence : PyFloat}
    {w : World} (h : ((Op.upsertEventType vendorId rawEventType (.str classification) (.str canonicalState)
      confidence).handle w).1 = .ok ()) :
    ∃ stored, (Op.upsertEventType vendorId rawEventType (.str classification) (.str canonicalState)
      confidence).upserts = some ((vendorId, rawEventType), ⟨classification, canonicalState, stored, false⟩) := by
  simp only [Op.handle, toText] at h
  simp only [Op.upserts, toText]
  cases hconf : floatToNumeric 4 3 confidence with
  | ok stored => exact ⟨stored, rfl⟩
  | error e =>
    simp only [hconf] at h
    cases h

/-- **What a job hears when its operation is answered is stored.** -/
theorem Heard.cons {past : Past} {o : Op} {w : World} (h : Heard (o.handle w).2.db past)
    (hagrees : MappingAgrees o w) : Heard (o.handle w).2.db (⟨o, (o.handle w).1⟩ :: past) := by
  constructor
  · intro vendorId rawEventType classification canonicalState hm
    rcases List.mem_cons.mp hm with he | hm
    · cases o with
      | selectEventType vendorId' rawEventType' =>
        simp only [Op.handle, Performed.mk.injEq, Op.selectEventType.injEq] at he
        obtain ⟨⟨rfl, rfl⟩, he⟩ := he
        obtain ⟨row, hrow, hrow'⟩ := Option.map_eq_some_iff.mp (Except.ok.inj (eq_of_heq he)).symm
        cases hrow'
        exact ⟨row, hrow, rfl, rfl⟩
      | _ => cases congrArg Performed.op he
    · exact h.selected _ _ _ _ hm
  · intro vendorId rawEventType classification canonicalState confidence hm
    rcases List.mem_cons.mp hm with he | hm
    · have ho : o = .upsertEventType vendorId rawEventType (.str classification) (.str canonicalState) confidence :=
        (congrArg Performed.op he).symm
      subst ho
      obtain ⟨stored, hupserts⟩ := upserts_of_ok (eq_of_heq (Performed.mk.inj he).2).symm
      exact stored_of_upserts hagrees hupserts
    · exact h.upserted _ _ _ _ _ hm

/-- A failure tells a job of no mapping. -/
theorem Heard.error {db : Database} {past : Past} (h : Heard db past) (o : Op) (e : PyError) :
    Heard db (⟨o, .error e⟩ :: past) := by
  constructor
  · intro vendorId rawEventType classification canonicalState hm
    rcases List.mem_cons.mp hm with he | hm
    · cases congrArg Performed.op he
      cases he
    · exact h.selected _ _ _ _ hm
  · intro vendorId rawEventType classification canonicalState confidence hm
    rcases List.mem_cons.mp hm with he | hm
    · cases congrArg Performed.op he
      cases he
    · exact h.upserted _ _ _ _ _ hm

section Runs
variable (env : Externals) (settings : Settings) {mayLose : Op → Prop} {ι : Type} [DecidableEq ι]

/-- The map is what every job has heard of it. -/
structure TracksMap (c : Config World ι ServiceJob PyError Op Op.Result ServiceResult) : Prop where
  classified : Classified c.state.db
  heard : ∀ i task, c.tasks i = some task → Heard c.state.db task.history

/-- Only discovery adds a mapping beside a schema, and only for an entity. -/
theorem classification_of_inserts {job : ServiceJob} {past : Past} {o : Op} (h : JobObeys job past o) :
    ∀ vendorId rawEventType classification canonicalState,
      o = .insertEventType vendorId rawEventType classification canonicalState →
        classification = "shipment" ∨ classification = "invoice" := by
  rintro vendorId rawEventType classification canonicalState rfl
  cases job with
  | receive => exact h.elim
  | work | replay => exact h
  | truncate => cases h

/-- Only workers finalize events, and they follow the mapping. -/
theorem followsMapping_of_obeys {job : ServiceJob} {past : Past} {eventId : EventId} {event : CanonicalEvent}
    (h : JobObeys job past (.finalize eventId event)) : FollowsMapping past event := by
  cases job with
  | receive => exact h.elim
  | work | replay => exact h.2
  | truncate => cases h

theorem tracksMap_kept : (service env settings mayLose).Kept MappingAgrees JobObeys
    (TracksMap (ι := ι)) where
  start c i job h hfree := by
    refine ⟨h.classified, fun j task htask => ?_⟩
    rcases Config.tasks_put htask with ⟨-, rfl⟩ | ⟨-, hold⟩
    · exact .nil _
    · exact h.heard j task hold
  perform c i job past o next r w h htask hobeys hagrees hanswers := by
    have hpast := h.heard i _ htask
    have hkeeps : ∀ vendorId rawEventType classification canonicalState,
        Stored c.state.db vendorId rawEventType classification canonicalState →
          Stored (o.handle c.state).2.db vendorId rawEventType classification canonicalState :=
      fun _ _ _ _ hstored => hstored.handle hagrees
    have hclassified := classified_handle hagrees (classification_of_inserts hobeys) h.classified
    -- the job's own history is longer by what it was answered
    have hput : ∀ {w' : World}, Classified w'.db → Heard w'.db (⟨o, r⟩ :: past) →
        (∀ j task, c.tasks j = some task → Heard w'.db task.history) →
          TracksMap (c.put w' i ⟨job, ⟨o, r⟩ :: past, next r⟩) := by
      intro w' hclassified' hown hothers
      refine ⟨hclassified', fun j task htask' => ?_⟩
      rcases Config.tasks_put htask' with ⟨-, rfl⟩ | ⟨-, hold⟩
      · exact hown
      · exact hothers j task hold
    cases hanswers with
    | done =>
      exact hput hclassified ((hpast.mono hkeeps).cons hagrees) fun j task hj => (h.heard j task hj).mono hkeeps
    | failed e hfail => exact hput h.classified (hpast.error o e) h.heard
    | lost e hlose =>
      exact hput hclassified ((hpast.mono hkeeps).error o e) fun j task hj => (h.heard j task hj).mono hkeeps
  outside c w h houtside := by
    refine ⟨?_, fun i task htask => ?_⟩
    · rw [houtside.1]
      exact h.classified
    · rw [houtside.1]
      exact h.heard i task htask

/-- A job is about to finalize an event that Path A has extracted with a raw event type. -/
structure FinalizesAs (task : Task ServiceJob PyError Op Op.Result ServiceResult)
    (vendorId rawEventType : String) (event : CanonicalEvent) : Prop where
  finalizes : ∃ eventId next, task.program = .op (.finalize eventId event) next
  extracted : ∃ eventId schemaId answer, ⟨.note (.extracted eventId schemaId), answer⟩ ∈ task.history
  asked : ∃ answer, ⟨.selectEventType vendorId rawEventType, answer⟩ ∈ task.history

/-- **A mapping is permanent where no classifier meets a row that says something else**: a
row keeps its classification and its state, and as long as it is there every event that
Path A finalizes with its raw event type is applied as it says. -/
theorem mappings_permanent {w₀ : World} (hrows : Classified w₀.db)
    {c c' : Config World ι ServiceJob PyError Op Op.Result ServiceResult}
    (h : (service env settings mayLose).Reaches MappingAgrees (.idle w₀) c)
    (h' : (service env settings mayLose).Reaches MappingAgrees c c')
    {vendorId rawEventType classification canonicalState : String}
    (hstored : Stored c.state.db vendorId rawEventType classification canonicalState) :
    Stored c'.state.db vendorId rawEventType classification canonicalState ∧
      ∀ i task event, c'.tasks i = some task → FinalizesAs task vendorId rawEventType event →
        event.classification.value = classification ∧
          ∀ (k : EntityType) (ev : CanonicalEntityEvent k), event = .entity k ev →
            eventTypeValue k ev.eventType = canonicalState := by
  have hidle : TracksMap (Config.idle w₀ : Config World ι ServiceJob PyError Op Op.Result ServiceResult) :=
    ⟨hrows, fun i task htask => by cases htask⟩
  obtain ⟨hobeys, htracks⟩ := (tracksMap_kept env settings).reaches (obeys_program env settings)
    (System.obeys_idle w₀) hidle h
  obtain ⟨hobeys', htracks'⟩ := (tracksMap_kept env settings).reaches (obeys_program env settings)
    hobeys htracks h'
  have hkept : (service env settings mayLose).Kept MappingAgrees JobObeys
      fun c : Config World ι ServiceJob PyError Op Op.Result ServiceResult =>
        Stored c.state.db vendorId rawEventType classification canonicalState :=
    System.kept_state (J := fun w : World => Stored w.db vendorId rawEventType classification canonicalState)
      (fun _ _ _ _ _ hagrees hw => hw.handle hagrees) fun w w' houtside hw => houtside.1 ▸ hw
  have hstored' := (hkept.reaches (obeys_program env settings) hobeys hstored h').2
  refine ⟨hstored', fun i task event htask hfinal => ?_⟩
  obtain ⟨eventId, next, hprogram⟩ := hfinal.finalizes
  have hrules := hobeys' i task htask
  rw [hprogram] at hrules
  obtain ⟨answer, hasked⟩ := hfinal.asked
  -- the mapping that the event follows is the one row there is
  obtain ⟨cls, state, happlied, hresolved⟩ :=
    followsMapping_of_obeys hrules.1 hfinal.extracted vendorId rawEventType answer hasked
  have hheard := htracks'.heard i task htask
  have hrow : Stored c'.state.db vendorId rawEventType cls state := by
    rcases hresolved with hanswer | ⟨-, confidence, hwritten⟩
    · exact hheard.selected _ _ _ _ (hanswer ▸ hasked)
    · exact hheard.upserted _ _ _ _ _ hwritten
  obtain ⟨row, hlookup, rfl, rfl⟩ := hstored'
  obtain ⟨row', hlookup', rfl, rfl⟩ := hrow
  cases hlookup.symm.trans hlookup'
  exact ⟨happlied.1 (htracks'.classified _ row hlookup), happlied.2⟩

end Runs

/-! ### An event type that is new to a known shape -/

/-- Libraries that know more documents and digests. -/
def Externals.also (env : Externals) (documents : List (String × Json))
    (digests : List (String × HexDigest)) : Externals :=
  { env with
    loads := fun text => (documents.lookup text).or (env.loads text)
    loadsBytes := fun body => ((documents.find? (encode ·.1 = body)).map Prod.snd).or (env.loadsBytes body)
    dumps := fun doc => ((documents.find? (·.2 = doc)).map fun entry => encode entry.1).getD (env.dumps doc)
    sha256 := fun bytes => ((digests.find? (encode ·.1 = bytes)).map Prod.snd).getD (env.sha256 bytes) }

/-- A payload of the invoice's shape, of another type. -/
def dispatchedPayload (docRef : String) : JsonObject :=
  [("created_at", .str "2026-04-28T05:00:00Z"), ("doc_ref", .str docRef), ("kind", .str "dispatched"),
    ("total", .str "EUR 24.350,75"), ("when", .str "28/04/2026 12:00 WIB")]

def dispatchedText (docRef : String) : String :=
  "\x7b\"created_at\":\"2026-04-28T05:00:00Z\",\"doc_ref\":\"" ++ docRef ++
    "\",\"kind\":\"dispatched\",\"total\":\"EUR 24.350,75\",\"when\":\"28/04/2026 12:00 WIB\"\x7d"

/-- What the classifier may answer. -/
def mappingAnswer (classification canonicalState : String) : JsonObject :=
  [("classification", .str classification), ("canonical_state", .str canonicalState), ("confidence", .int 1)]

def mappingText (classification canonicalState : String) : String :=
  "\x7b\"classification\":\"" ++ classification ++ "\",\"canonical_state\":\"" ++ canonicalState ++
    "\",\"confidence\":1\x7d"

def mappingResult (classification canonicalState : String) : LLMResult :=
  ⟨mappingText classification canonicalState, 1 / 10000⟩

def dispatchRuntime : Externals := april28Runtime.also
  [(dispatchedText "INV-2", .obj (dispatchedPayload "INV-2")),
    (dispatchedText "INV-3", .obj (dispatchedPayload "INV-3")),
    (mappingText "invoice" "invoice.paid", .obj (mappingAnswer "invoice" "invoice.paid")),
    (mappingText "invoice" "invoice.voided", .obj (mappingAnswer "invoice" "invoice.voided")),
    (mappingText "invoice" "paid", .obj (mappingAnswer "invoice" "paid")),
    (mappingText "shipment" "shipment.in_transit", .obj (mappingAnswer "shipment" "shipment.in_transit"))]
  [(dispatchedText "INV-2" ++ "\x1fINV-2",
      ⟨"00f7d5f52316f0a5e83538c2918f013c60664eeed295df5dfab3a806eeed700a", by decide⟩),
    (dispatchedText "INV-3" ++ "\x1fINV-3",
      ⟨"75c90248e680309ed35c7f883a083b4067d5fa887d0b4f55591e58c1dd59785e", by decide⟩),
    ("classify_event_type_v1\x1fglobalfreightpay\x1fdispatched",
      ⟨"96bbce53938015d72167b9994563ffe535a6cac685853abc985b6fed9344b0e8", by decide⟩)]

def dispatchedRequest (docRef : String) : Request := ⟨encode (dispatchedText docRef), []⟩

def dispatchedId (docRef : String) : EventId :=
  computeEventId dispatchRuntime (.obj (dispatchedPayload docRef)) (some docRef)

/-- The shape is learned from the first invoice. -/
theorem dispatch_learned :
    run dispatchRuntime .defaults [.receive (some globalfreightpayPath)
      (issuedRequest "INV-1" "2026-04-28T05:00:00Z") none, issuedStep "2026-04-28T05:00:00Z"] =
    issuedWorld (some "globalfreightpay") false "2026-04-28T05:00:00Z" :=
  World.SameTables.eq (by decide +kernel)

/-- The shape is learned, and an invoice of the new type is delivered. -/
def dispatchedDelivered : List Action :=
  [.receive (some globalfreightpayPath) (issuedRequest "INV-1" "2026-04-28T05:00:00Z") none,
    issuedStep "2026-04-28T05:00:00Z", .receive (some globalfreightpayPath) (dispatchedRequest "INV-2") none]

theorem run_dispatchedDelivered : run dispatchRuntime .defaults dispatchedDelivered =
    serve dispatchRuntime .defaults (issuedWorld (some "globalfreightpay") false "2026-04-28T05:00:00Z")
      (.receive (some globalfreightpayPath) (dispatchedRequest "INV-2") none) := by
  have hlearned := dispatch_learned
  rw [run, List.foldl_cons, List.foldl_cons, List.foldl_nil] at hlearned
  rw [run, dispatchedDelivered, List.foldl_cons, List.foldl_cons, List.foldl_cons, List.foldl_nil, hlearned]

/-- The world in which the shape is known, facing two answers of the classifier. -/
def dispatchWorld : World :=
  (issuedWorld (some "globalfreightpay") false "2026-04-28T05:00:00Z").facing 1
    [.ok (mappingResult "invoice" "invoice.paid"), .ok (mappingResult "invoice" "invoice.voided")]

/-- An invoice of the new type is delivered, and a worker stores the mapping it is told. -/
def dispatchedMapped : List (System.Turn World Nat ServiceJob) :=
  [.start 0 (.receive (some globalfreightpayPath) (dispatchedRequest "INV-2")), .perform 0, .perform 0, .perform 0,
    .start 1 (.work (dispatchedId "INV-2"))] ++ List.replicate 8 (System.Turn.perform 1)

/-- The worker's event, about to be finalized, is applied as the mapping says. -/
theorem dispatched_applied_as_mapped :
    let c' := [System.Turn.perform 1, .perform 1].foldl (System.turn (service dispatchRuntime .defaults fun _ => True))
      (dispatchedMapped.foldl (System.turn (service dispatchRuntime .defaults fun _ => True))
        (Config.idle dispatchWorld))
    Stored c'.state.db "globalfreightpay" "dispatched" "invoice" "invoice.paid" ∧
      ∀ i task event, c'.tasks i = some task → FinalizesAs task "globalfreightpay" "dispatched" event →
        event.classification.value = "invoice" ∧
          ∀ (k : EntityType) (ev : CanonicalEntityEvent k), event = .entity k ev →
            eventTypeValue k ev.eventType = "invoice.paid" := by
  have hrows : Classified dispatchWorld.db := by
    intro key row hrow
    rw [show dispatchWorld.db.vendorEventTypeMap = (∅ : Table _ _).insert ("globalfreightpay", "issued")
      ⟨"invoice", "invoice.issued", some (85 / 100), false⟩ from rfl, lookup_insert_eq] at hrow
    split at hrow
    · cases hrow
      exact (by decide : "invoice" ≠ "")
    · simp at hrow
  exact mappings_permanent dispatchRuntime .defaults hrows (System.reaches_of_allowsTask (by decide +kernel))
    (System.reaches_of_allowsTask (by decide +kernel)) (by decide +kernel)

/-- Two invoices of the new type, delivered and taken up by two workers, neither of which finds a
mapping or a cached answer; then the first worker stores the mapping it is told. -/
def firstMapped : List (System.Turn World Nat ServiceJob) :=
  [.start 0 (.receive (some globalfreightpayPath) (dispatchedRequest "INV-2")), .perform 0, .perform 0, .perform 0,
    .start 1 (.receive (some globalfreightpayPath) (dispatchedRequest "INV-3")), .perform 1, .perform 1, .perform 1,
    .start 2 (.work (dispatchedId "INV-2")), .perform 2, .perform 2, .perform 2, .perform 2,
    .start 3 (.work (dispatchedId "INV-3")), .perform 3, .perform 3, .perform 3, .perform 3,
    .perform 2, .perform 2, .perform 2, .perform 2]

/-- **A mapping may change**: the second worker is told otherwise, and replaces the row. -/
theorem mapping_may_change :
    let c := firstMapped.foldl (System.turn (service dispatchRuntime .defaults fun _ => True))
      (Config.idle dispatchWorld)
    let c' := [System.Turn.perform 3, .perform 3, .perform 3, .perform 3].foldl
      (System.turn (service dispatchRuntime .defaults fun _ => True)) c
    (service dispatchRuntime .defaults fun _ => True).Reaches (fun _ _ => True) (Config.idle dispatchWorld) c ∧
      (service dispatchRuntime .defaults fun _ => True).Reaches (fun _ _ => True) c c' ∧
      Stored c.state.db "globalfreightpay" "dispatched" "invoice" "invoice.paid" ∧
      ¬ Stored c'.state.db "globalfreightpay" "dispatched" "invoice" "invoice.paid" := by
  refine ⟨System.reaches_schedule (System.along_turns (fun f hm => ?_) _),
    System.reaches_schedule (System.along_turns (fun f hm => ?_) _), by decide +kernel, by decide +kernel⟩
  · simp [firstMapped] at hm
  · simp at hm

end WebhookIngestion
