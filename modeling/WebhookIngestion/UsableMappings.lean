import WebhookIngestion.EventTypeMappings

/-! # Usable mappings

What the rows of the map have in common is what the rows that are offered to it have in
common (`MapHolds`).  A mapping is usable where its state is an event type of the kind it
names.  Discovery writes no others, since it has built its event first; the classifier's
answer is only parsed.  Where every answer that the classifier goes on with is usable, so
is every row (`mappings_usable`). -/
namespace WebhookIngestion
open Tables Text Programs Runs

/-! ### Rows of the map -/

section Rows
variable (R : String × String → EventTypeMapping → Prop)

/-- Every row of the map meets `R`. -/
def MapHolds (db : Database) : Prop :=
  ∀ key mapping, db.vendorEventTypeMap.lookup key = some mapping → R key mapping

/-- The rows that an operation may put into the map meet `R`. -/
def Op.Offers : Op → Prop
  | .insertEventType vendorId rawEventType classification canonicalState =>
    R (vendorId, rawEventType) ⟨classification, canonicalState, some (85 / 100), false⟩
  | o => ∀ upsert ∈ o.upserts, R upsert.1 upsert.2

variable {R}

/-- **What is offered to the map, the map holds.** -/
theorem mapHolds_handle {o : Op} (ho : o.Offers R) {w : World} (h : MapHolds R w.db) :
    MapHolds R (o.handle w).2.db := by
  intro key row hrow
  have hmaps := mapsBy_handle o w
  generalize (o.handle w).2.db.vendorEventTypeMap = rows at hmaps hrow
  cases hmaps with
  | kept hnone => exact h key row hrow
  | @upserted _ key' mapping hupserts =>
    rw [lookup_upsertEventType] at hrow
    split at hrow
    · next hkey =>
      cases hrow
      cases o with
      | upsertEventType => exact hkey.1 ▸ ho _ hupserts
      | _ => cases hupserts
    · exact h key row hrow
  | inserted vendorId rawEventType classification canonicalState =>
    rw [lookup_insertEventType] at hrow
    split at hrow
    · next hkey =>
      cases hrow
      exact hkey.1 ▸ ho
    · exact h key row hrow

/-- Operations that offer the map no row. -/
theorem keeps_offers {o : Op} (ho : o.Offers R) :
    Program.Keeps Op.handle (fun w => MapHolds R w.db) (.perform o) :=
  .perform fun _ h => mapHolds_handle ho h

section Discovery
variable {env : Externals} {eventId : EventId} {vendorId : String} {payload data : JsonObject}

/-- Discovery offers the mapping that the answer has. -/
theorem discoverAndPersist_holds (hlesson : ∀ rawEventType classification eventType,
      data.get "classification" = .str classification → data.get "event_type" = .str eventType →
        (classification = "shipment" ∨ classification = "invoice") →
          R (vendorId, rawEventType) ⟨classification, eventType, some (85 / 100), false⟩) :
    Program.Keeps Op.handle (fun w => MapHolds R w.db) (discoverAndPersist env vendorId payload data eventId) := by
  refine .bind (.ofExcept _) fun schemaDoc => ?_
  cases schemaDoc with
  | none => exact .ret _
  | some schemaDoc =>
    refine .bind (keeps_offers fun _ he => by cases he) fun schemaId => ?_
    cases schemaId with
    | none => exact .raise _
    | some schemaId =>
      refine .bind (.ofExcept _) fun rawEventType => .bind ?_ fun _ =>
        .bind (keeps_offers fun _ he => by cases he) fun _ => .ret _
      rw [persistLessonType]
      split
      · rename_i classification eventType hclass htype
        split
        · rename_i hentity
          exact keeps_offers (hlesson _ _ _ hclass htype hentity.2.2)
        · exact .ret _
      · exact .ret _

end Discovery

/-- The classifier is asked in a step for a raw event type: the stored schema reads it, and no
mapping is stored. -/
inductive AsksClassifier (env : Externals) (w : World) (eventId : EventId) : String → String → Prop
  | intro {row : RawEvent} {schemaMatch : SchemaMatch} {first : ExtractionResult}
      (hrow : w.db.rawEvents.lookup eventId = some row)
      (hlookup : lookupSchema w.db.vendorSchemas (resolveVendorId env.toUnicode row)
        (structuralFingerprint env (.obj row.payload) []) = some schemaMatch)
      (hfirst : extract env row.payload eventId (resolveVendorId env.toUnicode row) schemaMatch.schemaDoc
        none none = .ok first)
      (hnot : ∀ event, first.event = .ok event → schemaMatch.schemaDoc.get "classification" ≠ .str "unclassified")
      (hraw : first.rawEventType.getD "" ≠ "")
      (hmiss : w.db.vendorEventTypeMap.lookup
        (resolveVendorId env.toUnicode row, first.rawEventType.getD "") = none) :
      AsksClassifier env w eventId (resolveVendorId env.toUnicode row) (first.rawEventType.getD "")

/-- Before anything was learned the classifier is not asked. -/
theorem not_asks_of_no_schemas {env : Externals} {w : World} {eventId : EventId} {vendorId rawEventType : String}
    (h : w.db.vendorSchemas = ∅) : ¬ AsksClassifier env w eventId vendorId rawEventType := by
  intro hasks
  cases hasks with
  | intro hrow hlookup =>
    rw [h] at hlookup
    cases hlookup

variable (R) in
/-- Every answer for a raw event type that the classifier may go on with makes a row that meets `R`. -/
def Answers (env : Externals) (settings : Settings) (w : World) (vendorId rawEventType : String) : Prop :=
  ∀ data, Consulted env settings w vendorId rawEventType data →
    ∀ classification canonicalState confidence stored,
      eventTypeAnswer env data = .ok (some (.str classification, .str canonicalState, confidence)) →
        floatToNumeric 4 3 confidence = .ok stored →
          R (vendorId, rawEventType) ⟨classification, canonicalState, stored, false⟩

section PathA
variable {env : Externals} {settings : Settings} {w : World}

/-- The classifier's statement offers the answer it is given. -/
theorem classifyAndPersist_holds {vendorId rawEventType : String} (hw : MapHolds R w.db)
    (hanswers : Answers R env settings w vendorId rawEventType) :
    Program.Triple Op.handle (fun w' => w' = w) (classifyAndPersist env settings vendorId rawEventType)
      fun _ w' => MapHolds R w'.db := by
  have hkept : ∀ {w'}, Classifies env vendorId w w' → MapHolds R w'.db := by
    intro w' h
    rw [h.db]
    exact hw
  refine .bind (classifyEventType_spec env settings vendorId rawEventType w) (fun answer => ?_)
    fun e w' h => hkept h.1
  cases answer with
  | none => exact .ret fun w' h => hkept h.1
  | some answer =>
    obtain ⟨classification, canonicalState, confidence⟩ := answer
    refine .bind (R := fun _ w' => MapHolds R w'.db) (.perform fun w' h => mapHolds_handle ?_ (hkept h.1))
      (fun _ => ?_) fun e w' h => h
    · rintro ⟨key, mapping⟩ hupserts
      obtain ⟨data, hconsulted, hanswer⟩ := h.2 _ rfl
      simp only [Op.upserts, Option.mem_def] at hupserts
      split at hupserts
      · rename_i cls state stored hcls hstate hstored
        cases hupserts
        cases classification <;> cases hcls
        cases canonicalState <;> cases hstate
        exact hanswers data hconsulted _ _ _ _ hanswer hstored
      · cases hupserts
    · refine .bind (Program.Keeps.ofExcept _).triple (fun classification => ?_) fun e w' h => h
      exact .bind (Program.Keeps.ofExcept _).triple (fun canonicalState => .ret fun w' h => h) fun e w' h => h

theorem resolveEventType_holds {vendorId rawEventType : String} (hw : MapHolds R w.db)
    (hanswers : w.db.vendorEventTypeMap.lookup (vendorId, rawEventType) = none →
      Answers R env settings w vendorId rawEventType) :
    Program.Triple Op.handle (fun w' => w' = w) (resolveEventType env settings vendorId rawEventType)
      fun _ w' => MapHolds R w'.db := by
  rintro w' rfl
  rw [resolveEventType]
  cases hstored : w'.db.vendorEventTypeMap.lookup (vendorId, rawEventType) with
  | none =>
    rw [Program.run_perform_bind Op.handle (by rw [Op.handle, hstored, Option.map_none])]
    exact classifyAndPersist_holds hw (hanswers hstored) w' rfl
  | some mapping =>
    rw [Program.run_perform_bind Op.handle (by rw [Op.handle, hstored, Option.map_some])]
    exact hw

theorem extractionSucceeded_holds (eventId : EventId) (schemaId : SchemaId) (canonical : CanonicalEvent) :
    Program.Keeps Op.handle (fun w => MapHolds R w.db) (extractionSucceeded eventId schemaId canonical) :=
  .bind (keeps_offers fun _ he => by cases he) fun _ => .bind (keeps_offers fun _ he => by cases he) fun _ => .ret _

/-- **Path A offers the classifier's answer**, where it asks. -/
theorem processViaSchema_holds {row : RawEvent} {eventId : EventId} {schemaMatch : SchemaMatch}
    (hw : MapHolds R w.db) (hrow : w.db.rawEvents.lookup eventId = some row)
    (hlookup : lookupSchema w.db.vendorSchemas (resolveVendorId env.toUnicode row)
      (structuralFingerprint env (.obj row.payload) []) = some schemaMatch)
    (hclassifier : ∀ vendorId rawEventType, AsksClassifier env w eventId vendorId rawEventType →
      Answers R env settings w vendorId rawEventType) :
    Program.Triple Op.handle (fun w' => w' = w)
      (processViaSchema env settings eventId (resolveVendorId env.toUnicode row) row.payload schemaMatch)
      fun _ w' => MapHolds R w'.db := by
  refine .bind (R := fun first w' => w' = w ∧ extract env row.payload eventId
      (resolveVendorId env.toUnicode row) schemaMatch.schemaDoc none none = first)
    (.ofExcept fun w' h => ⟨h, rfl⟩) (fun first => ?_) fun e w' h => h.1 ▸ hw
  dsimp only
  split
  · exact (extractionSucceeded_holds ..).triple.weaken (fun w' h => h.1 ▸ hw) fun _ _ h => h
  · rename_i hnot
    split
    · exact .ret fun w' h => h.1 ▸ hw
    · rename_i hraw
      refine .bind (R := fun _ w' => MapHolds R w'.db) ?_ (fun mapping => ?_) fun e w' h => h
      · rintro w' ⟨rfl, hfirst⟩
        refine resolveEventType_holds hw (fun hmiss => ?_) w' rfl
        exact hclassifier _ _ (.intro hrow hlookup hfirst
          (fun event he hdoc => hnot event he (decide_eq_true hdoc)) hraw hmiss)
      · cases mapping with
        | none => exact .ret fun w' h => h
        | some mapping =>
          refine .bind (Program.Keeps.ofExcept _).triple (fun second => ?_) fun e w' h => h
          split
          · exact (extractionSucceeded_holds ..).triple
          · exact .ret fun w' h => h

end PathA

end Rows

/-! ### Usable rows -/

/-- A mapping names a kind of entity and an event type of that kind, with a confidence. -/
def EventTypeMapping.Usable (mapping : EventTypeMapping) : Prop :=
  ∃ k : EntityType, mapping.classification = k.classification.value ∧
    (EventTypeOf.ofValue? k mapping.canonicalState).isSome ∧
      ∃ confidence, mapping.confidence = some confidence ∧ 0 ≤ confidence ∧ confidence ≤ 1

def UsableMap (db : Database) : Prop :=
  ∀ key mapping, db.vendorEventTypeMap.lookup key = some mapping → mapping.Usable

theorem usableMap_empty : UsableMap Database.empty := by
  intro key mapping h
  simp [Database.empty] at h

/-- The rows that an operation may put into the map are usable. -/
def Op.OffersUsable : Op → Prop
  | .insertEventType _ _ classification canonicalState =>
    EventTypeMapping.Usable ⟨classification, canonicalState, some (85 / 100), false⟩
  | o => ∀ upsert ∈ o.upserts, upsert.2.Usable

/-- **Usable rows keep the map usable.** -/
theorem usableMap_handle {o : Op} (ho : o.OffersUsable) {w : World} (h : UsableMap w.db) :
    UsableMap (o.handle w).2.db := by
  have hoffers : o.Offers fun _ mapping => mapping.Usable := by cases o <;> exact ho
  exact mapHolds_handle hoffers h

/-! ### Discovery -/

section Discovery
variable {env : Externals} {eventId : EventId}

/-- **The mapping beside a lesson is usable**, since an event was built from the answer. -/
theorem usable_of_buildCanonical {data : JsonObject} {source : Source} {event : CanonicalEvent}
    (hbuild : buildCanonical env eventId data source = .ok event) {classification eventType : String}
    (hclass : data.get "classification" = .str classification)
    (htype : data.get "event_type" = .str eventType)
    (hentity : classification = "shipment" ∨ classification = "invoice") :
    EventTypeMapping.Usable ⟨classification, eventType, some (85 / 100), false⟩ := by
  cases event with
  | entity k ev =>
    obtain ⟨eventType', hanswer⟩ := answersFor_of_buildCanonical hbuild
    cases hclass.symm.trans hanswer.classification
    cases htype.symm.trans hanswer.eventType_eq
    exact ⟨k, rfl, by rw [hanswer.eventType_ofValue]; rfl, _, rfl, by decide +kernel, by decide +kernel⟩
  | unclassified ev =>
    -- an answer for an entity makes no event that is unclassified
    simp only [buildCanonical, bind_eq_ok] at hbuild
    obtain ⟨classification', hrequired, vendorId, -, confidence, -, hbuild⟩ := hbuild
    cases hclass.symm.trans (get_of_requireKey hrequired)
    split at hbuild
    · obtain ⟨ev', -, hbuild⟩ := bind_eq_ok.mp hbuild
      cases hbuild
    · rename_i hshipment
      split at hbuild
      · obtain ⟨ev', -, hbuild⟩ := bind_eq_ok.mp hbuild
        cases hbuild
      · rename_i hinvoice
        rcases hentity with rfl | rfl
        · exact absurd rfl hshipment
        · exact absurd rfl hinvoice

theorem discoverAndPersist_usable {vendorId : String} {payload data : JsonObject} {source : Source}
    {event : CanonicalEvent} (hbuild : buildCanonical env eventId data source = .ok event) :
    Program.Keeps Op.handle (fun w => UsableMap w.db) (discoverAndPersist env vendorId payload data eventId) :=
  discoverAndPersist_holds (R := fun _ mapping => mapping.Usable) fun _ _ _ => usable_of_buildCanonical hbuild

end Discovery

/-! ### The classifier -/

section Classifier
variable (env : Externals) (settings : Settings)

/-- Every answer for a raw event type that the classifier may go on with is usable. -/
def AnswersUsable (w : World) (vendorId rawEventType : String) : Prop :=
  ∀ data, Consulted env settings w vendorId rawEventType data →
    ∀ classification canonicalState confidence stored,
      eventTypeAnswer env data = .ok (some (.str classification, .str canonicalState, confidence)) →
        floatToNumeric 4 3 confidence = .ok stored →
          EventTypeMapping.Usable ⟨classification, canonicalState, stored, false⟩

/-- **The classifier's answers in a step are usable**, where it is asked. -/
def ClassifierUsable (w : World) (eventId : EventId) : Prop :=
  ∀ vendorId rawEventType, AsksClassifier env w eventId vendorId rawEventType →
    AnswersUsable env settings w vendorId rawEventType

end Classifier

/-! ### Runs -/

section Runs
variable {env : Externals} {settings : Settings} {w : World}

/-- Operations that offer the map no row. -/
theorem keeps_quiet {o : Op} (ho : o.OffersUsable) :
    Program.Keeps Op.handle (fun w => UsableMap w.db) (.perform o) :=
  .perform fun _ h => usableMap_handle ho h

theorem finalizeEvent_usable (eventId : EventId) (vendorId : String) (canonical : CanonicalEvent) :
    Program.Keeps Op.handle (fun w => UsableMap w.db) (finalizeEvent eventId vendorId canonical) := by
  rw [finalizeEvent]
  split
  · exact .bind (keeps_quiet fun _ he => by cases he) fun _ => .ret _
  · exact .bind (keeps_quiet fun _ he => by cases he) fun _ => .ret _
  · exact .raise _

theorem processViaLLM_usable (eventId : EventId) {vendorId : String} (hvendor : vendorId ≠ "")
    (payload : JsonObject) :
    Program.Triple Op.handle (fun w => UsableMap w.db) (processViaLLM env settings eventId vendorId payload)
      fun _ w' => UsableMap w'.db := by
  intro w hw
  suffices hrest : Program.Triple Op.handle (fun w' => w' = w)
      (processViaLLM env settings eventId vendorId payload) (fun _ w' => UsableMap w'.db) from hrest w rfl
  have hkept : ∀ {w'}, Asks w w' → UsableMap w'.db := by
    intro w' h
    rw [h.db]
    exact hw
  refine .bind (universalNormalize_spec env settings hvendor w) (fun result => ?_) fun e w' h => hkept h.1
  cases result with
  | ok canonical outcome =>
    rintro w' ⟨hasks, hsaid⟩
    obtain ⟨-, hbuild⟩ := hsaid canonical outcome rfl
    have hlearn : Program.Keeps Op.handle (fun w => UsableMap w.db)
        (discoverAndPersist env vendorId payload outcome.data eventId) := discoverAndPersist_usable hbuild
    have hall : Program.Keeps Op.handle (fun w => UsableMap w.db)
        (if outcome.data ≠ [] ∧ outcome.source ≠ .llmCache then do
            let _ ← (discoverAndPersist env vendorId payload outcome.data eventId).tryCatch fun _ => return none
            finalizeEvent eventId vendorId canonical
          else finalizeEvent eventId vendorId canonical) := by
      split
      · exact .bind (.tryCatch hlearn fun _ => .ret _) fun _ => finalizeEvent_usable ..
      · exact finalizeEvent_usable ..
    exact hall.run (hkept hasks)
  | deferred =>
    intro w' h
    exact usableMap_handle (o := .markPendingLlm eventId "llm_budget_exceeded") (fun _ he => by cases he) (hkept h.1)
  | unsupported reason =>
    intro w' h
    exact usableMap_handle (o := .markReview eventId reason) (fun _ he => by cases he) (hkept h.1)

/-- **A step whose classifier answers usably keeps the map usable.** -/
theorem processEvent_usable {eventId : EventId} (hw : UsableMap w.db)
    (hclassifier : ClassifierUsable env settings w eventId) :
    UsableMap (Job.run (processEvent env settings eventId) w).2.db := by
  rw [Job.run, processEvent]
  cases hrow : w.db.rawEvents.lookup eventId with
  | none =>
    rw [Program.run_perform_bind Op.handle (by rw [Op.handle, hrow])]
    exact hw
  | some row =>
    rw [Program.run_perform_bind Op.handle (by rw [Op.handle, hrow])]
    have hvendor := resolveVendorId_ne_empty env.toUnicode row
    simp only [processRow]
    cases hlookup : lookupSchema w.db.vendorSchemas (resolveVendorId env.toUnicode row)
        (structuralFingerprint env (.obj row.payload) []) with
    | none =>
      rw [Program.run_perform_bind Op.handle (by rw [Op.handle, hlookup])]
      exact processViaLLM_usable eventId hvendor row.payload w hw
    | some schemaMatch =>
      rw [Program.run_perform_bind Op.handle (by rw [Op.handle, hlookup])]
      have hschema : Program.Triple Op.handle (fun w' => w' = w)
          (processViaSchema env settings eventId (resolveVendorId env.toUnicode row) row.payload schemaMatch)
          fun _ w' => UsableMap w'.db :=
        processViaSchema_holds (R := fun _ mapping => mapping.Usable) hw hrow hlookup hclassifier
      refine Program.Triple.bind (Q := fun _ w' => UsableMap w'.db) hschema (fun canonical => ?_)
        (fun e w' h => h) w rfl
      cases canonical with
      | some canonical => exact (finalizeEvent_usable ..).triple
      | none =>
        have hfailure : (Op.incrementFailure schemaMatch.schemaId).OffersUsable := fun _ he => by cases he
        exact .bind (keeps_quiet hfailure).triple (fun _ => processViaLLM_usable eventId hvendor row.payload)
          fun e w' h => h

end Runs

section Service
variable (env : Externals) (settings : Settings)

/-- **Every row of the map is usable** in every run in which the classifier's answers are,
wherever it is asked. -/
theorem mappings_usable {actions : List Action}
    (h : Along (serve env settings) (fun w action => ∀ eventId day answers,
      action = .process eventId day answers → ClassifierUsable env settings (w.facing day answers) eventId)
      World.start actions) : UsableMap (run env settings actions).db := by
  refine h.invariant (I := fun w : World => UsableMap w.db) (fun w action hcond hw => ?_) usableMap_empty
  cases action with
  | receive vendorId request queueError =>
    rcases serve_receive env settings w vendorId request queueError with
      ⟨hdb, -⟩ | ⟨payload, signatureVerified, -, -, hdb, -⟩
    · rw [hdb]
      exact hw
    · rw [hdb]
      exact hw
  | process eventId day answers =>
    exact processEvent_usable (w := w.facing day answers) hw (hcond eventId day answers rfl)

end Service

/-- The worker asks the classifier for the new type. -/
def dispatchedStep (classification canonicalState : String) : Action :=
  .process (dispatchedId "INV-2") 1 [.ok (mappingResult classification canonicalState)]

/-- Before anything was learned the classifier is usable, since it is not asked. -/
theorem classifierUsable_of_no_schemas {env : Externals} {settings : Settings} {w : World} {eventId : EventId}
    (h : w.db.vendorSchemas = ∅) : ClassifierUsable env settings w eventId :=
  fun _ _ hasks => absurd hasks (not_asks_of_no_schemas h)

/-- Where the classifier answers with an event type of invoices, the map is usable. -/
theorem dispatched_mapping_usable :
    UsableMap (run dispatchRuntime .defaults
      (dispatchedDelivered ++ [dispatchedStep "invoice" "invoice.paid"])).db := by
  have hdelivered := run_dispatchedDelivered
  rw [run, dispatchedDelivered, List.foldl_cons, List.foldl_cons, List.foldl_cons, List.foldl_nil] at hdelivered
  refine mappings_usable _ _ ⟨fun _ _ _ he => (by cases he), ?_, fun _ _ _ he => (by cases he), ?_, trivial⟩
  · intro eventId day answers _
    have hnone : (serve dispatchRuntime .defaults World.start (.receive (some globalfreightpayPath)
        (issuedRequest "INV-1" "2026-04-28T05:00:00Z") none)).db.vendorSchemas = ∅ := by
      rcases serve_receive dispatchRuntime .defaults World.start (some globalfreightpayPath)
          (issuedRequest "INV-1" "2026-04-28T05:00:00Z") none with ⟨hdb, -⟩ | ⟨_, _, -, -, hdb, -⟩
      · rw [hdb]
        rfl
      · rw [hdb]
        rfl
    generalize serve dispatchRuntime .defaults World.start (.receive (some globalfreightpayPath)
      (issuedRequest "INV-1" "2026-04-28T05:00:00Z") none) = w at hnone ⊢
    exact classifierUsable_of_no_schemas (w := w.facing day answers) hnone
  · rintro eventId day answers ⟨⟩
    rw [hdelivered]
    generalize hw : serve dispatchRuntime .defaults (issuedWorld (some "globalfreightpay") false
      "2026-04-28T05:00:00Z") (.receive (some globalfreightpayPath) (dispatchedRequest "INV-2") none) = w
    have hraw' : (w.db.rawEvents.lookup (dispatchedId "INV-2")).map (fun row => (row.vendorId, row.payload)) =
        some (some "globalfreightpay", dispatchedPayload "INV-2") := by
      rw [← hw]
      decide +kernel
    have hknown : lookupSchema w.db.vendorSchemas "globalfreightpay"
        (structuralFingerprint dispatchRuntime (.obj (dispatchedPayload "INV-2")) []) = some ⟨1, issuedSchema⟩ := by
      rw [← hw]
      decide +kernel
    have hread : extract dispatchRuntime (dispatchedPayload "INV-2") (dispatchedId "INV-2") "globalfreightpay"
        issuedSchema none none = .ok ⟨some "dispatched", .error .canonicalStateNotResolved⟩ := by decide +kernel
    have hfresh : w.db.llmCache.lookup (eventTypeCacheKey dispatchRuntime "globalfreightpay" "dispatched") = none := by
      rw [← hw]
      decide +kernel
    have hparse : parseJson dispatchRuntime (mappingText "invoice" "invoice.paid") =
        some (mappingAnswer "invoice" "invoice.paid") := by decide +kernel
    intro vendorId rawEventType hasks
    cases hasks with
    | @intro row schemaMatch first hrow hlookup hfirst hnot hraw hmiss =>
      have hrow' : w.db.rawEvents.lookup (dispatchedId "INV-2") = some row := hrow
      rw [hrow', Option.map_some] at hraw'
      obtain ⟨hvendor, hpayload⟩ := Prod.mk.inj (Option.some.inj hraw')
      have hresolve : resolveVendorId dispatchRuntime.toUnicode row = "globalfreightpay" := by
        rw [resolveVendorId, hvendor]
        rfl
      rw [hresolve, hpayload] at hlookup hfirst
      obtain rfl := Option.some.inj (hknown.symm.trans hlookup)
      obtain rfl := Except.ok.inj (hread.symm.trans hfirst)
      rw [hresolve]
      intro data hconsulted classification canonicalState confidence stored hanswer hstored
      cases hconsulted with
      | cached hentry => cases hfresh.symm.trans hentry
      | answered hmiss' hallowed hresult hdata hcost =>
        obtain ⟨hfirst, -⟩ := List.cons.inj hresult
        cases hfirst
        cases hparse.symm.trans hdata
        have hsaid : eventTypeAnswer dispatchRuntime (mappingAnswer "invoice" "invoice.paid") =
            .ok (some (.str "invoice", .str "invoice.paid", .finite false 1 0)) := by decide +kernel
        have hnumeric : floatToNumeric 4 3 (.finite false 1 0) = .ok (some 1) := by decide +kernel
        cases hsaid.symm.trans hanswer
        cases hnumeric.symm.trans hstored
        exact ⟨.invoice, rfl, by decide, 1, rfl, by decide +kernel, by decide +kernel⟩

/-- **The classifier may answer with a state of its own**: the row it leaves is no event type. -/
theorem mapping_may_be_unusable :
    ¬ UsableMap (run dispatchRuntime .defaults (dispatchedDelivered ++ [dispatchedStep "invoice" "paid"])).db := by
  intro h
  have hrow : (run dispatchRuntime .defaults
      (dispatchedDelivered ++ [dispatchedStep "invoice" "paid"])).db.vendorEventTypeMap.lookup
        ("globalfreightpay", "dispatched") = some ⟨"invoice", "paid", some 1, false⟩ := by
    have hdelivered := run_dispatchedDelivered
    rw [run] at hdelivered
    rw [run, List.foldl_append, hdelivered]
    decide +kernel
  obtain ⟨k, hclass, htype, -⟩ := h _ _ hrow
  cases k with
  | shipment => exact absurd hclass (by decide)
  | invoice => exact absurd htype (by decide)

end WebhookIngestion
