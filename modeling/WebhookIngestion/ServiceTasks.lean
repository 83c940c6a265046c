import WebhookIngestion.Library.Concurrent
import WebhookIngestion.ServiceRuns

/-! # The service at work

Deliveries, worker jobs, replays and truncations as tasks that run at the same time, a
statement or a transaction at a time.  Which operations each part of a job may perform is
said here once, whatever the operations answer. -/
namespace WebhookIngestion
open Tables Programs

/-- What runs beside other tasks.  A replay is an inline one; one that puts its events into the
queue (`replayEnqueue`) only has `work` done. -/
inductive ServiceJob where
  /-- A POST. -/
  | receive (vendorId : Option VendorPath) (request : Request)
  /-- A job of the queue. -/
  | work (eventId : EventId)
  /-- One event of an inline replay. -/
  | replay (eventId : EventId)
  | truncate

inductive ServiceResult where
  | ingested (answer : Ingested)
  | processed (outcome : ProcessOutcome)
  | truncated
  deriving DecidableEq

/-! ### Kinds of operations -/

/-- Marks on the trace, which no failure touches. -/
def Op.IsNote : Op → Prop
  | .note _ => True
  | _ => False

/-- What asking the LLM performs. -/
def Op.Asking : Op → Prop
  | .selectCache _ | .insertCache .. | .sumAudit _ | .insertAudit .. | .complete _ => True
  | _ => False

/-- What learning a schema performs; the mapping beside it is an entity's. -/
def Op.Learning : Op → Prop
  | .upsertSchema .. | .note (.learned ..) => True
  | .insertEventType _ _ classification _ => classification = "shipment" ∨ classification = "invoice"
  | _ => False

/-- What setting an event aside performs. -/
def Op.Filing : Op → Prop
  | .markReview .. | .markPendingLlm .. => True
  | _ => False

/-- What writes the raw events, or what is derived from them. -/
def Op.Derives : Op → Prop
  | .insertRawEvent .. | .finalize .. | .markReview .. | .markPendingLlm .. | .markFailed .. | .truncate => True
  | _ => False

/-- The other operations leave the raw events and what is derived from them. -/
theorem derived_handle {o : Op} (h : ¬ o.Derives) (w : World) :
    (o.handle w).2.db.rawEvents = w.db.rawEvents ∧ (o.handle w).2.db.store = w.db.store ∧
      (o.handle w).2.db.canonicalEvents = w.db.canonicalEvents ∧
        (o.handle w).2.db.requiresHumanReview = w.db.requiresHumanReview := by
  cases o with
  | insertRawEvent | finalize | markReview | markPendingLlm | markFailed | truncate => exact absurd trivial h
  | enqueue eventId =>
    rw [Op.handle]
    split <;> exact ⟨rfl, rfl, rfl, rfl⟩
  | upsertSchema vendorId fingerprint schemaDoc eventId =>
    simp only [Op.handle, Database.upsertSchema]
    split <;> exact ⟨rfl, rfl, rfl, rfl⟩
  | upsertEventType vendorId rawEventType classification canonicalState confidence =>
    simp only [Op.handle, Database.upsertEventType]
    split
    · split
      · split <;> exact ⟨rfl, rfl, rfl, rfl⟩
      · exact ⟨rfl, rfl, rfl, rfl⟩
    · exact ⟨rfl, rfl, rfl, rfl⟩
  | insertEventType vendorId rawEventType classification canonicalState =>
    simp only [Op.handle, Database.insertEventType]
    split <;> exact ⟨rfl, rfl, rfl, rfl⟩
  | insertCache cacheKey entry =>
    simp only [Op.handle, Database.insertCache]
    split
    · split <;> exact ⟨rfl, rfl, rfl, rfl⟩
    · exact ⟨rfl, rfl, rfl, rfl⟩
  | insertAudit eventId source costEstimate decision =>
    simp only [Op.handle]
    split <;> exact ⟨rfl, rfl, rfl, rfl⟩
  | complete vendorId =>
    simp only [Op.handle]
    split <;> exact ⟨rfl, rfl, rfl, rfl⟩
  | _ => exact ⟨rfl, rfl, rfl, rfl⟩

section Jobs
variable (env : Externals) (settings : Settings)

/-- The program of a job. -/
def ServiceJob.program : ServiceJob → Job ServiceResult
  | .receive vendorId request => .ingested <$> WebhookIngestion.receive env settings vendorId request
  | .work eventId => .processed <$> processWebhook env settings eventId
  | .replay eventId => .processed <$> processEvent env settings eventId
  | .truncate => (fun _ => .truncated) <$> .perform Op.truncate

/-- **The service**, where any operation may fail, and `mayLose` has those whose answer may be
lost; the provider's answers, the day and the state of the queue are nobody's. -/
def service (mayLose : Op → Prop) : System World ServiceJob PyError Op Op.Result ServiceResult where
  handle := Op.handle
  program := ServiceJob.program env settings
  mayFail o := ¬ o.IsNote
  mayLose o := ¬ o.IsNote ∧ mayLose o
  outside w w' := w'.db = w.db ∧ w'.trace = w.trace

/-! ### What the parts of a job perform -/

theorem every_allow (vendorId : String) (estimatedCost : Rat) :
    (allow settings vendorId estimatedCost).Every Op.Asking := by
  refine .bind (.perform trivial) fun sums => ?_
  dsimp only
  split
  · exact .ret _
  · split <;> exact .ret _

theorem every_attemptExtract (vendorHint : String) :
    (attemptExtract env vendorHint).Every Op.Asking :=
  .bind (.perform trivial) fun _ => .bind (.ofExcept _) fun _ => .ret _

theorem every_completeExtract (vendorHint : String) :
    (completeExtract env vendorHint).Every Op.Asking := by
  refine .tryCatch (every_attemptExtract env vendorHint) fun firstErr => ?_
  split
  · refine .tryCatch (every_attemptExtract env vendorHint) fun secondErr => ?_
    split <;> exact .raise _
  · exact .raise _

theorem every_classifyExtract (eventId : EventId) (vendorHint : String) (payload : JsonObject) :
    (classifyExtract env settings eventId vendorHint payload).Every Op.Asking := by
  refine .bind (.perform trivial) fun cached => ?_
  cases cached with
  | some cached => exact .bind (.perform trivial) fun _ => .ret _
  | none =>
    refine .bind (every_allow settings vendorHint _) fun allowed => ?_
    split
    · refine .bind (every_completeExtract env vendorHint) fun answer => ?_
      exact .bind (.perform trivial) fun _ => .bind (.perform trivial) fun _ => .ret _
    · exact .raise _

theorem every_classifyEventType (vendorId rawEventType : String) :
    (classifyEventType env settings vendorId rawEventType).Every Op.Asking := by
  refine .bind (.perform trivial) fun cached => ?_
  cases cached with
  | some cached => exact .ofExcept _
  | none =>
    refine .bind (every_allow settings vendorId _) fun allowed => ?_
    split
    · refine .bind (.tryCatch (.map (.perform trivial)) fun _ => .ret _) fun answer => ?_
      cases answer with
      | none => exact .ret _
      | some result =>
        dsimp only
        split
        · exact .ret _
        · exact .bind (.perform trivial) fun _ => .ofExcept _
    · exact .ret _

theorem every_universalNormalize (eventId : EventId) (vendorHint : String) (payload : JsonObject) :
    (universalNormalize env settings eventId vendorHint payload).Every Op.Asking := by
  refine .bind (.tryCatch (.map (every_classifyExtract env settings eventId _ payload)) fun e => ?_)
    fun answer => ?_
  · cases e with
    | budgetExceeded | llmValidationError => exact .ret _
    | _ => exact .raise _
  · cases answer with
    | error result => exact .ret _
    | ok outcome =>
      dsimp only
      split
      · exact .ret _
      · split
        · exact .ret _
        · exact .raise _

theorem every_persistLessonType (vendorId : String) (llmOutput : JsonObject) (rawEventType : Json) :
    (persistLessonType env vendorId llmOutput rawEventType).Every Op.Learning := by
  rw [persistLessonType]
  split
  · split
    · rename_i hentity
      exact .perform hentity.2.2
    · exact .ret _
  · exact .ret _

theorem every_discoverAndPersist (vendorId : String) (payload llmOutput : JsonObject) (eventId : EventId) :
    (discoverAndPersist env vendorId payload llmOutput eventId).Every Op.Learning := by
  refine .bind (.ofExcept _) fun schemaDoc => ?_
  cases schemaDoc with
  | none => exact .ret _
  | some schemaDoc =>
    refine .bind (.perform trivial) fun schemaId => ?_
    cases schemaId with
    | none => exact .raise _
    | some schemaId =>
      refine .bind (.ofExcept _) fun rawEventType => ?_
      exact .bind (every_persistLessonType env vendorId llmOutput rawEventType) fun _ =>
        .bind (.perform trivial) fun _ => .ret _

/-! ### What a worker's job obeys -/

/-- An event with the classification and the state of a mapping; of no classification an
event has its schema's. -/
def AppliedAs (event : CanonicalEvent) (classification canonicalState : String) : Prop :=
  (classification ≠ "" → event.classification.value = classification) ∧
    ∀ (k : EntityType) (ev : CanonicalEntityEvent k), event = .entity k ev →
      eventTypeValue k ev.eventType = canonicalState

/-- What a job has performed. -/
abbrev Past := History PyError Op Op.Result

/-- The mapping that a job goes on with: the one it was answered, or the one it has written
itself because it was answered that there is none. -/
def Resolved (past : Past) (vendorId rawEventType : String)
    (answer : Except PyError (Option (String × String))) (classification canonicalState : String) : Prop :=
  answer = .ok (some (classification, canonicalState)) ∨
    answer = .ok none ∧ ∃ confidence, ⟨.upsertEventType vendorId rawEventType (.str classification)
      (.str canonicalState) confidence, .ok ()⟩ ∈ past

/-- A job whose event Path A has extracted applies it as the mapping says that it has asked for. -/
def FollowsMapping (past : Past) (event : CanonicalEvent) : Prop :=
  (∃ eventId schemaId answer, ⟨.note (.extracted eventId schemaId), answer⟩ ∈ past) →
    ∀ vendorId rawEventType answer, ⟨.selectEventType vendorId rawEventType, answer⟩ ∈ past →
      ∃ classification canonicalState, AppliedAs event classification canonicalState ∧
        Resolved past vendorId rawEventType answer classification canonicalState

/-- **What a worker's job obeys**: it finalizes its event under its id and as the mapping
says, adds a mapping beside a schema for an entity only, and leaves deliveries and
truncations to others. -/
def WorkerObeys (past : Past) : Op → Prop
  | .insertRawEvent .. | .enqueue _ | .truncate => False
  | .finalize eventId event => event.base.eventId = eventId ∧ FollowsMapping past event
  | .insertEventType _ _ classification _ => classification = "shipment" ∨ classification = "invoice"
  | _ => True

/-- Path A has extracted nothing so far. -/
def Unextracted (past : Past) : Prop :=
  ∀ done ∈ past, ∀ eventId schemaId, done.op ≠ .note (.extracted eventId schemaId)

/-- Operations that a job may always perform, and that extract nothing. -/
def Op.Quiet (o : Op) : Prop :=
  (∀ past, WorkerObeys past o) ∧ ∀ eventId schemaId, o ≠ .note (.extracted eventId schemaId)

theorem Op.Asking.quiet {o : Op} (h : o.Asking) : o.Quiet := by
  cases o <;> first | exact h.elim | exact ⟨fun _ => trivial, fun _ _ he => by cases he⟩

theorem Op.Learning.quiet {o : Op} (h : o.Learning) : o.Quiet := by
  cases o with
  | upsertSchema => exact ⟨fun _ => trivial, fun _ _ he => by cases he⟩
  | insertEventType => exact ⟨fun _ => h, fun _ _ he => by cases he⟩
  | note mark =>
    cases mark with
    | learned => exact ⟨fun _ => trivial, fun _ _ he => by cases he⟩
    | _ => exact h.elim
  | _ => exact h.elim

theorem Op.Filing.quiet {o : Op} (h : o.Filing) : o.Quiet := by
  cases o <;> first | exact h.elim | exact ⟨fun _ => trivial, fun _ _ he => by cases he⟩

theorem Unextracted.cons {past : Past} (h : Unextracted past) {o : Op} (ho : o.Quiet)
    (answer : Except PyError o.Result) : Unextracted (⟨o, answer⟩ :: past) := by
  intro done hm eventId schemaId
  rcases List.mem_cons.mp hm with rfl | hm
  · exact ho.2 eventId schemaId
  · exact h done hm eventId schemaId

/-- Quiet programs extract nothing. -/
theorem obeys_of_quiet {α : Type} {p : Job α} (hp : p.Every Op.Quiet) {past : Past} (h : Unextracted past) :
    p.Obeys WorkerObeys (fun past _ => Unextracted past) past := by
  refine (hp.obeys past).weaken (fun past' o ho => ho.1.1 past') ?_
  rintro past' - ⟨new, rfl, hnew⟩ done hm eventId schemaId
  rcases List.mem_append.mp hm with hm | hm
  · exact (hnew done hm).2 eventId schemaId
  · exact h done hm eventId schemaId

/-- Where Path A has extracted nothing, there is no mapping to follow. -/
theorem Unextracted.followsMapping {past : Past} (h : Unextracted past) (event : CanonicalEvent) :
    FollowsMapping past event :=
  fun ⟨eventId, schemaId, _, hm⟩ => absurd rfl (h _ hm eventId schemaId)

/-- **A second pass extracts the event as it is told to.** -/
theorem appliedAs_of_extract {payload : JsonObject} {eventId vendorId : String} {schemaDoc : JsonObject}
    {canonicalState classification : String} {rawEventType : Option String} {event : CanonicalEvent}
    (h : extract env payload eventId vendorId schemaDoc (some canonicalState) (some classification) =
      .ok ⟨rawEventType, .ok event⟩) : AppliedAs event classification canonicalState := by
  constructor
  · intro hne
    have hclass := (base_of_extract h).2.2
    have htruthy : (Json.ofText (some classification)).truthy = true := by
      simpa [Json.ofText, Json.truthy] using hne
    rw [schemaClassification, if_pos htruthy] at hclass
    exact (Json.str.inj hclass).symm
  · rintro k ev rfl
    cases extractedAs_of_extract h with
    | entity hclass hfields hread hbase => exact eventTypeValue_of_ofValue? hread.eventType

theorem AppliedAs.overrideVendor {event : CanonicalEvent} {classification canonicalState : String}
    (h : AppliedAs event classification canonicalState) (vendorId : String) :
    AppliedAs (overrideVendor vendorId event) classification canonicalState := by
  rw [WebhookIngestion.overrideVendor]
  split
  · cases event with
    | unclassified ev => exact ⟨h.1, fun k ev' he => by cases he⟩
    | entity k ev =>
      refine ⟨h.1, ?_⟩
      rintro k' ev' ⟨⟩
      exact h.2 k ev rfl
  · exact h

theorem AppliedAs.normalize {event normalized : CanonicalEvent} {classification canonicalState : String}
    (h : AppliedAs event classification canonicalState)
    (hnormalize : WebhookIngestion.normalize event = .ok normalized) :
    AppliedAs normalized classification canonicalState := by
  cases event with
  | unclassified ev =>
    obtain ⟨ev', rfl, -⟩ := normalize_unclassified hnormalize
    exact ⟨h.1, fun k ev' he => by cases he⟩
  | entity k ev =>
    obtain ⟨ev', rfl, hev⟩ := normalized_of_normalize hnormalize
    refine ⟨h.1, ?_⟩
    rintro k' ev'' ⟨⟩
    rw [hev.eventType]
    exact h.2 k ev rfl

theorem FollowsMapping.mono {past : Past} {event event' : CanonicalEvent} (h : FollowsMapping past event)
    (himp : ∀ {classification canonicalState}, AppliedAs event classification canonicalState →
      AppliedAs event' classification canonicalState) : FollowsMapping past event' := by
  intro hextracted vendorId rawEventType answer hasked
  obtain ⟨classification, canonicalState, happlied, hresolved⟩ := h hextracted vendorId rawEventType answer hasked
  exact ⟨classification, canonicalState, himp happlied, hresolved⟩

/-- **Finalizing keeps what a job obeys.** -/
theorem obeys_finalizeEvent {past : Past} {eventId vendorId : String} {event : CanonicalEvent}
    (hid : event.base.eventId = eventId) (hfollows : FollowsMapping past event) :
    (finalizeEvent eventId vendorId event).Obeys WorkerObeys (fun _ _ => True) past := by
  rw [finalizeEvent]
  cases hnormalize : normalize (overrideVendor vendorId event) with
  | ok normalized =>
    have hbase : normalized.base.eventId = eventId := by
      rw [base_of_normalize hnormalize, ← hid, ← eventId_overrideVendor vendorId event]
      rfl
    refine .bind (R := fun _ _ => True) (.perform ⟨hbase, ?_⟩ fun _ => trivial) (fun _ _ _ => trivial)
      fun _ _ _ => trivial
    exact hfollows.mono fun happlied => (happlied.overrideVendor vendorId).normalize hnormalize
  | error e =>
    cases e with
    | normalizationError =>
      exact .bind (R := fun _ _ => True) (.perform trivial fun _ => trivial) (fun _ _ _ => trivial)
        fun _ _ _ => trivial
    | _ => trivial

/-- The universal adapter extracts nothing, and its events go by the id they are built for. -/
theorem obeys_universalNormalize {past : Past} (h : Unextracted past) (eventId : EventId)
    (vendorHint : String) (payload : JsonObject) :
    (universalNormalize env settings eventId vendorHint payload).Obeys WorkerObeys (fun past r =>
      Unextracted past ∧ ∀ event outcome, r = .ok (.ok event outcome) → event.base.eventId = eventId) past := by
  refine .bind (R := fun past r => Unextracted past ∧ ∀ event outcome, r ≠ .ok (.error (.ok event outcome)))
    (.tryCatch (.map (obeys_of_quiet ((every_classifyExtract env settings eventId _ payload).mono
      fun _ => Op.Asking.quiet) h) (P := fun past r => Unextracted past ∧
        ∀ event outcome, r ≠ .ok (.error (.ok event outcome)))
      (fun past outcome h => ⟨h, fun _ _ he => by cases he⟩) fun past e h => ⟨h, fun _ _ he => by cases he⟩)
      (fun past answer h => h) fun past e h => ?_) (fun past answer h => ?_)
    fun past e h => ⟨h.1, fun _ _ he => by cases he⟩
  · cases e with
    | budgetExceeded | llmValidationError => exact ⟨h.1, fun _ _ he => by cases he⟩
    | _ => exact ⟨h.1, fun _ _ he => by cases he⟩
  · cases answer with
    | error result =>
      refine ⟨h.1, ?_⟩
      rintro event outcome ⟨⟩
      exact absurd rfl (h.2 event outcome)
    | ok outcome =>
      dsimp only
      split
      · rename_i event hbuild
        refine ⟨h.1, ?_⟩
        rintro event' outcome' ⟨⟩
        exact (base_of_buildCanonical hbuild).1
      · split
        · exact ⟨h.1, fun _ _ he => by cases he⟩
        · exact ⟨h.1, fun _ _ he => by cases he⟩

/-- Path B finalizes an event of its id that nobody has extracted. -/
theorem obeys_processViaLLM {past : Past} (h : Unextracted past) (eventId : EventId) (vendorId : String)
    (payload : JsonObject) :
    (processViaLLM env settings eventId vendorId payload).Obeys WorkerObeys (fun _ _ => True) past := by
  refine .bind (obeys_universalNormalize env settings h eventId vendorId payload) (fun past result h => ?_)
    fun _ _ _ => trivial
  cases result with
  | ok event outcome =>
    have hid := h.2 event outcome rfl
    dsimp only
    split
    · refine .bind (R := fun past _ => Unextracted past) (.tryCatch (obeys_of_quiet
        ((every_discoverAndPersist env vendorId payload outcome.data eventId).mono
          fun _ => Op.Learning.quiet) h.1) (fun _ _ h => h) fun _ _ h => h) (fun past _ h => ?_)
        fun _ _ _ => trivial
      exact obeys_finalizeEvent hid (h.followsMapping event)
    · exact obeys_finalizeEvent hid (h.1.followsMapping event)
  | deferred =>
    exact .bind (R := fun _ _ => True) (.perform trivial fun _ => trivial) (fun _ _ _ => trivial)
      fun _ _ _ => trivial
  | unsupported reason =>
    exact .bind (R := fun _ _ => True) (.perform trivial fun _ => trivial) (fun _ _ _ => trivial)
      fun _ _ _ => trivial

/-- No mapping was asked for so far. -/
def Unasked (past : Past) : Prop :=
  ∀ done ∈ past, ∀ vendorId rawEventType, done.op ≠ .selectEventType vendorId rawEventType

/-- The one mapping that was asked for is resolved. -/
def AskedOnce (past : Past) (classification canonicalState : String) : Prop :=
  ∀ vendorId rawEventType answer, ⟨.selectEventType vendorId rawEventType, answer⟩ ∈ past →
    Resolved past vendorId rawEventType answer classification canonicalState

theorem Unextracted.append {past new : Past} (h : Unextracted past)
    (hnew : ∀ done ∈ new, done.op.Quiet) : Unextracted (new ++ past) := by
  intro done hm eventId schemaId
  rcases List.mem_append.mp hm with hm | hm
  · exact (hnew done hm).2 eventId schemaId
  · exact h done hm eventId schemaId

/-- What was asked is what was asked before something else was performed. -/
theorem asked_of_append {new past : Past} (hnew : ∀ done ∈ new, ∀ vendorId rawEventType,
      done.op ≠ .selectEventType vendorId rawEventType) {vendorId rawEventType : String}
    {answer : Except PyError (Option (String × String))}
    (h : ⟨.selectEventType vendorId rawEventType, answer⟩ ∈ new ++ past) :
    ⟨.selectEventType vendorId rawEventType, answer⟩ ∈ past := by
  rcases List.mem_append.mp h with hm | hm
  · exact absurd rfl (hnew _ hm vendorId rawEventType)
  · exact hm

theorem asked_of_cons {past : Past} (hunasked : Unasked past) {vendorId rawEventType : String}
    {answer : Except PyError (Option (String × String))} {vendorId' rawEventType' : String}
    {answer' : Except PyError (Option (String × String))}
    (h : ⟨.selectEventType vendorId' rawEventType', answer'⟩ ∈
      (⟨.selectEventType vendorId rawEventType, answer⟩ :: past : Past)) :
    vendorId' = vendorId ∧ rawEventType' = rawEventType ∧ answer' = answer := by
  rcases List.mem_cons.mp h with he | hm
  · cases he
    exact ⟨rfl, rfl, rfl⟩
  · exact absurd rfl (hunasked _ hm vendorId' rawEventType')

/-- **A resolved mapping is the stored one, or the one the job has stored.** -/
theorem obeys_resolveEventType {past : Past} (h : Unextracted past) (hunasked : Unasked past)
    (vendorId rawEventType : String) :
    (resolveEventType env settings vendorId rawEventType).Obeys WorkerObeys (fun past r =>
      Unextracted past ∧ ∀ classification canonicalState, r = .ok (some (classification, canonicalState)) →
        AskedOnce past classification canonicalState) past := by
  have hselect : (Op.selectEventType vendorId rawEventType).Quiet :=
    ⟨fun _ => trivial, fun _ _ he => by cases he⟩
  rw [resolveEventType]
  refine .bind (R := fun past' r => past' = ⟨.selectEventType vendorId rawEventType, r⟩ :: past)
    (.perform trivial fun r => rfl) ?_ ?_
  · rintro _ stored rfl
    have hunextracted := h.cons hselect (.ok stored)
    cases stored with
    | some mapping =>
      refine ⟨hunextracted, ?_⟩
      rintro classification canonicalState ⟨⟩ vendorId' rawEventType' answer hasked
      obtain ⟨rfl, rfl, rfl⟩ := asked_of_cons hunasked hasked
      exact .inl rfl
    | none =>
      refine .bind (R := fun past' _ => ∃ new : Past, past' = new ++
          (⟨.selectEventType vendorId rawEventType, .ok none⟩ :: past) ∧ ∀ done ∈ new, done.op.Asking)
        (((every_classifyEventType env settings vendorId rawEventType).obeys _).weaken
          (fun past' o ho => ho.1.quiet.1 past') fun _ _ h => h) ?_ ?_
      · rintro _ answer ⟨new, rfl, hnew⟩
        have hquiet := hunextracted.append fun done hm => (hnew done hm).quiet
        cases answer with
        | none => exact ⟨hquiet, fun _ _ he => by cases he⟩
        | some answer =>
          obtain ⟨classification, canonicalState, confidence⟩ := answer
          have hupsert : (Op.upsertEventType vendorId rawEventType classification canonicalState
            confidence).Quiet := ⟨fun _ => trivial, fun _ _ he => by cases he⟩
          refine .bind (R := fun past' r => past' = ⟨.upsertEventType vendorId rawEventType classification
              canonicalState confidence, r⟩ :: (new ++
                (⟨.selectEventType vendorId rawEventType, .ok none⟩ :: past)))
            (.perform trivial fun r => rfl) ?_ ?_
          · rintro _ ⟨⟩ rfl
            have hafter := hquiet.cons hupsert (.ok ())
            cases classification with
            | str cls =>
              cases canonicalState with
              | str state =>
                refine ⟨hafter, ?_⟩
                rintro cls' state' ⟨⟩ vendorId' rawEventType' answer hasked
                -- the one question was asked before the classifier was
                rcases List.mem_cons.mp hasked with he | hasked
                · cases he
                · have hbefore := asked_of_append (fun done hm vendorId rawEventType he => by
                    have hasking := hnew done hm
                    rw [he] at hasking
                    exact hasking) hasked
                  obtain ⟨rfl, rfl, rfl⟩ := asked_of_cons hunasked hbefore
                  exact .inr ⟨rfl, confidence, List.mem_cons_self⟩
              | _ => exact ⟨hafter, fun _ _ he => by cases he⟩
            | _ => exact ⟨hafter, fun _ _ he => by cases he⟩
          · rintro _ e rfl
            exact ⟨hquiet.cons hupsert _, fun _ _ he => by cases he⟩
      · rintro _ e ⟨new, rfl, hnew⟩
        exact ⟨hunextracted.append fun done hm => (hnew done hm).quiet, fun _ _ he => by cases he⟩
  · rintro _ e rfl
    exact ⟨h.cons hselect _, fun _ _ he => by cases he⟩

/-- What Path A leaves to be finalized. -/
def ViaSchemaObeys (eventId : EventId) (past : Past) : Except PyError (Option CanonicalEvent) → Prop
  | .ok (some event) => event.base.eventId = eventId ∧ FollowsMapping past event
  | .ok none => Unextracted past
  | .error _ => True

theorem obeys_extractionSucceeded {past : Past} {eventId : EventId} {event : CanonicalEvent}
    (hid : event.base.eventId = eventId)
    (hasked : ∀ vendorId rawEventType answer, ⟨.selectEventType vendorId rawEventType, answer⟩ ∈ past →
      ∃ classification canonicalState, AppliedAs event classification canonicalState ∧
        Resolved past vendorId rawEventType answer classification canonicalState) (schemaId : SchemaId) :
    (extractionSucceeded eventId schemaId event).Obeys WorkerObeys (ViaSchemaObeys eventId) past := by
  refine .bind (R := fun past' r => past' = ⟨.incrementSuccess schemaId, r⟩ :: past)
    (.perform trivial fun r => rfl) ?_ fun _ _ _ => trivial
  rintro _ counted rfl
  refine .bind (R := fun past' r => past' = ⟨.note (.extracted eventId schemaId), r⟩ ::
    ⟨.incrementSuccess schemaId, .ok counted⟩ :: past) (.perform trivial fun r => rfl) ?_ fun _ _ _ => trivial
  rintro _ noted rfl
  refine ⟨hid, fun _ vendorId rawEventType answer hm => ?_⟩
  have hm' : ⟨.selectEventType vendorId rawEventType, answer⟩ ∈ past := by
    rcases List.mem_cons.mp hm with he | hm
    · cases he
    · rcases List.mem_cons.mp hm with he | hm
      · cases he
      · exact hm
  obtain ⟨classification, canonicalState, happlied, hresolved⟩ := hasked vendorId rawEventType answer hm'
  refine ⟨classification, canonicalState, happlied, ?_⟩
  rcases hresolved with hstored | ⟨hnone, confidence, hwritten⟩
  · exact .inl hstored
  · exact .inr ⟨hnone, confidence, List.mem_cons_of_mem _ (List.mem_cons_of_mem _ hwritten)⟩

/-- **Path A follows the mapping that it has asked for.** -/
theorem obeys_processViaSchema {past : Past} (h : Unextracted past) (hunasked : Unasked past)
    (eventId : EventId) (vendorId : String) (payload : JsonObject) (schemaMatch : SchemaMatch) :
    (processViaSchema env settings eventId vendorId payload schemaMatch).Obeys WorkerObeys
      (ViaSchemaObeys eventId) past := by
  rw [processViaSchema]
  refine .bind (R := fun past' first => past' = past ∧
      extract env payload eventId vendorId schemaMatch.schemaDoc none none = first)
    (.ofExcept ⟨rfl, rfl⟩) ?_ fun _ _ _ => trivial
  rintro _ first ⟨rfl, hfirst⟩
  dsimp only
  split
  · rename_i event hevent hdoc
    have hread : first = ⟨first.rawEventType, .ok event⟩ := by rw [← hevent]
    rw [hread] at hfirst
    refine obeys_extractionSucceeded (base_of_extract hfirst).1 (fun vendorId' rawEventType answer hm => ?_) _
    exact absurd rfl (hunasked _ hm vendorId' rawEventType)
  · split
    · exact h
    · refine .bind (obeys_resolveEventType env settings h hunasked vendorId _) (fun past' mapping hresolved => ?_)
        fun _ _ _ => trivial
      cases mapping with
      | none => exact hresolved.1
      | some mapping =>
        obtain ⟨classification, canonicalState⟩ := mapping
        have hasked := hresolved.2 classification canonicalState rfl
        refine .bind (R := fun past'' second => past'' = past' ∧
            extract env payload eventId vendorId schemaMatch.schemaDoc (some canonicalState)
              (some classification) = second)
          (.ofExcept ⟨rfl, rfl⟩) ?_ fun _ _ _ => trivial
        rintro _ second ⟨rfl, hsecond⟩
        split
        · rename_i event hevent
          have hread : second = ⟨second.rawEventType, .ok event⟩ := by rw [← hevent]
          rw [hread] at hsecond
          refine obeys_extractionSucceeded (base_of_extract hsecond).1 (fun vendorId' rawEventType answer hm =>
            ⟨classification, canonicalState, appliedAs_of_extract env hsecond, ?_⟩) _
          exact hasked vendorId' rawEventType answer hm
        · exact hresolved.1

theorem Unasked.cons {past : Past} (h : Unasked past) {o : Op} (ho : ∀ vendorId rawEventType,
      o ≠ .selectEventType vendorId rawEventType) (answer : Except PyError o.Result) :
    Unasked (⟨o, answer⟩ :: past) := by
  intro done hm vendorId rawEventType
  rcases List.mem_cons.mp hm with rfl | hm
  · exact ho vendorId rawEventType
  · exact h done hm vendorId rawEventType

/-- **What `process_event` obeys**, whatever the database and the provider answer. -/
theorem obeys_processEvent (eventId : EventId) :
    (processEvent env settings eventId).Obeys WorkerObeys (fun _ _ => True) [] := by
  have hnil : Unextracted [] := fun _ hm => by cases hm
  have hquiet : ∀ {o : Op}, (∀ past, WorkerObeys past o) → (∀ mark, o ≠ .note mark) → o.Quiet :=
    fun hobeys hmark => ⟨hobeys, fun _ _ => hmark _⟩
  have hrow := hquiet (o := .selectRawEvent eventId) (fun _ => trivial) fun _ he => by cases he
  rw [processEvent]
  refine .bind (R := fun past' r => past' = [⟨.selectRawEvent eventId, r⟩]) (.perform trivial fun r => rfl) ?_
    fun _ _ _ => trivial
  rintro _ row rfl
  cases row with
  | none => trivial
  | some row =>
    simp only [processRow]
    refine .bind (R := fun past' r => past' = [⟨.selectSchema (resolveVendorId env.toUnicode row)
        (structuralFingerprint env (.obj row.payload) []), r⟩, ⟨.selectRawEvent eventId, .ok (some row)⟩])
      (.perform trivial fun r => rfl) ?_ fun _ _ _ => trivial
    rintro _ schemaMatch rfl
    have hbefore := (hnil.cons hrow (.ok (some row))).cons (hquiet (o := .selectSchema
      (resolveVendorId env.toUnicode row) (structuralFingerprint env (.obj row.payload) []))
      (fun _ => trivial) fun _ he => by cases he) (.ok schemaMatch)
    cases schemaMatch with
    | none => exact obeys_processViaLLM env settings hbefore eventId _ row.payload
    | some schemaMatch =>
      have hunasked : Unasked [⟨.selectSchema (resolveVendorId env.toUnicode row)
          (structuralFingerprint env (.obj row.payload) []), .ok (some schemaMatch)⟩,
          ⟨.selectRawEvent eventId, .ok (some row)⟩] :=
        .cons (.cons (fun _ hm => by cases hm) (fun _ _ he => by cases he) _) (fun _ _ he => by cases he) _
      refine .bind (obeys_processViaSchema env settings hbefore hunasked eventId _ row.payload schemaMatch)
        (fun past event h => ?_) fun _ _ _ => trivial
      cases event with
      | some event => exact obeys_finalizeEvent h.1 h.2
      | none =>
        refine .bind (R := fun past' r => past' = ⟨.incrementFailure schemaMatch.schemaId, r⟩ :: past)
          (.perform trivial fun r => rfl) ?_ fun _ _ _ => trivial
        rintro _ counted rfl
        have hcounted := h.cons (hquiet (o := .incrementFailure schemaMatch.schemaId) (fun _ => trivial)
          fun _ he => by cases he) (.ok counted)
        exact obeys_processViaLLM env settings hcounted eventId _ row.payload

/-- A job of the queue marks the event whose processing fails. -/
theorem obeys_processWebhook (eventId : EventId) :
    (processWebhook env settings eventId).Obeys WorkerObeys (fun _ _ => True) [] :=
  .tryCatch (obeys_processEvent env settings eventId) (fun _ _ _ => trivial) fun _ _ _ =>
    .bind (R := fun _ _ => True) (.perform trivial fun _ => trivial) (fun _ _ _ => trivial) fun _ _ _ => trivial

/-! ### What a delivery obeys -/

/-- The delivery has inserted its event. -/
def Inserted (past : Past) (eventId : EventId) : Prop :=
  ∃ vendorId payload headers signatureVerified inserted, ⟨.insertRawEvent eventId vendorId payload headers
    signatureVerified, .ok (some inserted)⟩ ∈ past

/-- A call of `enqueue_process` for an event. -/
def isCallFor (eventId : EventId) (done : Performed PyError Op Op.Result) : Bool :=
  match done.op with
  | .enqueue id => id = eventId
  | _ => false

/-- How often a task has called `enqueue_process` for an event. -/
def calls (past : Past) (eventId : EventId) : Nat := past.countP (isCallFor eventId)

/-- **What a delivery obeys**: it inserts first, and puts an event it has inserted into the
queue once. -/
def ReceiverObeys (past : Past) : Op → Prop
  | .insertRawEvent .. => past = []
  | .note _ => True
  | .enqueue eventId => Inserted past eventId ∧ ∀ id, calls past id = 0
  | _ => False

/-- **How a delivery ends**: it has inserted its event and put it into the queue, or it has
inserted none, or one of these went wrong. -/
def ReceiverEnds (past : Past) : Except PyError ServiceResult → Prop
  | .ok (.ingested ⟨eventId, false⟩) => Inserted past eventId ∧ calls past eventId = 1
  | .ok (.ingested ⟨_, true⟩) => ∀ id, ¬ Inserted past id
  | .ok _ => False
  | .error _ => (∀ id, ¬ Inserted past id) ∨
      ∃ done ∈ past, (∃ e, done.answer = .error e) ∧ (done.op.IsNote ∨ ∃ id, isCallFor id done = true)

theorem obeys_receive (vendorId : Option VendorPath) (request : Request) :
    (ServiceJob.program env settings (.receive vendorId request)).Obeys ReceiverObeys ReceiverEnds [] := by
  have hnothing : ∀ id, ¬ Inserted [] id := by
    rintro id ⟨_, _, _, _, _, hm⟩
    cases hm
  refine .map (R := fun past r => ReceiverEnds past (ServiceResult.ingested <$> r)) ?_
    (fun past answer h => h) fun past e h => h
  rw [WebhookIngestion.receive, ingest]
  cases readPayload env settings request with
  | error e => exact .inl hnothing
  | ok payload =>
    rw [Program.ofExcept, Program.ret_bind]
    cases verifySignature env settings request (vendorId.map VendorPath.text) with
    | error e => exact .inl hnothing
    | ok signatureVerified =>
      rw [Program.ofExcept, Program.ret_bind]
      generalize computeEventId env (.obj payload) (vendorEventId env.toUnicode request payload) = eventId
      dsimp only
      refine .bind (R := fun past r => past = [⟨.insertRawEvent eventId (vendorId.map VendorPath.text) payload
        (storedHeaders request.headers) signatureVerified, r⟩]) (.perform rfl fun r => rfl) ?_ ?_
      · rintro _ inserted rfl
        cases inserted with
        | none =>
          rintro id ⟨_, _, _, _, _, hm⟩
          cases List.mem_singleton.mp hm
        | some inserted =>
          refine .bind (R := fun past r => past = [⟨.note (.accepted inserted (vendorId.map VendorPath.text)), r⟩,
            ⟨.insertRawEvent eventId (vendorId.map VendorPath.text) payload (storedHeaders request.headers)
              signatureVerified, .ok (some inserted)⟩]) (.perform trivial fun r => rfl) ?_ ?_
          · rintro _ noted rfl
            have hinserted : Inserted [⟨.note (.accepted inserted (vendorId.map VendorPath.text)), .ok noted⟩,
                ⟨.insertRawEvent eventId (vendorId.map VendorPath.text) payload (storedHeaders request.headers)
                  signatureVerified, .ok (some inserted)⟩] eventId :=
              ⟨_, _, _, _, inserted, List.mem_cons_of_mem _ List.mem_cons_self⟩
            refine .bind (R := fun past r => past = [⟨.enqueue eventId, r⟩,
              ⟨.note (.accepted inserted (vendorId.map VendorPath.text)), .ok noted⟩,
              ⟨.insertRawEvent eventId (vendorId.map VendorPath.text) payload (storedHeaders request.headers)
                signatureVerified, .ok (some inserted)⟩]) (.perform ⟨hinserted, fun id => rfl⟩ fun r => rfl) ?_ ?_
            · rintro _ called rfl
              refine ⟨?_, ?_⟩
              · exact ⟨_, _, _, _, inserted, List.mem_cons_of_mem _ (List.mem_cons_of_mem _ List.mem_cons_self)⟩
              · simp [calls, isCallFor]
            · rintro _ e rfl
              exact .inr ⟨_, List.mem_cons_self, ⟨e, rfl⟩, .inr ⟨eventId, by simp [isCallFor]⟩⟩
          · rintro _ e rfl
            exact .inr ⟨_, List.mem_cons_self, ⟨e, rfl⟩, .inl trivial⟩
      · rintro _ e rfl
        refine .inl ?_
        rintro id ⟨_, _, _, _, _, hm⟩
        cases List.mem_singleton.mp hm

/-! ### What the jobs obey -/

def JobObeys : ServiceJob → Past → Op → Prop
  | .receive _ _ => ReceiverObeys
  | .work _ | .replay _ => WorkerObeys
  | .truncate => fun _ o => o = .truncate

def JobEnds : ServiceJob → Past → Except PyError ServiceResult → Prop
  | .receive _ _ => ReceiverEnds
  | _ => fun _ _ => True

/-- **Every job obeys its rules**, whatever it is answered. -/
theorem obeys_program (job : ServiceJob) :
    (ServiceJob.program env settings job).Obeys (JobObeys job) (JobEnds job) [] := by
  cases job with
  | receive vendorId request => exact obeys_receive env settings vendorId request
  | work eventId => exact .map (obeys_processWebhook env settings eventId) (fun _ _ _ => trivial) fun _ _ _ => trivial
  | replay eventId => exact .map (obeys_processEvent env settings eventId) (fun _ _ _ => trivial) fun _ _ _ => trivial
  | truncate =>
    exact .map (R := fun _ _ => True) (.perform rfl fun _ => trivial) (fun _ _ _ => trivial) fun _ _ _ => trivial

/-! ### One job after the other -/

/-- The job of a step that is served by itself. -/
def Action.job : Action → ServiceJob
  | .receive vendorId request _ => .receive vendorId request
  | .process eventId _ _ => .replay eventId

/-- What the step finds: the queue, or the day and the provider's answers. -/
def Action.finds (w : World) : Action → World
  | .receive _ _ queueError => { w with queueError }
  | .process _ day answers => w.facing day answers

theorem serve_eq (w : World) (action : Action) :
    serve env settings w action = (Job.run (ServiceJob.program env settings action.job) (action.finds w)).2 := by
  cases action with
  | receive vendorId request queueError =>
    exact (Program.run_bind_ret_snd Op.handle (WebhookIngestion.receive env settings vendorId request)
      ServiceResult.ingested _).symm
  | process eventId day answers =>
    exact (Program.run_bind_ret_snd Op.handle (processEvent env settings eventId) ServiceResult.processed _).symm

/-- **Steps that are served one after the other are one schedule of the service.** -/
theorem reaches_serve {mayLose : Op → Prop} (actions : List Action) {n : Nat}
    {c : Config World Nat ServiceJob PyError Op Op.Result ServiceResult} (hfree : ∀ i, n ≤ i → c.tasks i = none) :
    ∃ c', (service env settings mayLose).Reaches (fun _ _ => True) c c' ∧
      c'.state = actions.foldl (serve env settings) c.state := by
  induction actions generalizing n c with
  | nil => exact ⟨c, .refl, rfl⟩
  | cons action actions ih =>
    have hout : (service env settings mayLose).Step (fun _ _ => True) c ⟨action.finds c.state, c.tasks⟩ :=
      .outside (by cases action <;> exact ⟨rfl, rfl⟩)
    obtain ⟨history, hjob⟩ := System.reaches_alone (S := service env settings mayLose)
      (⟨action.finds c.state, c.tasks⟩ : Config World Nat ServiceJob PyError Op Op.Result ServiceResult)
      (i := n) (hfree n le_rfl) action.job
    generalize hafter : Config.put _ _ n _ = after at hjob
    have hstill : ∀ i, n + 1 ≤ i → after.tasks i = none := by
      intro i hi
      rw [← hafter, Config.tasks_put_of_ne (by omega)]
      exact hfree i (by omega)
    obtain ⟨c', hrest, hstate⟩ := ih hstill
    refine ⟨c', (Relation.ReflTransGen.head hout hjob).trans hrest, hstate.trans ?_⟩
    rw [List.foldl_cons, serve_eq, ← hafter]
    rfl

/-- So is every run from the freshly migrated database. -/
theorem reaches_run {mayLose : Op → Prop} (actions : List Action) :
    ∃ c : Config World Nat ServiceJob PyError Op Op.Result ServiceResult,
      (service env settings mayLose).Reaches (fun _ _ => True) (.idle World.start) c ∧
        c.state = run env settings actions :=
  reaches_serve env settings actions (n := 0) fun _ _ => rfl

end Jobs

end WebhookIngestion
