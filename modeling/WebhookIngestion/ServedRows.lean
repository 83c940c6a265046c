import WebhookIngestion.NormalForm
import WebhookIngestion.ProjectionReady
import WebhookIngestion.References
import WebhookIngestion.ReviewQueue

/-! # Rows that are being processed

`process_event` reads the row of an event and performs the rest for that row: under its
event id, for the vendor it resolves, for the shape of its payload (`Op.Serves`).  In the
meantime others may update the row, but it stays, with what it was delivered with and with
its vendor once it has one (`RawEvent.Later`).  So whatever a job files, however late, it
files under an event that is there (`Served`). -/
namespace WebhookIngestion
open Tables Programs

/-! ### What processing a row performs -/

/-- The event that an operation files something under. -/
def Op.files : Op → Option EventId
  | .insertAudit eventId .. | .markReview eventId _ | .markPendingLlm eventId _ | .finalize eventId _
  | .upsertSchema _ _ _ eventId => some eventId
  | _ => none

/-- A document learned from a raw event: for its vendor, from its payload, by a discovery
that has validated it on this payload. -/
structure TaughtBy (env : Externals) (eventId : EventId) (row : RawEvent) (vendorId fingerprint : String)
    (schemaDoc : JsonObject) : Prop where
  vendor : vendorId = resolveVendorId env.toUnicode row
  shape : fingerprint = structuralFingerprint env (.obj row.payload) []
  discovered : ∃ llmOutput, discoverSchema env row.payload eventId vendorId llmOutput = .ok (some schemaDoc)

/-- The reasons for review that the worker gives; the normalizer's own error is raised for no
event, so `normalization_failed` is not among them. -/
def reviewReasons : List String := ["llm_invalid_after_retry", "canonical_build_failed"]

/-- **What may be filed for a row.** -/
def Op.Serves (env : Externals) (eventId : EventId) (row : RawEvent) : Op → Prop
  | .insertAudit id .. => id = eventId
  | .markReview id reason => id = eventId ∧ reason ∈ reviewReasons
  | .markPendingLlm id reason => id = eventId ∧ reason = "llm_budget_exceeded"
  | .upsertSchema vendorId fingerprint schemaDoc id =>
    id = eventId ∧ TaughtBy env eventId row vendorId fingerprint schemaDoc
  | .finalize id canonical => id = eventId ∧ Normal canonical
  | .insertRawEvent .. | .enqueue _ | .markFailed .. | .truncate => False
  | _ => True

/-- What asking the LLM for an event performs. -/
def Op.AsksFor (eventId : EventId) : Op → Prop
  | .insertAudit id .. => id = eventId
  | .selectCache _ | .insertCache .. | .sumAudit _ | .complete _ => True
  | _ => False

theorem Op.AsksFor.serves {o : Op} {eventId : EventId} (h : o.AsksFor eventId) (env : Externals)
    (row : RawEvent) : o.Serves env eventId row := by
  cases o <;> first | exact h.elim | exact h

section Jobs
variable (env : Externals) (settings : Settings)

theorem asksFor_allow (eventId : EventId) (vendorId : String) (estimatedCost : Rat) :
    (allow settings vendorId estimatedCost).Every (Op.AsksFor eventId) := by
  refine .bind (.perform trivial) fun sums => ?_
  dsimp only
  split
  · exact .ret _
  · split <;> exact .ret _

theorem asksFor_completeExtract (eventId : EventId) (vendorHint : String) :
    (completeExtract env vendorHint).Every (Op.AsksFor eventId) := by
  have hattempt : (attemptExtract env vendorHint).Every (Op.AsksFor eventId) :=
    .bind (.perform trivial) fun _ => .bind (.ofExcept _) fun _ => .ret _
  refine .tryCatch hattempt fun firstErr => ?_
  split
  · refine .tryCatch hattempt fun secondErr => ?_
    split <;> exact .raise _
  · exact .raise _

theorem asksFor_classifyExtract (eventId : EventId) (vendorHint : String) (payload : JsonObject) :
    (classifyExtract env settings eventId vendorHint payload).Every (Op.AsksFor eventId) := by
  refine .bind (.perform trivial) fun cached => ?_
  cases cached with
  | some cached => exact .bind (.perform rfl) fun _ => .ret _
  | none =>
    refine .bind (asksFor_allow settings eventId vendorHint _) fun allowed => ?_
    split
    · refine .bind (asksFor_completeExtract env eventId vendorHint) fun answer => ?_
      exact .bind (.perform trivial) fun _ => .bind (.perform rfl) fun _ => .ret _
    · exact .raise _

theorem asksFor_classifyEventType (eventId : EventId) (vendorId rawEventType : String) :
    (classifyEventType env settings vendorId rawEventType).Every (Op.AsksFor eventId) := by
  refine .bind (.perform trivial) fun cached => ?_
  cases cached with
  | some cached => exact .ofExcept _
  | none =>
    refine .bind (asksFor_allow settings eventId vendorId _) fun allowed => ?_
    split
    · refine .bind (.tryCatch (.map (.perform trivial)) fun _ => .ret _) fun answer => ?_
      cases answer with
      | none => exact .ret _
      | some result =>
        dsimp only
        split
        · exact .ret _
        · exact .bind (.perform trivial) fun _ => .ofExcept _
    · exact .ret _

/-- The adapter gives its reasons. -/
theorem asksFor_universalNormalize (eventId : EventId) (vendorHint : String) (payload : JsonObject) (past : Past) :
    (universalNormalize env settings eventId vendorHint payload).Obeys (fun _ => Op.AsksFor eventId)
      (fun _ r => ∀ reason, r = .ok (.unsupported reason) → reason ∈ reviewReasons) past := by
  refine .bind (R := fun _ r => ∀ reason, r = .ok (.error (.unsupported reason)) → reason ∈ reviewReasons)
    (.tryCatch (.map (Program.Every.obeys_any (asksFor_classifyExtract env settings eventId _ payload) past)
      (P := fun _ r => ∀ reason, r = .ok (.error (.unsupported reason)) → reason ∈ reviewReasons)
      (fun _ _ _ _ he => by cases he) fun _ _ _ _ he => by cases he)
      (fun _ _ h => h) fun past e _ => ?_)
    (fun past answer h => ?_) fun _ _ _ _ he => by cases he
  · cases e with
    | llmValidationError =>
      rintro reason ⟨⟩
      exact List.mem_cons_self
    | budgetExceeded => exact fun _ he => by cases he
    | _ => exact fun _ he => by cases he
  · cases answer with
    | error result =>
      rintro reason ⟨⟩
      exact h reason rfl
    | ok outcome =>
      dsimp only
      split
      · exact fun _ he => by cases he
      · split
        · rintro reason ⟨⟩
          exact List.mem_cons_of_mem _ List.mem_cons_self
        · exact fun _ he => by cases he

/-- What is finalized is in normal form. -/
theorem serves_finalizeEvent (eventId : EventId) (row : RawEvent) (vendorId : String) (event : CanonicalEvent) :
    (finalizeEvent eventId vendorId event).Every (Op.Serves env eventId row) := by
  rw [finalizeEvent]
  split
  · rename_i canonical hnormalize
    exact .bind (.perform ⟨rfl, normalize_normalize hnormalize⟩) fun _ => .ret _
  · rename_i herror
    rcases error_of_normalize herror with (he | he) | he <;> cases he
  · exact .raise _

theorem serves_resolveEventType (eventId : EventId) (row : RawEvent) (vendorId rawEventType : String) :
    (resolveEventType env settings vendorId rawEventType).Every (Op.Serves env eventId row) := by
  refine .bind (.perform trivial) fun stored => ?_
  cases stored with
  | some mapping => exact .ret _
  | none =>
    refine .bind ((asksFor_classifyEventType env settings eventId vendorId rawEventType).mono fun o ho =>
      ho.serves env row) fun answer => ?_
    cases answer with
    | none => exact .ret _
    | some answer =>
      exact .bind (.perform trivial) fun _ => .bind (.ofExcept _) fun _ => .bind (.ofExcept _) fun _ => .ret _

/-- **Discovery persists what it has learned from the row.** -/
theorem serves_discoverAndPersist {eventId : EventId} {row : RawEvent} {vendorId : String}
    (hvendor : vendorId = resolveVendorId env.toUnicode row) (llmOutput : JsonObject) :
    (discoverAndPersist env vendorId row.payload llmOutput eventId).Every (Op.Serves env eventId row) := by
  rw [discoverAndPersist]
  cases hdiscover : discoverSchema env row.payload eventId vendorId llmOutput with
  | error e => exact .raise e
  | ok schemaDoc =>
    rw [Program.ofExcept, Program.ret_bind]
    cases schemaDoc with
    | none => exact .ret _
    | some schemaDoc =>
      have hteaches : TaughtBy env eventId row vendorId (structuralFingerprint env (.obj row.payload) [])
          schemaDoc := ⟨hvendor, rfl, llmOutput, hdiscover⟩
      refine .bind (.perform ⟨rfl, hteaches⟩) fun schemaId => ?_
      cases schemaId with
      | none => exact .raise _
      | some schemaId =>
        refine .bind (.ofExcept _) fun rawEventType => .bind ?_ fun _ => .bind (.perform trivial) fun _ => .ret _
        rw [persistLessonType]
        split
        · split
          · exact .perform trivial
          · exact .ret _
        · exact .ret _

theorem serves_processViaSchema (eventId : EventId) (row : RawEvent) (vendorId : String) (schemaMatch : SchemaMatch) :
    (processViaSchema env settings eventId vendorId row.payload schemaMatch).Every (Op.Serves env eventId row) := by
  have hsucceeded (event : CanonicalEvent) :
      (extractionSucceeded eventId schemaMatch.schemaId event).Every (Op.Serves env eventId row) :=
    .bind (.perform trivial) fun _ => .bind (.perform trivial) fun _ => .ret _
  refine .bind (.ofExcept _) fun first => ?_
  dsimp only
  split
  · exact hsucceeded _
  · split
    · exact .ret _
    · refine .bind (serves_resolveEventType env settings eventId row vendorId _) fun mapping => ?_
      cases mapping with
      | none => exact .ret _
      | some mapping =>
        refine .bind (.ofExcept _) fun second => ?_
        split
        · exact hsucceeded _
        · exact .ret _

theorem serves_processViaLLM {eventId : EventId} {row : RawEvent} {vendorId : String}
    (hvendor : vendorId = resolveVendorId env.toUnicode row) :
    (processViaLLM env settings eventId vendorId row.payload).Every (Op.Serves env eventId row) := by
  have hfinalize (event : CanonicalEvent) := serves_finalizeEvent env eventId row vendorId event
  refine Program.Obeys.every (P := fun _ _ => True) (h := []) (.bind ((asksFor_universalNormalize env settings
    eventId vendorId row.payload []).weaken (fun _ o ho => ho.serves env row) fun _ _ h => h)
      (fun past result hreason => ?_) fun _ _ _ => trivial)
  cases result with
  | ok event outcome =>
    dsimp only
    split
    · exact (Program.Every.bind (.tryCatch (serves_discoverAndPersist env hvendor outcome.data) fun _ => .ret _)
        fun _ => hfinalize event).obeys_any past
    · exact (hfinalize event).obeys_any past
  | deferred => exact (Program.Every.bind (.perform ⟨rfl, rfl⟩) fun _ => .ret _).obeys_any past
  | unsupported reason =>
    exact (Program.Every.bind (.perform ⟨rfl, hreason reason rfl⟩) fun _ => .ret _).obeys_any past

/-- **What `process_event` files, it files for the row it has read.** -/
theorem serves_processRow (eventId : EventId) (row : RawEvent) :
    (processRow env settings eventId row).Every (Op.Serves env eventId row) := by
  refine .bind (.perform trivial) fun schemaMatch => ?_
  cases schemaMatch with
  | none => exact serves_processViaLLM env settings rfl
  | some schemaMatch =>
    refine .bind (serves_processViaSchema env settings eventId row _ schemaMatch) fun event => ?_
    cases event with
    | some event => exact serves_finalizeEvent env eventId row _ event
    | none => exact .bind (.perform trivial) fun _ => serves_processViaLLM env settings rfl

/-! ### What a job files -/

/-- A job has read the row of an event. -/
def Read (past : Past) (eventId : EventId) (row : RawEvent) : Prop :=
  ⟨.selectRawEvent eventId, .ok (some row)⟩ ∈ past

/-- **What a job files, it files for a row it has read**; the error of a failed event is cut. -/
def ServesRead (past : Past) : Op → Prop
  | .markFailed _ error => error.toList.length ≤ 500
  | o => ∀ eventId, o.files = some eventId → ∃ row, Read past eventId row ∧ o.Serves env eventId row

theorem servesRead_processEvent (eventId : EventId) :
    (processEvent env settings eventId).Obeys (ServesRead env) (fun _ _ => True) [] := by
  rw [processEvent]
  refine .bind (R := fun past r => past = [⟨.selectRawEvent eventId, r⟩])
    (.perform (fun _ hfiles => by cases hfiles) fun r => rfl) ?_ fun _ _ _ => trivial
  rintro _ row rfl
  cases row with
  | none => trivial
  | some row =>
    refine ((serves_processRow env settings eventId row).obeys _).weaken ?_ fun _ _ _ => trivial
    rintro past o ⟨hserves, new, rfl, -⟩
    have hread : Read (new ++ [⟨.selectRawEvent eventId, .ok (some row)⟩]) eventId row :=
      List.mem_append_right _ List.mem_cons_self
    cases o with
    | insertAudit id =>
      rintro _ ⟨⟩
      obtain rfl : id = eventId := hserves
      exact ⟨row, hread, rfl⟩
    | markReview | markPendingLlm | finalize | upsertSchema =>
      rintro _ ⟨⟩
      obtain ⟨rfl, hrest⟩ := hserves
      exact ⟨row, hread, rfl, hrest⟩
    | markFailed => exact hserves.elim
    | _ => exact fun _ hfiles => by cases hfiles

/-- **Every job reads an event before it files anything under it.** -/
theorem servesRead_program (job : ServiceJob) :
    (ServiceJob.program env settings job).Obeys (ServesRead env) (fun _ _ => True) [] := by
  cases job with
  | receive vendorId request =>
    refine (obeys_receive env settings vendorId request).weaken (fun past o hobeys => ?_) fun _ _ _ => trivial
    cases o <;> first | exact hobeys.elim | exact nofun
  | work eventId =>
    refine .map (R := fun _ _ => True) (.tryCatch (servesRead_processEvent env settings eventId)
      (fun _ _ _ => trivial) fun _ e _ => ?_) (fun _ _ _ => trivial) fun _ _ _ => trivial
    refine .bind (R := fun _ _ => True) (.perform ?_ fun _ => trivial) (fun _ _ _ => trivial) fun _ _ _ => trivial
    show (String.ofList _).toList.length ≤ 500
    rw [String.toList_ofList]
    exact List.length_take_le 500 _
  | replay eventId =>
    exact .map (servesRead_processEvent env settings eventId) (fun _ _ _ => trivial) fun _ _ _ => trivial
  | truncate =>
    exact .map (R := fun _ _ => True) (.perform nofun fun _ => trivial) (fun _ _ _ => trivial) fun _ _ _ => trivial

end Jobs

/-! ### Rows that others update -/

/-- What becomes of a row: it keeps what it was delivered with, and its vendor once it has one. -/
structure RawEvent.Later (row row' : RawEvent) : Prop where
  received : row'.received = row.received
  vendorId : ∀ vendorId, row.vendorId = some vendorId → row'.vendorId = some vendorId

theorem RawEvent.Later.refl (row : RawEvent) : row.Later row := ⟨rfl, fun _ h => h⟩

theorem RawEvent.Later.trans {row row' row'' : RawEvent} (h : row.Later row') (h' : row'.Later row'') :
    row.Later row'' :=
  ⟨h'.received.trans h.received, fun vendorId hvendor => h'.vendorId vendorId (h.vendorId vendorId hvendor)⟩

theorem RawEvent.Later.payload {row row' : RawEvent} (h : row.Later row') : row'.payload = row.payload :=
  congrArg Prod.fst h.received

/-- A later row resolves to the vendor of the earlier one, or to one it has got since. -/
theorem RawEvent.Later.vendor {row row' : RawEvent} (h : row.Later row') (u : Unicode) :
    resolveVendorId u row = inferVendorId u row'.payload ∨ row'.vendorId = some (resolveVendorId u row) := by
  rw [resolveVendorId, h.payload]
  cases hvendor : row.vendorId with
  | none => exact .inl rfl
  | some vendorId =>
    dsimp only
    by_cases hblank : vendorId = ""
    · exact .inl (if_pos hblank)
    · rw [if_neg hblank]
      exact .inr (h.vendorId vendorId hvendor)

/-- **A row's error says what its status says.** -/
structure RawEvent.Disciplined (row : RawEvent) : Prop where
  queued : row.processingStatus = .queued → row.processingError = none
  pendingLlm : row.processingStatus = .pendingLlm → row.processingError = some "llm_budget_exceeded"
  /-- A processed event has got a vendor. -/
  processed : row.processingStatus = .processed → row.processingError = none ∧ row.vendorId.isSome
  review : row.processingStatus = .review → ∃ reason ∈ reviewReasons, row.processingError = some reason
  failed : row.processingStatus = .failed → ∃ error : String, error.toList.length ≤ 500 ∧
    row.processingError = some error

/-- What the error and the vendor are to be under a status. -/
def ProcessingStatus.Allows : ProcessingStatus → Option String → Option String → Prop
  | .queued, error, _ => error = none
  | .pendingLlm, error, _ => error = some "llm_budget_exceeded"
  | .processed, error, vendorId => error = none ∧ vendorId.isSome
  | .review, error, _ => ∃ reason ∈ reviewReasons, error = some reason
  | .failed, error, _ => ∃ text : String, text.toList.length ≤ 500 ∧ error = some text

theorem RawEvent.disciplined_of_allows {row : RawEvent}
    (h : row.processingStatus.Allows row.processingError row.vendorId) : row.Disciplined := by
  constructor <;> (intro hstatus; rw [hstatus] at h; exact h)

/-- What an operation does to the row of an event. -/
inductive RowStep : Option RawEvent → Option RawEvent → Prop
  | same (row : Option RawEvent) : RowStep row row
  | inserted {row : RawEvent} (h : row.Disciplined) : RowStep none (some row)
  | updated {row row' : RawEvent} (hlater : row.Later row') (h : row'.Disciplined) : RowStep (some row) (some row')

theorem RowStep.updateRawEvent (db : Database) (eventId : EventId) {set : RawEvent → RawEvent}
    (hset : ∀ row, row.Later (set row) ∧ (set row).Disciplined) (id : EventId) :
    RowStep (db.rawEvents.lookup id) ((db.updateRawEvent eventId set).rawEvents.lookup id) := by
  rw [Database.updateRawEvent, lookup_updateRows]
  cases db.rawEvents.lookup id with
  | none => exact .same none
  | some row =>
    rw [Option.map_some]
    by_cases hid : id = eventId
    · rw [if_pos hid]
      exact .updated (hset row).1 (hset row).2
    · rw [if_neg hid]
      exact .same (some row)

/-! ### What is filed is filed under a row -/

/-- An operation files under a row that is there, in its state when it was read or later. -/
structure Op.Filed (env : Externals) (db : Database) (o : Op) : Prop where
  row : ∀ eventId, o.files = some eventId → ∃ row row', db.rawEvents.lookup eventId = some row' ∧
    row.Later row' ∧ o.Serves env eventId row
  own : ∀ eventId event, o = .finalize eventId event → event.base.eventId = eventId
  error : ∀ eventId error, o = .markFailed eventId error → error.toList.length ≤ 500

/-- **What every operation does to the raw events.** -/
theorem rowStep_handle {env : Externals} {o : Op} {w : World} (hfiled : o.Filed env w.db) (id : EventId) :
    RowStep (w.db.rawEvents.lookup id) ((o.handle w).2.db.rawEvents.lookup id) := by
  by_cases hderives : o.Derives
  · cases o with
    | insertRawEvent eventId vendorId payload headers signatureVerified =>
      rw [Op.handle]
      split
      · exact .same _
      · rename_i hnone
        simp only [Database.insertRawEvent, lookup_insert_eq]
        by_cases hid : id = eventId
        · rw [if_pos hid, hid, hnone]
          exact .inserted (RawEvent.disciplined_of_allows rfl)
        · rw [if_neg hid]
          exact .same _
    | finalize eventId event =>
      have hset (row : RawEvent) : row.Later { row with
            vendorId := row.vendorId.or (some event.base.vendorId)
            processingStatus := .processed
            processingError := none } ∧
          RawEvent.Disciplined { row with
            vendorId := row.vendorId.or (some event.base.vendorId)
            processingStatus := .processed
            processingError := none } := by
        refine ⟨⟨rfl, fun vendorId hvendor => ?_⟩, RawEvent.disciplined_of_allows ⟨rfl, ?_⟩⟩
        · show row.vendorId.or _ = some vendorId
          rw [hvendor, Option.some_or]
        · show (row.vendorId.or _).isSome = true
          cases row.vendorId <;> rfl
      rw [Op.handle]
      split
      · exact .updateRawEvent { w.db with store := _, canonicalEvents := _ } eventId hset id
      · exact .same _
    | markReview eventId reason =>
      obtain ⟨-, -, -, -, -, hreason⟩ := hfiled.row eventId rfl
      have hset (row : RawEvent) : row.Later { row with
            processingStatus := .review, processingError := some reason } ∧
          RawEvent.Disciplined { row with processingStatus := .review, processingError := some reason } :=
        ⟨⟨rfl, fun _ h => h⟩, RawEvent.disciplined_of_allows ⟨reason, hreason, rfl⟩⟩
      exact .updateRawEvent { w.db with requiresHumanReview := _ } eventId hset id
    | markPendingLlm eventId reason =>
      obtain ⟨-, -, -, -, -, rfl⟩ := hfiled.row eventId rfl
      have hset (row : RawEvent) : row.Later { row with
            processingStatus := .pendingLlm, processingError := some "llm_budget_exceeded" } ∧
          RawEvent.Disciplined { row with
            processingStatus := .pendingLlm, processingError := some "llm_budget_exceeded" } :=
        ⟨⟨rfl, fun _ h => h⟩, RawEvent.disciplined_of_allows rfl⟩
      exact .updateRawEvent w.db eventId hset id
    | markFailed eventId error =>
      have hcut := hfiled.error eventId error rfl
      have hset (row : RawEvent) : row.Later { row with
            processingStatus := .failed, processingError := some error } ∧
          RawEvent.Disciplined { row with processingStatus := .failed, processingError := some error } :=
        ⟨⟨rfl, fun _ h => h⟩, RawEvent.disciplined_of_allows ⟨error, hcut, rfl⟩⟩
      exact .updateRawEvent w.db eventId hset id
    | truncate =>
      simp only [Op.handle, Database.truncated, lookup_updateRows]
      cases w.db.rawEvents.lookup id with
      | none => exact .same none
      | some row => exact .updated ⟨rfl, fun _ h => h⟩ (RawEvent.disciplined_of_allows rfl)
    | _ => exact hderives.elim
  · rw [(derived_handle hderives w).1]
    exact .same _

/-- A row stays, and becomes a later one. -/
theorem later_handle {env : Externals} {o : Op} {w : World} (hfiled : o.Filed env w.db) {id : EventId}
    {row : RawEvent} (hrow : w.db.rawEvents.lookup id = some row) :
    ∃ row', (o.handle w).2.db.rawEvents.lookup id = some row' ∧ row.Later row' := by
  have hstep := rowStep_handle hfiled id
  rw [hrow] at hstep
  cases hafter : (o.handle w).2.db.rawEvents.lookup id with
  | none =>
    rw [hafter] at hstep
    cases hstep
  | some row' =>
    rw [hafter] at hstep
    cases hstep with
    | same => exact ⟨row, rfl, .refl row⟩
    | updated hlater h => exact ⟨row', rfl, hlater⟩

/-! ### Runs -/

section Runs
variable (env : Externals) (settings : Settings) {mayLose : Op → Prop} {C : Op → World → Prop} {ι : Type}
  [DecidableEq ι]

/-- What a job was told of the row of an event: that it is there, by now or by then. -/
def RowThere : Performed PyError Op Op.Result → World → Prop
  | ⟨.selectRawEvent eventId, .ok (some row)⟩, w =>
    ∃ row', w.db.rawEvents.lookup eventId = some row' ∧ row.Later row'
  | _, _ => True

/-- What the jobs have read is there. -/
def Served (c : ServiceConfig ι) : Prop := System.Told RowThere c

/-- What a job obeys, and what it files under. -/
def JobServes (job : ServiceJob) (past : Past) (o : Op) : Prop := JobObeys job past o ∧ ServesRead env past o

variable {env} in
/-- **A job that has read what is there files under a row that is there.** -/
theorem filed_of_told {job : ServiceJob} {past : Past} {o : Op} {w : World} (hserves : JobServes env job past o)
    (htold : ∀ done ∈ past, RowThere done w) : o.Filed env w.db := by
  obtain ⟨hobeys, hread⟩ := hserves
  constructor
  · intro eventId hfiles
    have hreads : ∃ row, Read past eventId row ∧ o.Serves env eventId row := by
      cases o <;> first | cases hfiles; done | exact hread eventId hfiles
    obtain ⟨row, hpast, hserves⟩ := hreads
    obtain ⟨row', hrow', hlater⟩ := htold _ hpast
    exact ⟨row, row', hrow', hlater, hserves⟩
  · rintro eventId event rfl
    exact finalize_of_obeys hobeys
  · rintro eventId error rfl
    exact hread

/-- Every job does what it may, and has read what is there. -/
structure Serving (c : ServiceConfig ι) : Prop where
  obeys : System.Obeys (JobServes env) (fun _ _ _ => True) c
  served : Served c

omit [DecidableEq ι] in
theorem serving_idle (w : World) : Serving env (.idle w : ServiceConfig ι) :=
  ⟨System.obeys_idle w, System.told_idle w⟩

theorem serves_program (job : ServiceJob) :
    (ServiceJob.program env settings job).Obeys (JobServes env job) (fun _ _ => True) [] :=
  ((obeys_program env settings job).and (servesRead_program env settings job)).weaken (fun _ _ h => h)
    fun _ _ _ => trivial

/-- **What was read stays there.** -/
theorem kept_served : (service env settings mayLose).Kept C (JobServes env) (Served : ServiceConfig ι → Prop) := by
  refine System.kept_told (fun o w r w' hanswers => ?_) (fun job past o w hserves htold done hdone => ?_)
    fun w w' houtside done hdone => ?_
  · cases hanswers with
    | done =>
      cases o with
      | selectRawEvent eventId =>
        show RowThere ⟨.selectRawEvent eventId, .ok (w.db.rawEvents.lookup eventId)⟩ w
        cases hrow : w.db.rawEvents.lookup eventId with
        | none => trivial
        | some row => exact ⟨row, hrow, .refl row⟩
      | _ => trivial
    | failed | lost => cases o <;> trivial
  · unfold RowThere at hdone ⊢
    split
    · obtain ⟨row', hrow', hlater⟩ := hdone
      obtain ⟨row'', hrow'', hlater'⟩ := later_handle (filed_of_told hserves htold) hrow'
      exact ⟨row'', hrow'', hlater.trans hlater'⟩
    · trivial
  · unfold RowThere at hdone ⊢
    split
    · rw [houtside.1]
      exact hdone
    · trivial

/-- **The rule for what every filing operation keeps.**  A property of the database that every
operation keeps which files under rows that are there is kept by every run. -/
theorem Serving.reaches {J : Database → Prop}
    (hop : ∀ o w, Op.Filed env w.db o → J w.db → J (o.handle w).2.db) {c c' : ServiceConfig ι}
    (hc : Serving env c) (hJ : J c.state.db) (h : (service env settings mayLose).Reaches C c c') :
    Serving env c' ∧ J c'.state.db := by
  have hserved : (service env settings mayLose).Kept C (JobServes env) (Served : ServiceConfig ι → Prop) :=
    kept_served env settings
  have hkept := hserved.and_state (J := fun w => J w.db)
    (fun c i job past o next hserved htask hserves hJ =>
      hop o c.state (filed_of_told hserves (hserved i _ htask)) hJ)
    fun w w' houtside hJ => by rw [houtside.1]; exact hJ
  obtain ⟨hobeys, hserved, hJ'⟩ := hkept.reaches (serves_program env settings) hc.obeys ⟨hc.served, hJ⟩ h
  exact ⟨⟨hobeys, hserved⟩, hJ'⟩

/-- **What was delivered stays, and a row's error says what its status says**, whatever
deliveries, jobs, replays and truncations run beside each other and wherever they fail. -/
theorem rows_disciplined {c c' : ServiceConfig ι}
    (h : (service env settings mayLose).Reaches C (.idle World.start) c)
    (h' : (service env settings mayLose).Reaches C c c') {eventId : EventId} {row : RawEvent}
    (hrow : c.state.db.rawEvents.lookup eventId = some row) :
    row.Disciplined ∧ ∃ row', c'.state.db.rawEvents.lookup eventId = some row' ∧ row.Later row' := by
  have hdisciplined := (serving_idle env World.start).reaches env settings (J := fun db => ∀ id raw,
    db.rawEvents.lookup id = some raw → raw.Disciplined) (fun o w hfiled hJ id raw hraw => ?_) nofun h
  have hlater := hdisciplined.1.reaches env settings (J := fun db => ∃ row', db.rawEvents.lookup eventId =
    some row' ∧ row.Later row') (fun o w hfiled hJ => ?_) ⟨row, hrow, .refl row⟩ h'
  · exact ⟨hdisciplined.2 eventId row hrow, hlater.2⟩
  · obtain ⟨row', hrow', hlater⟩ := hJ
    obtain ⟨row'', hrow'', hlater'⟩ := later_handle hfiled hrow'
    exact ⟨row'', hrow'', hlater.trans hlater'⟩
  · have hstep := rowStep_handle hfiled id
    rw [hraw] at hstep
    generalize hbefore : w.db.rawEvents.lookup id = before at hstep
    cases hstep with
    | same => exact hJ id raw hbefore
    | inserted h => exact h
    | updated hlater h => exact h

end Runs

/-- The issued invoice is delivered at its vendor's URL, and processed. -/
def issuedActions : List Action :=
  [.receive (some globalfreightpayPath) (issuedRequest "INV-1" "2026-04-28T05:00:00Z") none,
    issuedStep "2026-04-28T05:00:00Z"]

/-- That is a schedule of the service, which ends in the world that is known. -/
theorem reaches_issued : ∃ c : ServiceConfig Nat,
    (service april28Runtime .defaults fun _ => True).Reaches (fun _ _ => True) (.idle World.start) c ∧
      c.state = issuedWorld (some "globalfreightpay") false "2026-04-28T05:00:00Z" := by
  obtain ⟨c, hreaches, hstate⟩ := reaches_run april28Runtime .defaults issuedActions
  exact ⟨c, hreaches, hstate.trans issuedRun_when_created.eq⟩

/-- The row of the delivered invoice is disciplined, and once the invoice was processed it is the same
row with another status. -/
theorem issued_row_disciplined :
    let delivered := (issuedSchedule.take 4).foldl (System.turn (service april28Runtime .defaults fun _ => True))
      (Config.idle World.start)
    let processed := (issuedSchedule.drop 4).foldl (System.turn (service april28Runtime .defaults fun _ => True))
      delivered
    ∃ row row', delivered.state.db.rawEvents.lookup (issuedId "INV-1" "2026-04-28T05:00:00Z") = some row ∧
      row.processingStatus = .queued ∧ row.Disciplined ∧
      processed.state.db.rawEvents.lookup (issuedId "INV-1" "2026-04-28T05:00:00Z") = some row' ∧
      row'.processingStatus = .processed ∧ row.Later row' := by
  intro delivered processed
  have houtside : ∀ f, System.Turn.outside f ∈ issuedSchedule → ∀ w,
      (service april28Runtime .defaults fun _ => True).outside w (f w) := by
    intro f hm w
    simp only [issuedSchedule, List.cons_append, List.nil_append, List.mem_cons, reduceCtorEq, false_or,
      System.Turn.outside.injEq, List.mem_replicate, and_false, or_false] at hm
    subst hm
    exact ⟨rfl, rfl⟩
  have hdelivered : (service april28Runtime .defaults fun _ => True).Reaches (fun _ _ => True)
      (Config.idle World.start) delivered :=
    System.reaches_schedule (System.along_turns (fun f hm => houtside f (List.mem_of_mem_take hm)) _)
  have hprocessed : (service april28Runtime .defaults fun _ => True).Reaches (fun _ _ => True) delivered processed :=
    System.reaches_schedule (System.along_turns (fun f hm => houtside f (List.mem_of_mem_drop hm)) _)
  have hstatus : (delivered.state.db.rawEvents.lookup (issuedId "INV-1" "2026-04-28T05:00:00Z")).map
      RawEvent.processingStatus = some .queued := by decide +kernel
  have hstatus' : (processed.state.db.rawEvents.lookup (issuedId "INV-1" "2026-04-28T05:00:00Z")).map
      RawEvent.processingStatus = some .processed := by decide +kernel
  obtain ⟨row, hrow, hqueued⟩ := Option.map_eq_some_iff.mp hstatus
  obtain ⟨hdisciplined, row', hrow', hlater⟩ := rows_disciplined april28Runtime .defaults hdelivered hprocessed hrow
  rw [hrow', Option.map_some] at hstatus'
  exact ⟨row, row', hrow, hqueued, hdisciplined, hrow', Option.some.inj hstatus', hlater⟩

end WebhookIngestion
