import Mathlib.Algebra.Group.Action.Defs
import WebhookIngestion.Library.Costs
import WebhookIngestion.ServedRows

/-! # What deliveries and jobs may add

A delivery stores one raw event and enqueues one job, and a job calls the provider three times,
at most: once for the event type, once for the payload and once more for an invalid answer.
So nothing the service keeps, asks for or pays for grows faster than what it was given to do,
whatever runs beside each other, fails or is retried (`no_amplification`). -/
namespace WebhookIngestion
open Tables Programs

/-- What is kept for good, or asked of others. -/
inductive Effort where
  | received
  | enqueued
  | called
  | cached
  | audited
  | learned
  | mapped
  deriving DecidableEq

/-- What a mark stands for. -/
def Mark.efforts : Mark → Multiset Effort
  | .enqueued _ => {.enqueued}
  | .called .. => {.called}
  | _ => 0

/-- What an operation adds; audits count for one event. -/
def Op.efforts (about : EventId) : Op → Multiset Effort
  | .insertRawEvent .. => {.received}
  | .enqueue _ => {.enqueued}
  | .complete _ => {.called}
  | .insertCache .. => {.cached}
  | .insertAudit eventId .. => if eventId = about then {.audited} else 0
  | .upsertSchema .. => {.learned}
  | .upsertEventType .. | .insertEventType .. => {.mapped}
  | .note mark => mark.efforts
  | _ => 0

/-- How much there is. -/
def World.spent (about : EventId) (w : World) : Effort → ℕ
  | .received => w.db.rawEvents.entries.length
  | .enqueued => w.trace.countP fun mark => .enqueued ∈ mark.efforts
  | .called => w.trace.countP fun mark => .called ∈ mark.efforts
  | .cached => w.db.llmCache.entries.length
  | .audited => w.db.llmAudit.countP fun row => row.eventId = about
  | .learned => w.db.vendorSchemas.entries.length
  | .mapped => w.db.vendorEventTypeMap.entries.length

section Walk
variable (env : Externals) (settings : Settings) (about : EventId)

/-! ### What a job adds -/

theorem free_allow (vendorId : String) (estimatedCost : Rat) :
    (allow settings vendorId estimatedCost).Every fun o => o.efforts about = 0 := by
  refine .bind (.perform rfl) fun sums => ?_
  dsimp only
  split
  · exact .ret _
  · split <;> exact .ret _

theorem costs_attemptExtract (vendorHint : String) :
    (attemptExtract env vendorHint).Costs (Op.efforts about) {.called} :=
  Program.Costs.thenFree (.perform le_rfl) fun _ => .bind (.ofExcept _) fun _ => .ret _

/-- An invalid answer is asked for once more. -/
theorem costs_completeExtract (vendorHint : String) :
    (completeExtract env vendorHint).Costs (Op.efforts about) {.called, .called} := by
  refine .mono (.tryCatch (costs_attemptExtract env about vendorHint) (m := {.called}) fun firstErr => ?_) (by decide)
  split
  · refine .mono (.tryCatch (costs_attemptExtract env about vendorHint) (m := 0) fun secondErr => ?_) (by decide)
    split <;> exact .raise _
  · exact .raise _

theorem audited_le (eventId : EventId) (source : Source) (costEstimate : Rat) (decision : String) :
    (Op.insertAudit eventId source costEstimate decision).efforts about ≤ {.audited} := by
  show (if eventId = about then {.audited} else 0) ≤ ({.audited} : Multiset Effort)
  split
  · exact le_rfl
  · exact Multiset.zero_le _

theorem costs_classifyExtract (eventId : EventId) (vendorHint : String) (payload : JsonObject) :
    (classifyExtract env settings eventId vendorHint payload).Costs (Op.efforts about)
      {.called, .called, .cached, .audited} := by
  refine .free (.perform rfl) fun cached => ?_
  cases cached with
  | some cached => exact .mono (.thenFree (.perform (audited_le about _ _ _ _)) fun _ => .ret _) (by decide)
  | none =>
    refine .free (free_allow settings about vendorHint _) fun allowed => ?_
    split
    · refine .mono (.bind (costs_completeExtract env about vendorHint) (m := {.cached} + {.audited})
        fun answer => ?_) (by decide)
      exact .bind (.perform le_rfl) fun _ => .thenFree (.perform (audited_le about _ _ _ _)) fun _ => .ret _
    · exact .raise _

theorem costs_classifyEventType (vendorId rawEventType : String) :
    (classifyEventType env settings vendorId rawEventType).Costs (Op.efforts about) {.called, .cached} := by
  refine .free (.perform rfl) fun cached => ?_
  cases cached with
  | some cached => exact .ofExcept _
  | none =>
    refine .free (free_allow settings about vendorId _) fun allowed => ?_
    split
    · refine .mono (.bind (.tryCatch (.map (.perform (n := {.called}) le_rfl)) (m := 0) fun _ => .ret _)
        (m := {.cached}) fun answer => ?_) (by decide)
      cases answer with
      | none => exact .ret _
      | some result =>
        dsimp only
        split
        · exact .ret _
        · exact .thenFree (.perform le_rfl) fun _ => .ofExcept _
    · exact .ret _

theorem costs_resolveEventType (vendorId rawEventType : String) :
    (resolveEventType env settings vendorId rawEventType).Costs (Op.efforts about) {.called, .cached, .mapped} := by
  refine .free (.perform rfl) fun mapping => ?_
  cases mapping with
  | some mapping => exact .ret _
  | none =>
    refine .mono (.bind (costs_classifyEventType env settings about vendorId rawEventType) (m := {.mapped})
      fun answer => ?_) (by decide)
    match answer with
    | none => exact .ret _
    | some (classification, canonicalState, confidence) =>
      exact .thenFree (.perform le_rfl) fun _ => .bind (.ofExcept _) fun _ => .bind (.ofExcept _) fun _ => .ret _

theorem free_extractionSucceeded (eventId : EventId) (schemaId : SchemaId) (canonical : CanonicalEvent) :
    (extractionSucceeded eventId schemaId canonical).Every fun o => o.efforts about = 0 :=
  .bind (.perform rfl) fun _ => .bind (.perform rfl) fun _ => .ret _

/-- Path A asks for nothing but the event type. -/
theorem costs_processViaSchema (eventId : EventId) (vendorId : String) (payload : JsonObject)
    (schemaMatch : SchemaMatch) :
    (processViaSchema env settings eventId vendorId payload schemaMatch).Costs (Op.efforts about)
      {.called, .cached, .mapped} := by
  unfold processViaSchema
  refine .free (.ofExcept _) fun extraction => ?_
  dsimp only
  split
  · exact .of_every (free_extractionSucceeded about _ _ _)
  · split
    · exact .ret _
    · refine .thenFree (costs_resolveEventType env settings about vendorId _) fun resolved => ?_
      cases resolved with
      | none => exact .ret _
      | some resolved =>
        refine .bind (.ofExcept _) fun extraction => ?_
        split
        · exact free_extractionSucceeded about _ _ _
        · exact .ret _

theorem costs_universalNormalize (eventId : EventId) (vendorHint : String) (payload : JsonObject) :
    (universalNormalize env settings eventId vendorHint payload).Costs (Op.efforts about)
      {.called, .called, .cached, .audited} := by
  refine .thenFree (.mono (.tryCatch (.map (costs_classifyExtract env settings about eventId _ payload)) (m := 0)
    fun e => ?_) (by decide)) fun answer => ?_
  · cases e with
    | budgetExceeded | llmValidationError => exact .ret _
    | _ => exact .raise _
  · cases answer with
    | error result => exact .ret _
    | ok outcome =>
      dsimp only
      split
      · exact .ret _
      · split
        · exact .ret _
        · exact .raise _

theorem costs_discoverAndPersist (vendorId : String) (payload llmOutput : JsonObject) (eventId : EventId) :
    (discoverAndPersist env vendorId payload llmOutput eventId).Costs (Op.efforts about) {.learned, .mapped} := by
  refine .free (.ofExcept _) fun schemaDoc => ?_
  cases schemaDoc with
  | none => exact .ret _
  | some schemaDoc =>
    refine .mono (.bind (.perform (n := {.learned}) le_rfl) (m := {.mapped}) fun schemaId => ?_) (by decide)
    cases schemaId with
    | none => exact .raise _
    | some schemaId =>
      refine .free (.ofExcept _) fun rawEventType => .thenFree ?_ fun _ => .bind (.perform rfl) fun _ => .ret _
      unfold persistLessonType
      split
      · split
        · exact .perform le_rfl
        · exact .ret _
      · exact .ret _

theorem free_finalizeEvent (eventId : EventId) (vendorId : String) (canonical : CanonicalEvent) :
    (finalizeEvent eventId vendorId canonical).Every fun o => o.efforts about = 0 := by
  unfold finalizeEvent
  split
  · exact .bind (.perform rfl) fun _ => .ret _
  · exact .bind (.perform rfl) fun _ => .ret _
  · exact .raise _

theorem costs_processViaLLM (eventId : EventId) (vendorId : String) (payload : JsonObject) :
    (processViaLLM env settings eventId vendorId payload).Costs (Op.efforts about)
      {.called, .called, .cached, .audited, .learned, .mapped} := by
  refine .mono (.bind (costs_universalNormalize env settings about eventId vendorId payload) (m := {.learned, .mapped})
    fun result => ?_) (by decide)
  cases result with
  | ok canonical outcome =>
    dsimp only
    split
    · refine .thenFree ?_ fun _ => free_finalizeEvent about eventId vendorId canonical
      exact .mono (.tryCatch (costs_discoverAndPersist env about vendorId payload outcome.data eventId) (m := 0)
        fun _ => .ret _) (by decide)
    · exact .of_every (free_finalizeEvent about eventId vendorId canonical)
  | deferred => exact .of_every (.bind (.perform rfl) fun _ => .ret _)
  | unsupported reason => exact .of_every (.bind (.perform rfl) fun _ => .ret _)

/-- What a job for an event may add. -/
def jobEfforts : Multiset Effort :=
  {.called, .called, .called, .cached, .cached, .audited, .learned, .mapped, .mapped}

/-- **What processing an event may cost**: Path A may have been tried before Path B. -/
theorem costs_processEvent (eventId : EventId) :
    (processEvent env settings eventId).Costs (Op.efforts about) jobEfforts := by
  refine .free (.perform rfl) fun row => ?_
  cases row with
  | none => exact .ret _
  | some row =>
    refine .free (.perform rfl) fun schemaMatch => ?_
    cases schemaMatch with
    | none => exact (costs_processViaLLM env settings about eventId _ row.payload).mono (by decide)
    | some schemaMatch =>
      refine .mono (.bind (costs_processViaSchema env settings about eventId _ row.payload schemaMatch)
        (m := {.called, .called, .cached, .audited, .learned, .mapped}) fun event => ?_) (by decide)
      cases event with
      | some event => exact .of_every (free_finalizeEvent about eventId _ event)
      | none => exact .free (.perform rfl) fun _ => costs_processViaLLM env settings about eventId _ row.payload

/-- What a delivery may add. -/
def deliveryEfforts : Multiset Effort := {.received, .enqueued}

theorem costs_receive (vendorId : Option VendorPath) (request : Request) :
    (receive env settings vendorId request).Costs (Op.efforts about) deliveryEfforts := by
  unfold receive ingest
  refine .free (.ofExcept _) fun payload => .free (.ofExcept _) fun signatureVerified => ?_
  refine .mono (.bind (.perform (n := {.received}) le_rfl) (m := {.enqueued}) fun inserted => ?_) (by decide)
  cases inserted with
  | none => exact .ret _
  | some inserted => exact .free (.perform rfl) fun _ => .thenFree (.perform le_rfl) fun _ => .ret _

end Walk

/-! ### What an operation adds -/

/-- **An operation adds no more than its efforts.** -/
theorem spent_handle (about : EventId) (o : Op) (w : World) (e : Effort) :
    (o.handle w).2.spent about e ≤ w.spent about e + (o.efforts about).count e := by
  cases o with
  | insertRawEvent eventId vendorId payload headers signatureVerified =>
    have hinsert := length_insert_le w.db.rawEvents eventId
      ⟨vendorId, payload, headers, signatureVerified, .queued, none⟩
    rw [Op.handle]
    split
    · exact Nat.le_add_right _ _
    · cases e with
      | received => exact hinsert
      | _ => exact Nat.le_add_right _ _
  | enqueue eventId =>
    rw [Op.handle]
    split
    · cases e with
      | enqueued | called => simp [World.spent, Mark.efforts, Op.efforts]
      | _ => exact Nat.le_add_right _ _
    · exact Nat.le_add_right _ _
  | complete vendorId =>
    rw [Op.handle]
    split <;> cases e with
      | enqueued | called => simp [World.spent, Mark.efforts, Op.efforts]
      | _ => exact Nat.le_add_right _ _
  | note mark =>
    cases e with
    | enqueued | called =>
      cases mark <;> simp [World.spent, Op.handle, Op.efforts, Mark.efforts]
    | _ => exact Nat.le_add_right _ _
  | upsertSchema vendorId fingerprint schemaDoc eventId =>
    simp only [Op.handle, Database.upsertSchema]
    split
    · rename_i row hrow
      have hinsert := length_insert_le w.db.vendorSchemas ⟨vendorId, fingerprint, 1⟩ row
      cases e with
      | learned => exact hinsert
      | _ => exact Nat.le_add_right _ _
    · exact Nat.le_add_right _ _
  | upsertEventType vendorId rawEventType classification canonicalState confidence =>
    simp only [Op.handle, Database.upsertEventType]
    split
    · rename_i classification canonicalState confidence _ _ _
      have hinsert := length_insert_le w.db.vendorEventTypeMap (vendorId, rawEventType)
        ⟨classification, canonicalState, confidence, false⟩
      split
      · split
        · exact Nat.le_add_right _ _
        · cases e with
          | mapped => exact hinsert
          | _ => exact Nat.le_add_right _ _
      · cases e with
        | mapped => exact hinsert
        | _ => exact Nat.le_add_right _ _
    · exact Nat.le_add_right _ _
  | insertEventType vendorId rawEventType classification canonicalState =>
    have hinsert := length_insert_le w.db.vendorEventTypeMap (vendorId, rawEventType)
      ⟨classification, canonicalState, some (85 / 100), false⟩
    simp only [Op.handle, Database.insertEventType]
    split
    · exact Nat.le_add_right _ _
    · cases e with
      | mapped => exact hinsert
      | _ => exact Nat.le_add_right _ _
  | insertCache cacheKey entry =>
    simp only [Op.handle, Database.insertCache]
    split
    · rename_i row _
      have hinsert := length_insert_le w.db.llmCache cacheKey row
      split
      · exact Nat.le_add_right _ _
      · cases e with
        | cached => exact hinsert
        | _ => exact Nat.le_add_right _ _
    · exact Nat.le_add_right _ _
  | insertAudit eventId source costEstimate decision =>
    rw [Op.handle]
    split
    · cases e with
      | audited =>
        by_cases hid : eventId = about <;> simp [World.spent, Database.insertAudit, Op.efforts, hid]
      | _ => exact Nat.le_add_right _ _
    · exact Nat.le_add_right _ _
  | finalize eventId canonical =>
    rw [Op.handle]
    split
    · cases e with
      | received => exact (length_updateRows _ _).le
      | _ => exact Nat.le_add_right _ _
    · exact Nat.le_add_right _ _
  | incrementSuccess | incrementFailure =>
    cases e with
    | learned => exact (length_updateRows _ _).le
    | _ => exact Nat.le_add_right _ _
  | markReview | markPendingLlm | markFailed | truncate =>
    cases e with
    | received => exact (length_updateRows _ _).le
    | _ => exact Nat.le_add_right _ _
  | _ => exact Nat.le_add_right _ _

/-! ### What there is in all -/

/-- A delivery. -/
def ServiceJob.Delivers : ServiceJob → Prop
  | .receive .. => True
  | _ => False

/-- A job for an event. -/
def ServiceJob.Processes (eventId : EventId) : ServiceJob → Prop
  | .work id | .replay id => id = eventId
  | _ => False

/-- A job for any event. -/
def ServiceJob.Works (job : ServiceJob) : Prop := ∃ eventId, job.Processes eventId

/-- What a job may add. -/
def ServiceJob.efforts : ServiceJob → Multiset Effort
  | .receive .. => deliveryEfforts
  | .work _ | .replay _ => jobEfforts
  | .truncate => 0

section Runs
variable (env : Externals) (settings : Settings) (about : EventId)

theorem costs_program (job : ServiceJob) : (job.program env settings).Costs (Op.efforts about) job.efforts := by
  cases job with
  | receive vendorId request => exact .map (costs_receive env settings about vendorId request)
  | work eventId =>
    refine .map (.mono (.tryCatch (costs_processEvent env settings about eventId) (m := 0) fun exc => ?_)
      (add_zero jobEfforts).le)
    exact .of_every (.bind (.perform rfl) fun _ => .raise _)
  | replay eventId => exact .map (costs_processEvent env settings about eventId)
  | truncate => exact .of_every (.map (.perform rfl))

/-- One effort of a job. -/
theorem costs_effort (job : ServiceJob) (e : Effort) :
    (job.program env settings).Costs (fun o => (o.efforts about).count e) (job.efforts.count e) :=
  (costs_program env settings about job).part (Multiset.countAddMonoidHom e)
    fun _ _ hle => Multiset.count_le_of_le e hle

/-- A job audits nothing for other events. -/
theorem unaudited_processEvent {eventId : EventId} (hne : eventId ≠ about) :
    (processEvent env settings eventId).Every fun o => (o.efforts about).count .audited = 0 := by
  refine .bind (.perform rfl) fun row => ?_
  cases row with
  | none => exact .ret _
  | some row =>
    refine (serves_processRow env settings eventId row).mono fun o hserves => ?_
    cases o with
    | insertAudit id =>
      obtain rfl : id = eventId := hserves
      simp [Op.efforts, hne]
    | note mark => cases mark <;> simp [Op.efforts, Mark.efforts]
    | _ => simp [Op.efforts]

variable {mayLose : Op → Prop} {C : Op → World → Prop} {ι : Type} [DecidableEq ι]

variable {about} in
/-- **Jobs of one kind pay for everything of an effort** that only they make. -/
theorem spent_le {c : ServiceConfig ι} (h : (service env settings mayLose).Reaches C (.idle World.start) c)
    {kind : ServiceJob → Prop} {e : Effort} {n : ℕ}
    (hcosts : ∀ job, kind job → (job.program env settings).Costs (fun o => (o.efforts about).count e) n)
    (hfree : ∀ job, ¬ kind job → (job.program env settings).Costs (fun o => (o.efforts about).count e) 0) :
    c.state.spent about e ≤ c.count kind * n := by
  have hstart : World.start.spent about e = 0 := by
    cases e <;> rfl
  have hrise : ∀ o w r w', (service env settings mayLose).Answers o w r w' →
      w'.spent about e ≤ w.spent about e + (o.efforts about).count e := by
    intro o w r w' hanswers
    cases hanswers with
    | done => exact spent_handle about o w e
    | failed => exact Nat.le_add_right _ _
    | lost => exact spent_handle about o w e
  have houtside : ∀ w w', (service env settings mayLose).outside w w' → w'.spent about e ≤ w.spent about e := by
    intro w w' hsame
    have hspent : w'.spent about e = w.spent about e := by
      unfold World.spent
      rw [hsame.1, hsame.2]
    exact hspent.le
  have hle := System.measure_le hrise houtside hcosts hfree h
  rw [hstart, zero_add, smul_eq_mul] at hle
  exact hle

variable {env settings} in
/-- **Nothing grows faster than what the service was given to do**: a delivery stores one raw
event and enqueues one job; a job calls the provider three times, audits one answer, and leaves
two answers in the cache, one schema and two mappings, at most.  So it is whatever runs beside
each other, fails after it took effect, or is retried. -/
theorem no_amplification {c : ServiceConfig ι}
    (h : (service env settings mayLose).Reaches C (.idle World.start) c) :
    c.state.db.rawEvents.entries.length ≤ c.count ServiceJob.Delivers ∧
      (c.state.trace.countP fun mark => .enqueued ∈ mark.efforts) ≤ c.count ServiceJob.Delivers ∧
      (c.state.trace.countP fun mark => .called ∈ mark.efforts) ≤ c.count ServiceJob.Works * 3 ∧
      c.state.db.llmCache.entries.length ≤ c.count ServiceJob.Works * 2 ∧
      c.state.db.vendorSchemas.entries.length ≤ c.count ServiceJob.Works ∧
      c.state.db.vendorEventTypeMap.entries.length ≤ c.count ServiceJob.Works * 2 ∧
      ∀ eventId, (c.state.db.llmAudit.countP fun row => row.eventId = eventId) ≤
        c.count (ServiceJob.Processes eventId) := by
  have hdelivers : ∀ e, jobEfforts.count e = 0 →
      c.state.spent "" e ≤ c.count ServiceJob.Delivers * deliveryEfforts.count e := by
    intro e hjob
    refine spent_le env settings h (fun job hkind => ?_) fun job hkind => ?_
    · cases job with
      | receive => exact costs_effort env settings "" _ e
      | _ => exact hkind.elim
    · have hcosts := costs_effort env settings "" job e
      cases job with
      | receive => exact absurd trivial hkind
      | work | replay => exact hcosts.mono hjob.le
      | truncate => exact hcosts.mono (Nat.zero_le _)
  have hworks : ∀ e, deliveryEfforts.count e = 0 →
      c.state.spent "" e ≤ c.count ServiceJob.Works * jobEfforts.count e := by
    intro e hdelivery
    refine spent_le env settings h (fun job hkind => ?_) fun job hkind => ?_
    · have hcosts := costs_effort env settings "" job e
      cases job with
      | work | replay => exact hcosts
      | _ => exact hkind.elim fun _ hprocesses => hprocesses.elim
    · have hcosts := costs_effort env settings "" job e
      cases job with
      | receive => exact hcosts.mono hdelivery.le
      | work id | replay id => exact absurd ⟨id, rfl⟩ hkind
      | truncate => exact hcosts
  have haudits : ∀ eventId, c.state.spent eventId .audited ≤ c.count (ServiceJob.Processes eventId) * 1 := by
    intro eventId
    refine spent_le env settings h (fun job hkind => ?_) fun job hkind => ?_
    · have hcosts := costs_effort env settings eventId job .audited
      cases job with
      | work | replay => exact hcosts
      | _ => exact hkind.elim
    · have hcosts := costs_effort env settings eventId job .audited
      cases job with
      | receive | truncate => exact hcosts
      | work id =>
        have hfree := unaudited_processEvent env settings eventId hkind
        exact .of_every (.map (.tryCatch hfree fun exc => .bind (.perform rfl) fun _ => .raise _))
      | replay id => exact .of_every (.map (unaudited_processEvent env settings eventId hkind))
  refine ⟨?_, ?_, hworks .called rfl, hworks .cached rfl, ?_, hworks .mapped rfl, fun eventId => ?_⟩
  · exact (hdelivers .received rfl).trans_eq (Nat.mul_one _)
  · exact (hdelivers .enqueued rfl).trans_eq (Nat.mul_one _)
  · exact (hworks .learned rfl).trans_eq (Nat.mul_one _)
  · exact (haudits eventId).trans_eq (Nat.mul_one _)

end Runs

/-- The issued invoice was delivered, and processed. -/
theorem issued_efforts : ∃ c : ServiceConfig Nat,
    c.state = issuedWorld (some "globalfreightpay") false "2026-04-28T05:00:00Z" ∧
      1 ≤ c.count ServiceJob.Delivers ∧ 1 ≤ c.count ServiceJob.Works := by
  obtain ⟨c, hreaches, hstate⟩ := reaches_issued
  obtain ⟨hreceived, -, -, hcached, -⟩ := no_amplification hreaches
  rw [hstate] at hreceived hcached
  refine ⟨c, hstate, hreceived, ?_⟩
  by_contra hnone
  have hzero : c.count ServiceJob.Works = 0 := by omega
  rw [hzero] at hcached
  exact absurd hcached (by decide)

end WebhookIngestion
