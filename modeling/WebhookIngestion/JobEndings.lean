import WebhookIngestion.ReplayCommand

/-! # How jobs end

A job of the queue that has returned has settled its event with the last thing it did, under the
outcome it returned, and with nothing before; one that has raised has reported the failure with
the last thing it did, and whatever it had tried to settle was not confirmed to it.  So it is
whatever else runs and wherever operations fail or answers are lost (`ended_jobs_settled`). -/
namespace WebhookIngestion
open Tables Programs

/-- What settles an event. -/
def Op.IsSettlement : Op → Prop
  | .finalize .. | .markReview .. | .markPendingLlm .. => True
  | _ => False

/-- What was performed settles the event, under an outcome. -/
inductive SettledAs (eventId : EventId) : ProcessOutcome → Performed PyError Op Op.Result → Prop
  | finalized (canonical : CanonicalEvent) (verdict : ApplyOutcome) :
      SettledAs eventId (.finalized verdict) ⟨.finalize eventId canonical, .ok verdict⟩
  | pendingLlm : SettledAs eventId .pendingLlm ⟨.markPendingLlm eventId "llm_budget_exceeded", .ok ()⟩
  | requiresReview (reason : String) : SettledAs eventId .requiresReview ⟨.markReview eventId reason, .ok ()⟩

/-- Nothing has settled the event so far. -/
def Unsettled (past : Past) : Prop := ∀ done ∈ past, ¬ done.op.IsSettlement

/-- Nothing has settled the event so far as the job was told. -/
def Unconfirmed (past : Past) : Prop := ∀ done ∈ past, done.op.IsSettlement → ∃ e, done.answer = .error e

/-- **How the processing of an event ends.** -/
def ProcessingEnds (eventId : EventId) (past : Past) : Except PyError ProcessOutcome → Prop
  | .ok outcome =>
    outcome = .notFound ∧ past = [⟨.selectRawEvent eventId, .ok none⟩] ∨
      ∃ done before, past = done :: before ∧ SettledAs eventId outcome done ∧ Unsettled before
  | .error _ => Unconfirmed past

section Walk
variable (env : Externals) (settings : Settings) {past : Past}

theorem Unsettled.unconfirmed (h : Unsettled past) : Unconfirmed past :=
  fun done hm hsettlement => absurd hsettlement (h done hm)

theorem Unsettled.cons (h : Unsettled past) {o : Op} (ho : ¬ o.IsSettlement) (answer : Except PyError o.Result) :
    Unsettled (⟨o, answer⟩ :: past) := by
  intro done hm
  rcases List.mem_cons.mp hm with rfl | hm
  · exact ho
  · exact h done hm

/-- A settlement that has failed is not confirmed. -/
theorem Unsettled.failed (h : Unsettled past) (o : Op) (e : PyError) : Unconfirmed (⟨o, .error e⟩ :: past) := by
  intro done hm hsettlement
  rcases List.mem_cons.mp hm with rfl | hm
  · exact ⟨e, rfl⟩
  · exact absurd hsettlement (h done hm)

/-- Programs without settlements settle nothing. -/
theorem unsettled_of_every {α : Type} {p : Job α} (hp : p.Every fun o => ¬ o.IsSettlement) (h : Unsettled past) :
    p.Obeys (fun _ _ => True) (fun past' _ => Unsettled past') past := by
  refine (hp.obeys past).weaken (fun _ _ _ => trivial) ?_
  rintro past' - ⟨new, rfl, hnew⟩ done hm
  rcases List.mem_append.mp hm with hm | hm
  · exact hnew done hm
  · exact h done hm

theorem Op.Asking.not_settlement {o : Op} (h : o.Asking) : ¬ o.IsSettlement := by
  cases o <;> first | exact h.elim | exact fun hsettlement => hsettlement.elim

theorem Op.Learning.not_settlement {o : Op} (h : o.Learning) : ¬ o.IsSettlement := by
  cases o <;> first | exact h.elim | exact fun hsettlement => hsettlement.elim

/-- An operation that settles the event is the last one, if it is answered. -/
theorem ends_settlement {eventId : EventId} {o : Op} (h : Unsettled past) {outcome : o.Result → ProcessOutcome}
    (hsettles : ∀ a, SettledAs eventId (outcome a) ⟨o, .ok a⟩) :
    (do let a ← .perform o; return outcome a : Job ProcessOutcome).Obeys (fun _ _ => True)
      (ProcessingEnds eventId) past := by
  refine .bind (R := fun past' r => ProcessingEnds eventId past' (r.map outcome)) (.perform trivial fun r => ?_)
    (fun _ _ hends => hends) fun _ _ hends => hends
  cases r with
  | ok a => exact .inr ⟨_, past, rfl, hsettles a, h⟩
  | error e => exact h.failed o e

theorem ends_finalizeEvent {eventId : EventId} (h : Unsettled past) (vendorId : String) (event : CanonicalEvent) :
    (finalizeEvent eventId vendorId event).Obeys (fun _ _ => True) (ProcessingEnds eventId) past := by
  unfold finalizeEvent
  split
  · exact ends_settlement h fun verdict => .finalized _ verdict
  · exact ends_settlement h fun _ => .requiresReview _
  · exact h.unconfirmed

theorem ends_processViaLLM {eventId : EventId} (h : Unsettled past) (vendorId : String) (payload : JsonObject) :
    (processViaLLM env settings eventId vendorId payload).Obeys (fun _ _ => True) (ProcessingEnds eventId) past := by
  refine .bind (unsettled_of_every ((every_universalNormalize env settings eventId vendorId payload).mono
    fun _ ho => ho.not_settlement) h) (fun past result h => ?_) fun past e h => h.unconfirmed
  cases result with
  | ok event outcome =>
    dsimp only
    split
    · have hlearns : ((discoverAndPersist env vendorId payload outcome.data eventId).tryCatch
          fun _ => return none).Every fun o => ¬ o.IsSettlement :=
        .tryCatch ((every_discoverAndPersist env vendorId payload outcome.data eventId).mono
          fun _ ho => ho.not_settlement) fun _ => .ret _
      exact .bind (unsettled_of_every hlearns h) (fun past _ h => ends_finalizeEvent h vendorId event)
        fun past e h => h.unconfirmed
    · exact ends_finalizeEvent h vendorId event
  | deferred => exact ends_settlement h fun _ => .pendingLlm
  | unsupported reason => exact ends_settlement h fun _ => .requiresReview reason

/-- Path A asks for the event type, and counts. -/
theorem every_processViaSchema (eventId : EventId) (vendorId : String) (payload : JsonObject)
    (schemaMatch : SchemaMatch) :
    (processViaSchema env settings eventId vendorId payload schemaMatch).Every fun o => ¬ o.IsSettlement := by
  have hsucceeded : ∀ event, (extractionSucceeded eventId schemaMatch.schemaId event).Every
      fun o => ¬ o.IsSettlement := fun event =>
    .bind (.perform fun hsettlement => hsettlement) fun _ => .bind (.perform fun hsettlement => hsettlement) fun _ =>
      .ret _
  have hasks := fun rawEventType => (every_classifyEventType env settings vendorId rawEventType).mono
    fun _ ho => ho.not_settlement
  unfold processViaSchema
  refine .bind (.ofExcept _) fun extraction => ?_
  dsimp only
  split
  · exact hsucceeded _
  · split
    · exact .ret _
    · refine .bind (.bind (.perform fun hsettlement => hsettlement) fun mapping => ?_) fun resolved => ?_
      · cases mapping with
        | some mapping => exact .ret _
        | none =>
          refine .bind (hasks _) fun answer => ?_
          match answer with
          | none => exact .ret _
          | some (classification, canonicalState, confidence) =>
            exact .bind (.perform fun hsettlement => hsettlement) fun _ => .bind (.ofExcept _) fun _ =>
              .bind (.ofExcept _) fun _ => .ret _
      · cases resolved with
        | none => exact .ret _
        | some resolved =>
          refine .bind (.ofExcept _) fun extraction => ?_
          split
          · exact hsucceeded _
          · exact .ret _

theorem ends_processRow {eventId : EventId} (h : Unsettled past) (row : RawEvent) :
    (processRow env settings eventId row).Obeys (fun _ _ => True) (ProcessingEnds eventId) past := by
  have hquiet : ∀ (past : Past) {o : Op}, ¬ o.IsSettlement → Unsettled past →
      (Program.perform o : Job o.Result).Obeys (fun _ _ => True) (fun past' _ => Unsettled past') past :=
    fun past o ho h => unsettled_of_every (.perform ho) h
  refine .bind (hquiet past (o := Op.selectSchema _ _) (fun hsettlement => hsettlement) h)
    (fun past schemaMatch h => ?_) fun past e h => h.unconfirmed
  cases schemaMatch with
  | none => exact ends_processViaLLM env settings h _ row.payload
  | some schemaMatch =>
    refine .bind (unsettled_of_every (every_processViaSchema env settings eventId _ row.payload schemaMatch) h)
      (fun past event h => ?_) fun past e h => h.unconfirmed
    cases event with
    | some event => exact ends_finalizeEvent h _ event
    | none =>
      exact .bind (hquiet past (o := Op.incrementFailure _) (fun hsettlement => hsettlement) h)
        (fun past _ h => ends_processViaLLM env settings h _ row.payload) fun past e h => h.unconfirmed

theorem ends_processEvent (eventId : EventId) :
    (processEvent env settings eventId).Obeys (fun _ _ => True) (ProcessingEnds eventId) [] := by
  have hnothing : Unsettled [] := fun done hm => by cases hm
  refine .bind (R := fun past r => past = [⟨.selectRawEvent eventId, r⟩]) (.perform trivial fun r => ?_)
    (fun past row hpast => ?_) fun past e hpast => ?_
  · cases r <;> rfl
  · subst hpast
    have h : Unsettled [⟨.selectRawEvent eventId, .ok row⟩] :=
      hnothing.cons (o := Op.selectRawEvent eventId) (fun hsettlement => hsettlement) _
    cases row with
    | none => exact .inl ⟨rfl, rfl⟩
    | some row => exact ends_processRow env settings h row
  · subst hpast
    exact (hnothing.cons (o := Op.selectRawEvent eventId) (fun hsettlement => hsettlement) _).unconfirmed

/-- The error as it is written to the event's row. -/
def failureText (exc : PyError) : String := String.ofList ((env.errorText exc).toList.take 500)

/-- **How a job of the queue ends.** -/
def WorkEnds (eventId : EventId) (past : Past) : Except PyError ProcessOutcome → Prop
  | .ok outcome => ProcessingEnds eventId past (.ok outcome)
  | .error e => ∃ exc before, (past = ⟨.markFailed eventId (failureText env exc), .ok ()⟩ :: before ∧ e = exc ∨
      past = ⟨.markFailed eventId (failureText env exc), .error e⟩ :: before) ∧ Unconfirmed before

/-- An exception is reported last, and raised again unless the report has failed. -/
theorem ends_processWebhook (eventId : EventId) :
    (processWebhook env settings eventId).Obeys (fun _ _ => True) (WorkEnds env eventId) [] := by
  refine .tryCatch (ends_processEvent env settings eventId) (fun past outcome hends => hends) fun past exc hends => ?_
  refine ⟨trivial, fun r => ?_⟩
  cases r with
  | ok _ => exact ⟨exc, past, .inl ⟨rfl, rfl⟩, hends⟩
  | error e => exact ⟨exc, past, .inr rfl, hends⟩

variable {env settings}
variable {mayLose : Op → Prop} {C : Op → World → Prop} {ι : Type} [DecidableEq ι]

/-- What jobs of the queue end with. -/
def QueueEnds (env : Externals) : ServiceJob → Past → Except PyError ServiceResult → Prop
  | .work eventId, past, .ok result => ∃ outcome, result = .processed outcome ∧ WorkEnds env eventId past (.ok outcome)
  | .work eventId, past, .error exc => WorkEnds env eventId past (.error exc)
  | _, _, _ => True

theorem ends_program (job : ServiceJob) :
    (job.program env settings).Obeys (fun _ _ => True) (QueueEnds env job) [] := by
  cases job with
  | work eventId =>
    exact .map (ends_processWebhook env settings eventId) (fun past outcome hends => ⟨outcome, rfl, hends⟩)
      fun past exc hends => hends
  | receive | replay | truncate => exact (Program.Obeys.grows _ []).weaken (fun _ _ _ => trivial) fun _ _ _ => trivial

/-- **A job that has ended has said what became of its event**: it has returned the outcome under
which the event was settled by the last operation, and nothing else has settled it before, or
there was no such event; or it has raised what it was stopped by, and its last operation was to
report that, or it has raised what the report itself was stopped by; and nothing that it did
before was confirmed to have settled the event. -/
theorem ended_jobs_settled {c : ServiceConfig ι} {w : World}
    (h : (service env settings mayLose).Reaches C (.idle w) c) {i : ι} {eventId : EventId} {past : Past}
    {r : Except PyError ServiceResult} (htask : c.tasks i = some ⟨.work eventId, past, .ofExcept r⟩) :
    (∀ result, r = .ok result → ∃ outcome, result = .processed outcome ∧
        (outcome = .notFound ∧ past = [⟨.selectRawEvent eventId, .ok none⟩] ∨
          ∃ done before, past = done :: before ∧ SettledAs eventId outcome done ∧ Unsettled before)) ∧
      ∀ e, r = .error e → ∃ exc before,
        (past = ⟨.markFailed eventId (failureText env exc), .ok ()⟩ :: before ∧ e = exc ∨
          past = ⟨.markFailed eventId (failureText env exc), .error e⟩ :: before) ∧ Unconfirmed before := by
  have hends := h.obeys (@ends_program env settings) (System.obeys_idle w) i _ htask
  constructor
  · rintro result rfl
    exact hends
  · rintro e rfl
    exact hends

end Walk

/-- A job that is left alone ends with what it returns. -/
theorem reaches_worked {env : Externals} {settings : Settings} {mayLose : Op → Prop} {eventId : EventId}
    {outcome : ProcessOutcome} {w w' : World}
    (h : Job.run (processWebhook env settings eventId) w = (.ok outcome, w')) :
    ∃ (c : ServiceConfig Nat) (past : Past),
      (service env settings mayLose).Reaches (fun _ _ => True) (.idle w) c ∧
        c.tasks 0 = some ⟨.work eventId, past, .ofExcept (.ok (.processed outcome))⟩ := by
  obtain ⟨past, hreaches⟩ := System.reaches_alone (S := service env settings mayLose)
    (.idle w : ServiceConfig Nat) (i := 0) rfl (.work eventId)
  have hrun : Program.run Op.handle (ServiceJob.program env settings (.work eventId)) w =
      (.ok (.processed outcome), w') :=
    Program.run_map_of_ok Op.handle h ServiceResult.processed
  refine ⟨_, past, hreaches, ?_⟩
  rw [Config.tasks_put_self]
  show some (Task.mk (ServiceJob.work eventId) past
    (.ofExcept (Program.run Op.handle (ServiceJob.program env settings (.work eventId)) w).1)) = _
  rw [hrun]

/-- A job for the strange invoice defers it, as the last thing it does. -/
theorem strangeJob_settled : ∃ (c : ServiceConfig Nat) (past : Past),
    c.tasks 0 = some ⟨.work "e", past, .ofExcept (.ok (.processed .pendingLlm))⟩ ∧
      ∃ done before, past = done :: before ∧ SettledAs "e" .pendingLlm done ∧ Unsettled before := by
  let job := processWebhook (Externals.ofTables [] [] [] []) withoutBudget "e"
  have hfirst : (Job.run job strangeReceived).1 = .ok .pendingLlm := by
    decide +kernel
  have hrun : Job.run job strangeReceived = (.ok .pendingLlm, (Job.run job strangeReceived).2) := by
    generalize Job.run job strangeReceived = step at hfirst ⊢
    exact Prod.ext hfirst rfl
  obtain ⟨c, past, hreaches, htask⟩ := @reaches_worked _ _ (fun _ => True) _ _ _ _ hrun
  obtain ⟨outcome, hresult, ⟨rfl, -⟩ | hsettled⟩ := (ended_jobs_settled hreaches htask).1 _ rfl
  · cases hresult
  · cases hresult
    exact ⟨c, past, htask, hsettled⟩

end WebhookIngestion
