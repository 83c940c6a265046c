import WebhookIngestion.ConcurrentDeliveries

/-! # The review queue

`requires_human_review` lists the events that wait for a person; their rows of
`raw_events` say that they do, and why.  The queue is exact where the two tables agree
(`QueueExact`).  From such a state an operation leads to such a state in the one case
that `KeepsQueue` names, and so do jobs that perform no other operation, in whatever order
and wherever they fail (`queue_exact`).  An event that was in review and is processed
after all stays on the list (`processed_event_listed`). -/
namespace WebhookIngestion
open Tables Programs

/-! ### The two tables -/

/-- An event's reason for review and its raw event, if any, say the same. -/
def InQueue (review : Option String) (row : Option RawEvent) : Prop :=
  (review.isSome ↔ ∃ raw ∈ row, raw.processingStatus = .review) ∧
    ∀ reason ∈ review, ∀ raw ∈ row, raw.processingError = some reason

/-- **The review queue is exact**: an event is on the list if and only if its status is
`review`, for the reason that is its error. -/
def QueueExact (db : Database) : Prop :=
  ∀ eventId, InQueue (db.requiresHumanReview.lookup eventId) (db.rawEvents.lookup eventId)

section InQueue
variable {review : Option String} {raw : RawEvent}

theorem inQueue_none : InQueue review none ↔ review = none := by
  simp [InQueue]

/-- An event that is not in review is in the queue as it should be when it is not there. -/
theorem inQueue_of_ne (hstatus : raw.processingStatus ≠ .review) :
    InQueue review (some raw) ↔ review = none := by
  simp only [InQueue, Option.mem_some_iff, exists_eq_left', hstatus, iff_false, Bool.not_eq_true,
    Option.isSome_eq_false_iff, Option.isNone_iff_eq_none, forall_eq']
  refine ⟨fun h => h.1, ?_⟩
  rintro rfl
  exact ⟨rfl, fun reason hm => absurd hm (Option.not_mem_none reason)⟩

/-- An event in review is there for its error. -/
theorem inQueue_of_review {reason : String} (hstatus : raw.processingStatus = .review)
    (herror : raw.processingError = some reason) :
    InQueue review (some raw) ↔ review = some reason := by
  simp only [InQueue, Option.mem_some_iff, exists_eq_left', hstatus, iff_true, forall_eq', herror,
    Option.some.injEq]
  constructor
  · rintro ⟨hsome, hreason⟩
    obtain ⟨old, rfl⟩ := Option.isSome_iff_exists.mp hsome
    rw [hreason old rfl]
  · rintro rfl
    exact ⟨rfl, fun old hm => Option.some.inj hm⟩

end InQueue

theorem queueExact_empty : QueueExact Database.empty := by
  intro eventId
  simp [Database.empty, InQueue]

section Database
variable {db db' : Database} (h : QueueExact db)
include h

/-- Where all other events keep their rows, one event decides. -/
theorem QueueExact.iff_at {eventId : EventId}
    (hraw : ∀ id, id ≠ eventId → db'.rawEvents.lookup id = db.rawEvents.lookup id)
    (hreview : ∀ id, id ≠ eventId → db'.requiresHumanReview.lookup id = db.requiresHumanReview.lookup id) :
    QueueExact db' ↔ InQueue (db'.requiresHumanReview.lookup eventId) (db'.rawEvents.lookup eventId) := by
  refine ⟨fun h' => h' eventId, fun h' id => ?_⟩
  by_cases hid : id = eventId
  · rw [hid]
    exact h'
  · rw [hraw id hid, hreview id hid]
    exact h id

/-- **An event that gets a status must be on the list for the reason it gets with it**, or not
at all; for a new reason it must be an event. -/
theorem QueueExact.set {eventId : EventId} {set : RawEvent → RawEvent} {review : Option String}
    (hraw : ∀ id, db'.rawEvents.lookup id =
      (db.rawEvents.lookup id).map fun row => if id = eventId then set row else row)
    (hreview : ∀ id, db'.requiresHumanReview.lookup id =
      if id = eventId then (db.requiresHumanReview.lookup id).or review else db.requiresHumanReview.lookup id)
    (hset : ∀ listed row, InQueue listed (some (set row)) ↔ listed = review)
    (hrow : review.isSome → (db.rawEvents.lookup eventId).isSome) :
    QueueExact db' ↔ ∀ reason ∈ db.requiresHumanReview.lookup eventId, review = some reason := by
  have hothers : ∀ id, id ≠ eventId → db'.rawEvents.lookup id = db.rawEvents.lookup id := by
    intro id hid
    simp only [hraw, if_neg hid, Option.map_id']
  rw [h.iff_at hothers fun id hid => by rw [hreview, if_neg hid], hraw, hreview, if_pos rfl]
  have hat := h eventId
  cases hold : db.rawEvents.lookup eventId with
  | none =>
    rw [hold, inQueue_none] at hat
    rw [hold] at hrow
    have hnone : review = none := Option.not_isSome_iff_eq_none.mp fun hsome => by cases hrow hsome
    simp [hat, hnone, inQueue_none]
  | some row =>
    simp only [Option.map_some, if_true, hset]
    cases db.requiresHumanReview.lookup eventId with
    | none => simp
    | some reason => simp [eq_comm]

/-- A status that is not `review` must be set where the event is not on the list. -/
theorem QueueExact.updateRawEvent {eventId : EventId} {set : RawEvent → RawEvent}
    (hraw : db'.rawEvents = (db.updateRawEvent eventId set).rawEvents)
    (hreview : db'.requiresHumanReview = db.requiresHumanReview)
    (hset : ∀ row, (set row).processingStatus ≠ .review) :
    QueueExact db' ↔ ∀ reason ∈ db.requiresHumanReview.lookup eventId, none = some reason := by
  refine h.set (fun id => ?_) (fun id => ?_) (fun listed row => inQueue_of_ne (hset row)) nofun
  · rw [hraw, Database.updateRawEvent, lookup_updateRows]
  · rw [hreview, Option.or_none, ite_self]

theorem QueueExact.markedReview {eventId : EventId} (hrow : (db.rawEvents.lookup eventId).isSome)
    (reason : String) :
    QueueExact (db.markedReview eventId reason) ↔
      ∀ old ∈ db.requiresHumanReview.lookup eventId, some reason = some old := by
  have hraw : ∀ id, (db.markedReview eventId reason).rawEvents.lookup id =
      (db.rawEvents.lookup id).map fun row =>
        if id = eventId then { row with processingStatus := .review, processingError := some reason }
        else row := by
    intro id
    rw [Database.markedReview, Database.updateRawEvent, lookup_updateRows]
  refine h.set hraw (fun id => ?_) (fun listed row => inQueue_of_review rfl rfl) fun _ => hrow
  · simp only [Database.markedReview, Database.updateRawEvent]
    cases hold : db.requiresHumanReview.lookup eventId with
    | none =>
      dsimp only
      rw [lookup_insert_eq]
      split
      · rename_i hid
        rw [hid, hold, Option.none_or]
      · rfl
    | some old =>
      dsimp only
      split
      · rename_i hid
        rw [hid, hold, Option.some_or]
      · rfl

/-- A new raw event is not in review. -/
theorem QueueExact.insertRawEvent {eventId : EventId} (hrow : db.rawEvents.lookup eventId = none)
    (vendorId : Option String) (payload : JsonObject) (headers : List (String × String))
    (signatureVerified : Bool) :
    QueueExact (db.insertRawEvent eventId vendorId payload headers signatureVerified) := by
  have hat := h eventId
  rw [hrow, inQueue_none] at hat
  have hothers : ∀ id, id ≠ eventId →
      (db.insertRawEvent eventId vendorId payload headers signatureVerified).rawEvents.lookup id =
        db.rawEvents.lookup id := by
    intro id hid
    rw [Database.insertRawEvent, lookup_insert_eq, if_neg hid]
  rw [h.iff_at hothers fun id _ => rfl, Database.insertRawEvent, lookup_insert_eq, if_pos rfl]
  exact (inQueue_of_ne (by simp)).mpr hat

omit h in
/-- Truncation empties the queue, and takes every event out of review. -/
theorem queueExact_truncated (db : Database) : QueueExact db.truncated := by
  intro eventId
  simp only [Database.truncated, lookup_updateRows]
  cases db.rawEvents.lookup eventId with
  | none => exact inQueue_none.mpr (AList.lookup_empty eventId)
  | some row => exact (inQueue_of_ne (by simp)).mpr (AList.lookup_empty eventId)

end Database

/-! ### Which operations keep the queue exact -/

/-- The event whose status an operation sets, and the reason if it sends it to review.  An event
that the database refuses gets none. -/
def Op.setsStatus (w : World) : Op → Option (EventId × Option String)
  | .finalize eventId event => if (applyEvent event w.db.store).1.isOk then some (eventId, none) else none
  | .markPendingLlm eventId _ | .markFailed eventId _ => some (eventId, none)
  | .markReview eventId reason => some (eventId, some reason)
  | _ => none

/-- An operation that sets the status of an event on the list sends it to review for the
reason that it is there for. -/
def KeepsQueue (o : Op) (w : World) : Prop :=
  ∀ set ∈ o.setsStatus w, ∀ reason ∈ w.db.requiresHumanReview.lookup set.1, set.2 = some reason

instance (o : Op) (w : World) : Decidable (KeepsQueue o w) :=
  inferInstanceAs (Decidable (∀ set ∈ o.setsStatus w, _))

/-- **The operations that keep the queue exact** are those that `KeepsQueue` names. -/
theorem queueExact_handle {o : Op} {w : World} (h : QueueExact w.db)
    (hrow : ∀ eventId reason, o = .markReview eventId reason → (w.db.rawEvents.lookup eventId).isSome) :
    QueueExact (o.handle w).2.db ↔ KeepsQueue o w := by
  have hkeeps : o.setsStatus w = none → KeepsQueue o w := by
    intro hnone set hset
    rw [hnone] at hset
    cases hset
  have hsets : ∀ {eventId review}, o.setsStatus w = some (eventId, review) →
      (KeepsQueue o w ↔ ∀ reason ∈ w.db.requiresHumanReview.lookup eventId, review = some reason) := by
    intro eventId review hset
    simp only [KeepsQueue, hset, Option.mem_some_iff, forall_eq']
  by_cases hderives : o.Derives
  · cases o with
    | insertRawEvent eventId vendorId payload headers signatureVerified =>
      refine iff_of_true ?_ (hkeeps rfl)
      rw [Op.handle]
      split
      · exact h
      · rename_i hnone
        exact h.insertRawEvent hnone vendorId payload headers signatureVerified
    | finalize eventId event =>
      cases happly : applyEvent event w.db.store with
      | mk r store =>
        cases r with
        | ok outcome =>
          rw [hsets (by rw [Op.setsStatus, happly]; rfl), Op.handle, happly]
          exact h.updateRawEvent rfl rfl fun row => by simp
        | error e =>
          refine iff_of_true ?_ (hkeeps (by rw [Op.setsStatus, happly]; rfl))
          rw [Op.handle, happly]
          exact h
    | markReview eventId reason =>
      rw [hsets rfl]
      exact h.markedReview (hrow eventId reason rfl) reason
    | markPendingLlm eventId reason | markFailed eventId reason =>
      rw [hsets rfl]
      exact h.updateRawEvent rfl rfl fun row => by simp
    | truncate => exact iff_of_true (queueExact_truncated w.db) (hkeeps rfl)
    | _ => exact hderives.elim
  · have hnone : o.setsStatus w = none := by
      cases o <;> first | rfl | exact absurd trivial hderives
    obtain ⟨hraw, -, -, hreview⟩ := derived_handle hderives w
    refine iff_of_true (fun eventId => ?_) (hkeeps hnone)
    rw [hraw, hreview]
    exact h eventId

/-! ### What a job sends to review -/

/-- A job of an event sends no other event to review. -/
def Op.Reviews (eventId : EventId) : Op → Prop
  | .markReview id _ => id = eventId
  | _ => True

theorem Op.Asking.reviews {o : Op} (h : o.Asking) (eventId : EventId) : o.Reviews eventId := by
  cases o <;> trivial

theorem Op.Learning.reviews {o : Op} (h : o.Learning) (eventId : EventId) : o.Reviews eventId := by
  cases o <;> trivial

/-- The row of an event was read. -/
def Selected (past : Past) (eventId : EventId) : Prop :=
  ∃ row, ⟨.selectRawEvent eventId, .ok (some row)⟩ ∈ past

/-- An event is sent to review only after its row was read. -/
def SelectsFirst (past : Past) : Op → Prop
  | .markReview eventId _ => Selected past eventId
  | _ => True

section Jobs
variable (env : Externals) (settings : Settings)

theorem reviews_finalizeEvent (eventId : EventId) (vendorId : String) (event : CanonicalEvent) :
    (finalizeEvent eventId vendorId event).Every (Op.Reviews eventId) := by
  rw [finalizeEvent]
  split
  · exact .bind (.perform trivial) fun _ => .ret _
  · exact .bind (.perform rfl) fun _ => .ret _
  · exact .raise _

theorem reviews_resolveEventType (eventId : EventId) (vendorId rawEventType : String) :
    (resolveEventType env settings vendorId rawEventType).Every (Op.Reviews eventId) := by
  refine .bind (.perform trivial) fun stored => ?_
  cases stored with
  | some mapping => exact .ret _
  | none =>
    refine .bind ((every_classifyEventType env settings vendorId rawEventType).mono fun o ho =>
      ho.reviews eventId) fun answer => ?_
    cases answer with
    | none => exact .ret _
    | some answer =>
      exact .bind (.perform trivial) fun _ => .bind (.ofExcept _) fun _ => .bind (.ofExcept _) fun _ => .ret _

theorem reviews_extractionSucceeded (eventId : EventId) (schemaId : SchemaId) (event : CanonicalEvent) :
    (extractionSucceeded eventId schemaId event).Every (Op.Reviews eventId) :=
  .bind (.perform trivial) fun _ => .bind (.perform trivial) fun _ => .ret _

theorem reviews_processViaSchema (eventId : EventId) (vendorId : String) (payload : JsonObject)
    (schemaMatch : SchemaMatch) :
    (processViaSchema env settings eventId vendorId payload schemaMatch).Every (Op.Reviews eventId) := by
  refine .bind (.ofExcept _) fun first => ?_
  dsimp only
  split
  · exact reviews_extractionSucceeded eventId schemaMatch.schemaId _
  · split
    · exact .ret _
    · refine .bind (reviews_resolveEventType env settings eventId vendorId _) fun mapping => ?_
      cases mapping with
      | none => exact .ret _
      | some mapping =>
        refine .bind (.ofExcept _) fun second => ?_
        split
        · exact reviews_extractionSucceeded eventId schemaMatch.schemaId _
        · exact .ret _

theorem reviews_processViaLLM (eventId : EventId) (vendorId : String) (payload : JsonObject) :
    (processViaLLM env settings eventId vendorId payload).Every (Op.Reviews eventId) := by
  refine .bind ((every_universalNormalize env settings eventId vendorId payload).mono fun o ho =>
    ho.reviews eventId) fun result => ?_
  cases result with
  | ok event outcome =>
    dsimp only
    split
    · refine .bind (.tryCatch ((every_discoverAndPersist env vendorId payload outcome.data eventId).mono
        fun o ho => ho.reviews eventId) fun _ => .ret _) fun _ => ?_
      exact reviews_finalizeEvent eventId vendorId event
    · exact reviews_finalizeEvent eventId vendorId event
  | deferred => exact .bind (.perform trivial) fun _ => .ret _
  | unsupported reason => exact .bind (.perform rfl) fun _ => .ret _

theorem reviews_processRow (eventId : EventId) (row : RawEvent) :
    (processRow env settings eventId row).Every (Op.Reviews eventId) := by
  refine .bind (.perform trivial) fun schemaMatch => ?_
  cases schemaMatch with
  | none => exact reviews_processViaLLM env settings eventId _ row.payload
  | some schemaMatch =>
    refine .bind (reviews_processViaSchema env settings eventId _ row.payload schemaMatch) fun event => ?_
    cases event with
    | some event => exact reviews_finalizeEvent eventId _ event
    | none => exact .bind (.perform trivial) fun _ => reviews_processViaLLM env settings eventId _ row.payload

/-- `process_event` reads the row of its event before all else. -/
theorem selectsFirst_processEvent (eventId : EventId) :
    (processEvent env settings eventId).Obeys SelectsFirst (fun _ _ => True) [] := by
  rw [processEvent]
  refine .bind (R := fun past r => past = [⟨.selectRawEvent eventId, r⟩]) (.perform trivial fun r => rfl) ?_
    fun _ _ _ => trivial
  rintro _ row rfl
  cases row with
  | none => trivial
  | some row =>
    refine ((reviews_processRow env settings eventId row).obeys _).weaken ?_ fun _ _ _ => trivial
    rintro past o ⟨hreviews, new, rfl, -⟩
    cases o with
    | markReview id reason =>
      obtain rfl : id = eventId := hreviews
      exact ⟨row, List.mem_append_right _ List.mem_cons_self⟩
    | _ => trivial

/-- **Every job reads an event before it sends it to review.** -/
theorem selectsFirst_program (job : ServiceJob) :
    (ServiceJob.program env settings job).Obeys SelectsFirst (fun _ _ => True) [] := by
  cases job with
  | receive vendorId request =>
    refine (obeys_receive env settings vendorId request).weaken (fun past o hobeys => ?_) fun _ _ _ => trivial
    cases o <;> trivial
  | work eventId =>
    refine .map (R := fun _ _ => True) (.tryCatch (selectsFirst_processEvent env settings eventId)
      (fun _ _ _ => trivial) fun _ e _ => ?_) (fun _ _ _ => trivial) fun _ _ _ => trivial
    exact .bind (R := fun _ _ => True) (.perform trivial fun _ => trivial) (fun _ _ _ => trivial) fun _ _ _ => trivial
  | replay eventId =>
    exact .map (selectsFirst_processEvent env settings eventId) (fun _ _ _ => trivial) fun _ _ _ => trivial
  | truncate =>
    exact .map (R := fun _ _ => True) (.perform trivial fun _ => trivial) (fun _ _ _ => trivial) fun _ _ _ => trivial

end Jobs

/-! ### Runs -/

section Runs
variable (env : Externals) (settings : Settings) {mayLose : Op → Prop} {ι : Type} [DecidableEq ι]

/-- The queue is exact, and the rows that the tasks have read are there. -/
structure QueueTracked (c : ServiceConfig ι) : Prop where
  selected : ∀ i task eventId, c.tasks i = some task → Selected task.history eventId →
    (c.state.db.rawEvents.lookup eventId).isSome
  queue : QueueExact c.state.db

/-- A row that was read is there. -/
theorem select_answers {eventId : EventId} {w w' : World}
    {r : Except PyError (Op.selectRawEvent eventId).Result}
    (h : (service env settings mayLose).Answers (.selectRawEvent eventId) w r w') {row : RawEvent}
    (hr : r = .ok (some row)) : (w'.db.rawEvents.lookup eventId).isSome := by
  cases h with
  | done => exact Option.isSome_iff_exists.mpr ⟨row, Except.ok.inj hr⟩
  | failed e hfail => cases hr
  | lost e hlose => cases hr

/-- **Performing an operation**: the queue stays exact where the operation keeps it exact. -/
theorem QueueTracked.perform {c : ServiceConfig ι} (hc : QueueTracked c) {i : ι} {k : ServiceJob} {past : Past}
    {o : Op} {next : Except PyError o.Result → Job ServiceResult} {r : Except PyError o.Result} {w : World}
    (htask : c.tasks i = some ⟨k, past, .op o next⟩) (hobeys : SelectsFirst past o) (hkeeps : KeepsQueue o c.state)
    (hanswers : (service env settings mayLose).Answers o c.state r w) :
    QueueTracked (c.put w i ⟨k, ⟨o, r⟩ :: past, next r⟩) := by
  have hrow : ∀ eventId reason, o = .markReview eventId reason →
      (c.state.db.rawEvents.lookup eventId).isSome := by
    rintro eventId reason rfl
    exact hc.selected i _ eventId htask hobeys
  have hqueue := (queueExact_handle hc.queue hrow).mpr hkeeps
  constructor
  · intro j task eventId hput hselected
    rcases Config.tasks_put hput with ⟨rfl, rfl⟩ | ⟨-, hold⟩
    · obtain ⟨row, hm⟩ := hselected
      rcases List.mem_cons.mp hm with he | hm
      · cases he
        exact select_answers env settings hanswers rfl
      · exact isSome_rawEvents_answers hanswers (hc.selected j _ eventId htask ⟨row, hm⟩)
    · exact isSome_rawEvents_answers hanswers (hc.selected j task eventId hold hselected)
  · cases hanswers with
    | done | lost => exact hqueue
    | failed => exact hc.queue

theorem queueTracked_kept : (service env settings mayLose).Kept KeepsQueue (fun _ => SelectsFirst)
    (QueueTracked : ServiceConfig ι → Prop) where
  start c i k hc hfree := by
    refine { hc with selected := fun j task eventId hput hselected => ?_ }
    rcases Config.tasks_put hput with ⟨-, rfl⟩ | ⟨-, hold⟩
    · obtain ⟨row, hm⟩ := hselected
      cases hm
    · exact hc.selected j task eventId hold hselected
  perform c i k past o next r w hc htask hobeys hkeeps hanswers :=
    hc.perform env settings htask hobeys hkeeps hanswers
  outside c w hc hout := by
    have hdb : w.db = c.state.db := hout.1
    constructor
    · intro i task eventId
      rw [hdb]
      exact hc.selected i task eventId
    · rw [hdb]
      exact hc.queue

/-- **The review queue is exact in every state that is reached by operations that keep it
exact**, whatever deliveries, jobs, retries, replays and truncations run beside each other and
wherever they fail; there an operation that a task is about to perform leaves it exact if and
only if it is one of these again. -/
theorem queue_exact {c : ServiceConfig ι}
    (h : (service env settings mayLose).Reaches KeepsQueue (.idle World.start) c) :
    QueueExact c.state.db ∧
      ∀ i k past o next, c.tasks i = some ⟨k, past, .op o next⟩ →
        (QueueExact (o.handle c.state).2.db ↔ KeepsQueue o c.state) := by
  have hidle : QueueTracked (Config.idle World.start : ServiceConfig ι) :=
    ⟨fun i task eventId htask => (by cases htask), queueExact_empty⟩
  obtain ⟨hobeys, hc⟩ := (queueTracked_kept env settings).reaches (selectsFirst_program env settings)
    (System.obeys_idle World.start) hidle h
  refine ⟨hc.queue, fun i k past o next htask => queueExact_handle hc.queue ?_⟩
  rintro eventId reason rfl
  exact hc.selected i _ eventId htask (hobeys i _ htask).1

end Runs

/-- The provider is about to answer nothing, nothing again, and then as it should. -/
def hesitantWorld : World := World.start.facing 1 [.ok ⟨"", 0⟩, .ok ⟨"", 0⟩, .ok (issuedResult ["issued"])]

theorem reaches_hesitantWorld (C : Op → World → Prop) :
    (service april28Runtime .defaults fun _ => True).Reaches C (Config.idle World.start : ServiceConfig Nat)
      (Config.idle hesitantWorld) :=
  .single (.outside ⟨rfl, rfl⟩)

/-- The invoice is delivered, and its worker sends it to review. -/
def reviewedTurns : List (System.Turn World Nat ServiceJob) :=
  [.start 0 (.receive (some globalfreightpayPath) (issuedRequest "INV-1" "2026-04-28T05:00:00Z")),
    .perform 0, .perform 0, .perform 0, .start 1 (.work (issuedId "INV-1" "2026-04-28T05:00:00Z"))] ++
    List.replicate 7 (System.Turn.perform 1)

/-- The invoice is replayed. -/
def replayedTurns : List (System.Turn World Nat ServiceJob) :=
  .start 2 (.replay (issuedId "INV-1" "2026-04-28T05:00:00Z")) :: List.replicate 11 (System.Turn.perform 2)

/-- The invoice is in review, and the queue is exact. -/
theorem reviewed_queue_exact :
    let c := reviewedTurns.foldl (System.turn (service april28Runtime .defaults fun _ => True))
      (Config.idle hesitantWorld)
    c.state.db.requiresHumanReview.lookup (issuedId "INV-1" "2026-04-28T05:00:00Z") =
        some "llm_invalid_after_retry" ∧ QueueExact c.state.db := by
  intro c
  have hreaches : (service april28Runtime .defaults fun _ => True).Reaches KeepsQueue
      (Config.idle World.start) c :=
    (reaches_hesitantWorld _).trans (System.reaches_of_allowsTask (by decide +kernel))
  exact ⟨by decide +kernel, (queue_exact april28Runtime .defaults hreaches).1⟩

/-- **An event that was in review and is processed after all stays on the list.** -/
theorem processed_event_listed :
    let c := (reviewedTurns ++ replayedTurns).foldl
      (System.turn (service april28Runtime .defaults fun _ => True)) (Config.idle hesitantWorld)
    (service april28Runtime .defaults fun _ => True).Reaches (fun _ _ => True) (Config.idle World.start) c ∧
      (c.state.db.rawEvents.lookup (issuedId "INV-1" "2026-04-28T05:00:00Z")).map RawEvent.processingStatus =
        some .processed ∧
      c.state.db.requiresHumanReview.lookup (issuedId "INV-1" "2026-04-28T05:00:00Z") =
        some "llm_invalid_after_retry" ∧
      ¬ QueueExact c.state.db := by
  intro c
  obtain ⟨hstatus, hlisted⟩ : (c.state.db.rawEvents.lookup (issuedId "INV-1" "2026-04-28T05:00:00Z")).map
      RawEvent.processingStatus = some .processed ∧
      c.state.db.requiresHumanReview.lookup (issuedId "INV-1" "2026-04-28T05:00:00Z") =
        some "llm_invalid_after_retry" := by decide +kernel
  have hturns : ∀ f, System.Turn.outside f ∉ reviewedTurns ++ replayedTurns := by
    simp [reviewedTurns, replayedTurns]
  refine ⟨(reaches_hesitantWorld _).trans (System.reaches_schedule (System.along_turns
    (fun f hm => absurd hm (hturns f)) _)), hstatus, hlisted, fun hexact => ?_⟩
  obtain ⟨row, hrow, hreview⟩ := (hexact (issuedId "INV-1" "2026-04-28T05:00:00Z")).1.mp (by rw [hlisted]; rfl)
  rw [Option.mem_def.mp hrow, Option.map_some, hreview] at hstatus
  cases hstatus

end WebhookIngestion
