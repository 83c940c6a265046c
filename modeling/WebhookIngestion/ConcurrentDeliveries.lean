import WebhookIngestion.ServiceTasks
import Mathlib.Data.Fintype.Basic

/-! # Deliveries that run beside each other

A POST inserts its event, notes it and puts it into the queue, one step at a time, beside
other POSTs of the same event and beside workers that update its row.  The insert decides:
of the deliveries of one event at most one has inserted it (`Delivered`), and the call and
the answer are that delivery's. -/
namespace WebhookIngestion
open Tables Programs

/-! ### What an operation does to the raw events -/

/-- What a raw event was delivered with; its vendor may be settled later. -/
def RawEvent.received (row : RawEvent) : JsonObject × List (String × String) × Bool :=
  (row.payload, row.headers, row.signatureVerified)

theorem received_updateRawEvent (db : Database) (eventId : EventId) {set : RawEvent → RawEvent}
    (hset : ∀ row, (set row).received = row.received) (id : EventId) :
    ((db.updateRawEvent eventId set).rawEvents.lookup id).map RawEvent.received =
      (db.rawEvents.lookup id).map RawEvent.received := by
  rw [Database.updateRawEvent, lookup_updateRows, Option.map_map]
  congr 1
  funext row
  by_cases hid : id = eventId
  · simp only [Function.comp_apply, if_pos hid, hset]
  · simp only [Function.comp_apply, if_neg hid]

/-- An operation leaves what was received, or it is the insert of a new event. -/
inductive Receives (o : Op) (w : World) (eventId : EventId) : Prop
  | kept (h : ((o.handle w).2.db.rawEvents.lookup eventId).map RawEvent.received =
      (w.db.rawEvents.lookup eventId).map RawEvent.received)
  | inserted {vendorId : Option String} {payload : JsonObject} {headers : List (String × String)}
      {signatureVerified : Bool}
      (ho : o = .insertRawEvent eventId vendorId payload headers signatureVerified)
      (hnew : w.db.rawEvents.lookup eventId = none)

theorem receives (o : Op) (w : World) (eventId : EventId) : Receives o w eventId := by
  by_cases hderives : o.Derives
  · cases o with
    | insertRawEvent id vendorId payload headers signatureVerified =>
      cases hrow : w.db.rawEvents.lookup id with
      | some row =>
        refine .kept ?_
        rw [Op.handle, hrow]
      | none =>
        by_cases he : eventId = id
        · subst he
          exact .inserted rfl hrow
        · refine .kept ?_
          simp only [Op.handle, hrow, Database.insertRawEvent, lookup_insert_eq, if_neg he]
    | finalize id event =>
      refine .kept ?_
      rw [Op.handle]
      split
      · exact received_updateRawEvent { w.db with store := _, canonicalEvents := _ } id (by intro row; rfl) eventId
      · rfl
    | markReview id reason =>
      exact .kept (received_updateRawEvent { w.db with requiresHumanReview := _ } id (by intro row; rfl) eventId)
    | markPendingLlm id reason => exact .kept (received_updateRawEvent w.db id (by intro row; rfl) eventId)
    | markFailed id error => exact .kept (received_updateRawEvent w.db id (by intro row; rfl) eventId)
    | truncate =>
      refine .kept ?_
      simp only [Op.handle, Database.truncated, lookup_updateRows, Option.map_map]
      rfl
    | _ => exact hderives.elim
  · refine .kept ?_
    rw [(derived_handle hderives w).1]

/-- **What was received stays**, whatever is performed. -/
theorem received_handle (o : Op) {w : World} {eventId : EventId} {row : RawEvent}
    (hrow : w.db.rawEvents.lookup eventId = some row) :
    ∃ row', (o.handle w).2.db.rawEvents.lookup eventId = some row' ∧ row'.received = row.received := by
  cases receives o w eventId with
  | kept h =>
    rw [hrow] at h
    exact Option.map_eq_some_iff.mp h
  | inserted ho hnew =>
    rw [hrow] at hnew
    cases hnew

/-! ### Histories -/

section Histories
variable {past : Past} {o : Op} {answer : Except PyError o.Result} {eventId : EventId}

/-- The insert of an event, among the operations. -/
def Op.Inserts (o : Op) (eventId : EventId) : Prop :=
  ∃ vendorId payload headers signatureVerified, o = .insertRawEvent eventId vendorId payload headers signatureVerified

theorem Inserted.cons (h : Inserted past eventId) : Inserted (⟨o, answer⟩ :: past) eventId := by
  obtain ⟨vendorId, payload, headers, signatureVerified, inserted, hm⟩ := h
  exact ⟨vendorId, payload, headers, signatureVerified, inserted, List.mem_cons_of_mem _ hm⟩

theorem isCallFor_iff {done : Performed PyError Op Op.Result} :
    isCallFor eventId done = true ↔ done.op = .enqueue eventId := by
  rw [isCallFor]
  cases done.op <;> simp

/-- A call counts, other operations do not. -/
theorem calls_cons_of_ne (h : o ≠ .enqueue eventId) (answer : Except PyError o.Result) :
    calls (⟨o, answer⟩ :: past) eventId = calls past eventId :=
  List.countP_cons_of_neg fun hcall => h (isCallFor_iff.mp hcall)

theorem calls_cons_enqueue (past : Past) (answer : Except PyError Unit) :
    calls (⟨.enqueue eventId, answer⟩ :: past) eventId = calls past eventId + 1 :=
  List.countP_cons_of_pos (isCallFor_iff.mpr rfl)

end Histories

/-! ### The invariant -/

/-- The service, where an insert is answered or has no effect. -/
abbrev deliveryService (env : Externals) (settings : Settings) :
    System World ServiceJob PyError Op Op.Result ServiceResult :=
  service env settings fun o => ∀ eventId, ¬ o.Inserts eventId

section Runs
variable {env : Externals} {settings : Settings} {ι : Type} [DecidableEq ι]

/-- The service with tasks under way. -/
abbrev ServiceConfig (ι : Type) := Config World ι ServiceJob PyError Op Op.Result ServiceResult

/-- **The insert decides**: what was inserted is there, and was inserted by one delivery, which
is the one that may call the queue, once. -/
structure Delivered (c : ServiceConfig ι) : Prop where
  stored : ∀ i task eventId, c.tasks i = some task → Inserted task.history eventId →
    (c.state.db.rawEvents.lookup eventId).isSome
  once : ∀ i j task task' eventId, c.tasks i = some task → c.tasks j = some task' →
    Inserted task.history eventId → Inserted task'.history eventId → i = j
  single : ∀ i task eventId eventId', c.tasks i = some task → Inserted task.history eventId →
    Inserted task.history eventId' → eventId = eventId'
  called : ∀ i task eventId, c.tasks i = some task → 0 < calls task.history eventId →
    Inserted task.history eventId
  atMostOnce : ∀ i task eventId, c.tasks i = some task → calls task.history eventId ≤ 1
  noted : ∀ i task, c.tasks i = some task → ∀ done ∈ task.history, done.op.IsNote → ∃ r, done.answer = .ok r
  inserted : ∀ eventId, (c.state.db.rawEvents.lookup eventId).isSome → ∃ i task vendorId request,
    c.tasks i = some task ∧ task.job = .receive vendorId request ∧ Inserted task.history eventId

/-- The rows that were there are there. -/
theorem isSome_rawEvents_answers {mayLose : Op → Prop} {o : Op} {w w' : World}
    {r : Except PyError o.Result} (h : (service env settings mayLose).Answers o w r w') {eventId : EventId}
    (hrow : (w.db.rawEvents.lookup eventId).isSome) : (w'.db.rawEvents.lookup eventId).isSome := by
  obtain ⟨row, hrow⟩ := Option.isSome_iff_exists.mp hrow
  obtain ⟨row', hrow', -⟩ := received_handle o hrow
  cases h with
  | done => exact Option.isSome_iff_exists.mpr ⟨row', hrow'⟩
  | failed e hfail => exact Option.isSome_iff_exists.mpr ⟨row, hrow⟩
  | lost e hlose => exact Option.isSome_iff_exists.mpr ⟨row', hrow'⟩

/-- An insert that has inserted found no row, and left one. -/
theorem insert_answers {mayLose : Op → Prop} {eventId : EventId} {vendorId : Option String}
    {payload : JsonObject} {headers : List (String × String)} {signatureVerified : Bool} {w w' : World}
    {r : Except PyError (Op.insertRawEvent eventId vendorId payload headers signatureVerified).Result}
    (h : (service env settings mayLose).Answers (.insertRawEvent eventId vendorId payload headers
      signatureVerified) w r w') {inserted : EventId} (hr : r = .ok (some inserted)) :
    w.db.rawEvents.lookup eventId = none ∧ (w'.db.rawEvents.lookup eventId).isSome := by
  cases h with
  | done =>
    simp only [service, Op.handle] at hr ⊢
    cases hrow : w.db.rawEvents.lookup eventId with
    | some row =>
      rw [hrow] at hr
      cases hr
    | none => simp [Database.insertRawEvent]
  | failed e hfail => cases hr
  | lost e hlose => cases hr

/-- **A new row has its insert**, where no insert's answer is lost. -/
theorem inserted_of_new {past : Past} {o : Op} {w w' : World} {r : Except PyError o.Result}
    (h : (deliveryService env settings).Answers o w r w') {eventId : EventId}
    (hbefore : w.db.rawEvents.lookup eventId = none) (hafter : (w'.db.rawEvents.lookup eventId).isSome) :
    o.Inserts eventId ∧ Inserted (⟨o, r⟩ :: past) eventId := by
  have hinserts : (w'.db.rawEvents.lookup eventId = ((o.handle w).2.db.rawEvents.lookup eventId)) →
      o.Inserts eventId := by
    intro hsame
    cases receives o w eventId with
    | kept hkept =>
      rw [← hsame, hbefore, Option.map_none, Option.map_eq_none_iff] at hkept
      rw [hkept] at hafter
      cases hafter
    | inserted ho hnew => exact ⟨_, _, _, _, ho⟩
  cases h with
  | done =>
    obtain ⟨vendorId, payload, headers, signatureVerified, rfl⟩ := hinserts rfl
    refine ⟨⟨_, _, _, _, rfl⟩, vendorId, payload, headers, signatureVerified, eventId, ?_⟩
    have hanswer : (deliveryService env settings).handle
        (.insertRawEvent eventId vendorId payload headers signatureVerified) w =
          (.ok (some eventId), { w with
            db := w.db.insertRawEvent eventId vendorId payload headers signatureVerified }) := by
      simp only [service, Op.handle, hbefore]
    rw [hanswer]
    exact List.mem_cons_self
  | failed e hfail =>
    rw [hbefore] at hafter
    cases hafter
  | lost e hlose => exact absurd (hinserts rfl) (hlose.2 eventId)

/-- What a step adds to the events a task has inserted. -/
theorem inserted_of_perform {k : ServiceJob} {past : Past} {o : Op} {r : Except PyError o.Result}
    {w w' : World} (hobeys : JobObeys k past o) (h : (deliveryService env settings).Answers o w r w')
    {eventId : EventId} (hins : Inserted (⟨o, r⟩ :: past) eventId) :
    Inserted past eventId ∨
      past = [] ∧ w.db.rawEvents.lookup eventId = none ∧ (w'.db.rawEvents.lookup eventId).isSome := by
  obtain ⟨vendorId, payload, headers, signatureVerified, inserted, hm⟩ := hins
  rcases List.mem_cons.mp hm with he | hm
  · cases he
    obtain ⟨hnone, hsome⟩ := insert_answers h rfl
    have hnil : past = [] := by
      cases k with
      | receive vendorPath request => exact hobeys
      | work | replay => exact hobeys.elim
      | truncate => cases hobeys
    exact .inr ⟨hnil, hnone, hsome⟩
  · exact .inl ⟨vendorId, payload, headers, signatureVerified, inserted, hm⟩

/-- The jobs call the queue for what they have inserted, once. -/
theorem calls_of_perform {k : ServiceJob} {past : Past} {o : Op} {r : Except PyError o.Result}
    (hobeys : JobObeys k past o) (eventId : EventId) :
    calls (⟨o, r⟩ :: past) eventId = calls past eventId ∨
      calls (⟨o, r⟩ :: past) eventId = 1 ∧ Inserted past eventId := by
  by_cases ho : o = .enqueue eventId
  · subst ho
    have hreceiver : ReceiverObeys past (.enqueue eventId) := by
      cases k with
      | receive vendorPath request => exact hobeys
      | work | replay => exact hobeys.elim
      | truncate => cases hobeys
    refine .inr ⟨?_, hreceiver.1⟩
    rw [calls_cons_enqueue, hreceiver.2 eventId]
  · exact .inl (calls_cons_of_ne ho r)

omit [DecidableEq ι] in
theorem delivered_idle : Delivered (Config.idle World.start : ServiceConfig ι) where
  stored i task eventId h := by cases h
  once i j task task' eventId h := by cases h
  single i task eventId eventId' h := by cases h
  called i task eventId h := by cases h
  atMostOnce i task eventId h := by cases h
  noted i task h := by cases h
  inserted eventId h := by simp [Config.idle, World.start, Database.empty] at h

/-- A task that has done nothing changes nothing. -/
theorem Delivered.start {c : ServiceConfig ι} (hc : Delivered c) {i : ι} (hfree : c.tasks i = none)
    (k : ServiceJob) (program : Job ServiceResult) : Delivered (c.put c.state i ⟨k, [], program⟩) := by
  have hnothing : ∀ eventId, ¬ Inserted [] eventId := by
    rintro eventId ⟨_, _, _, _, _, hm⟩
    cases hm
  have hold : ∀ j task eventId, (c.put c.state i ⟨k, [], program⟩).tasks j = some task →
      Inserted task.history eventId → c.tasks j = some task := by
    intro j task eventId htask hins
    rcases Config.tasks_put htask with ⟨-, rfl⟩ | ⟨-, hold⟩
    · exact absurd hins (hnothing eventId)
    · exact hold
  constructor
  · intro j task eventId htask hins
    exact hc.stored j task eventId (hold j task eventId htask hins) hins
  · intro j j' task task' eventId htask htask' hins hins'
    exact hc.once j j' task task' eventId (hold j task eventId htask hins)
      (hold j' task' eventId htask' hins') hins hins'
  · intro j task eventId eventId' htask hins hins'
    exact hc.single j task eventId eventId' (hold j task eventId htask hins) hins hins'
  · intro j task eventId htask hcalls
    rcases Config.tasks_put htask with ⟨-, rfl⟩ | ⟨-, hold⟩
    · cases hcalls
    · exact hc.called j task eventId hold hcalls
  · intro j task eventId htask
    rcases Config.tasks_put htask with ⟨-, rfl⟩ | ⟨-, hold⟩
    · exact Nat.zero_le 1
    · exact hc.atMostOnce j task eventId hold
  · intro j task htask done hm
    rcases Config.tasks_put htask with ⟨-, rfl⟩ | ⟨-, hold⟩
    · cases hm
    · exact hc.noted j task hold done hm
  · intro eventId hrow
    obtain ⟨j, task, vendorId, request, htask, hjob, hins⟩ := hc.inserted eventId hrow
    have hne : j ≠ i := by
      rintro rfl
      rw [hfree] at htask
      cases htask
    exact ⟨j, task, vendorId, request, (Config.tasks_put_of_ne hne).trans htask, hjob, hins⟩

/-- **Performing an operation keeps the invariant.** -/
theorem Delivered.perform {c : ServiceConfig ι} (hc : Delivered c) {i : ι} {k : ServiceJob} {past : Past}
    {o : Op} {next : Except PyError o.Result → Job ServiceResult} {r : Except PyError o.Result} {w : World}
    (htask : c.tasks i = some ⟨k, past, .op o next⟩) (hobeys : JobObeys k past o)
    (hanswers : (deliveryService env settings).Answers o c.state r w) :
    Delivered (c.put w i ⟨k, ⟨o, r⟩ :: past, next r⟩) := by
  -- an event of a task afterwards: it was inserted before, or the operation has inserted it
  have hcases : ∀ j task eventId, (c.put w i ⟨k, ⟨o, r⟩ :: past, next r⟩).tasks j = some task →
      Inserted task.history eventId → (∃ old, c.tasks j = some old ∧ Inserted old.history eventId) ∨
        j = i ∧ past = [] ∧ c.state.db.rawEvents.lookup eventId = none ∧
          (w.db.rawEvents.lookup eventId).isSome := by
    intro j task eventId hput hins
    rcases Config.tasks_put hput with ⟨rfl, rfl⟩ | ⟨-, hold⟩
    · rcases inserted_of_perform hobeys hanswers hins with hbefore | ⟨hnil, hnone, hsome⟩
      · exact .inl ⟨_, htask, hbefore⟩
      · exact .inr ⟨rfl, hnil, hnone, hsome⟩
    · exact .inl ⟨task, hold, hins⟩
  have hnew : ∀ j old eventId, c.tasks j = some old → Inserted old.history eventId →
      c.state.db.rawEvents.lookup eventId ≠ none := by
    intro j old eventId hold hins hnone
    have hsome := hc.stored j old eventId hold hins
    rw [hnone] at hsome
    cases hsome
  constructor
  · intro j task eventId hput hins
    rcases hcases j task eventId hput hins with ⟨old, hold, hbefore⟩ | ⟨-, -, -, hsome⟩
    · exact isSome_rawEvents_answers hanswers (hc.stored j old eventId hold hbefore)
    · exact hsome
  · intro j j' task task' eventId hput hput' hins hins'
    rcases hcases j task eventId hput hins with ⟨old, hold, hbefore⟩ | ⟨rfl, -, hnone, -⟩
    · rcases hcases j' task' eventId hput' hins' with ⟨old', hold', hbefore'⟩ | ⟨rfl, -, hnone, -⟩
      · exact hc.once j j' old old' eventId hold hold' hbefore hbefore'
      · exact absurd hnone (hnew j old eventId hold hbefore)
    · rcases hcases j' task' eventId hput' hins' with ⟨old', hold', hbefore'⟩ | ⟨rfl, -, -, -⟩
      · exact absurd hnone (hnew j' old' eventId hold' hbefore')
      · rfl
  · intro j task eventId eventId' hput hins hins'
    rcases Config.tasks_put hput with ⟨rfl, rfl⟩ | ⟨-, hold⟩
    · by_cases hnil : past = []
      · subst hnil
        obtain ⟨_, _, _, _, _, hm⟩ := hins
        obtain ⟨_, _, _, _, _, hm'⟩ := hins'
        have he := List.mem_singleton.mp hm
        have he' := List.mem_singleton.mp hm'
        rw [← he] at he'
        cases he'
        rfl
      · have hbefore := (inserted_of_perform hobeys hanswers hins).resolve_right fun h => hnil h.1
        have hbefore' := (inserted_of_perform hobeys hanswers hins').resolve_right fun h => hnil h.1
        exact hc.single j _ eventId eventId' htask hbefore hbefore'
    · exact hc.single j task eventId eventId' hold hins hins'
  · intro j task eventId hput hcalls
    rcases Config.tasks_put hput with ⟨rfl, rfl⟩ | ⟨-, hold⟩
    · rcases calls_of_perform (r := r) hobeys eventId with hsame | ⟨-, hins⟩
      · rw [hsame] at hcalls
        exact (hc.called j _ eventId htask hcalls).cons
      · exact hins.cons
    · exact hc.called j task eventId hold hcalls
  · intro j task eventId hput
    rcases Config.tasks_put hput with ⟨rfl, rfl⟩ | ⟨-, hold⟩
    · rcases calls_of_perform (r := r) hobeys eventId with hsame | ⟨hone, -⟩
      · rw [hsame]
        exact hc.atMostOnce j _ eventId htask
      · rw [hone]
    · exact hc.atMostOnce j task eventId hold
  · intro j task hput done hm hnote
    rcases Config.tasks_put hput with ⟨rfl, rfl⟩ | ⟨-, hold⟩
    · rcases List.mem_cons.mp hm with rfl | hm
      · -- notes are answered
        cases o with
        | note mark =>
          cases hanswers with
          | done => exact ⟨(), rfl⟩
          | failed e hfail => exact absurd hnote hfail
          | lost e hlose => exact absurd hnote hlose.1
        | _ => exact hnote.elim
      · exact hc.noted j _ htask done hm hnote
    · exact hc.noted j task hold done hm hnote
  · intro eventId hrow
    cases hbefore : c.state.db.rawEvents.lookup eventId with
    | none =>
      obtain ⟨hinserts, hins⟩ : o.Inserts eventId ∧ Inserted (⟨o, r⟩ :: past) eventId :=
        inserted_of_new hanswers hbefore hrow
      obtain ⟨vendorId, payload, headers, signatureVerified, rfl⟩ := hinserts
      cases k with
      | receive vendorPath request => exact ⟨i, _, vendorPath, request, Config.tasks_put_self, rfl, hins⟩
      | work | replay => exact hobeys.elim
      | truncate => cases hobeys
    | some row =>
      obtain ⟨j, task, vendorPath, request, hold, hjob, hins⟩ :=
        hc.inserted eventId (Option.isSome_iff_exists.mpr ⟨row, hbefore⟩)
      by_cases hj : j = i
      · subst hj
        cases htask.symm.trans hold
        exact ⟨j, _, vendorPath, request, Config.tasks_put_self, hjob, hins.cons⟩
      · exact ⟨j, task, vendorPath, request, (Config.tasks_put_of_ne hj).trans hold, hjob, hins⟩

theorem delivered_kept : (deliveryService env settings).Kept (fun _ _ => True) JobObeys
    (Delivered : ServiceConfig ι → Prop) where
  start c i k hc hfree := hc.start hfree k _
  perform c i k past o next r w hc htask hobeys _ hanswers := hc.perform htask hobeys hanswers
  outside c w hc hout := by
    have hdb : w.db = c.state.db := hout.1
    constructor
    · intro i task eventId
      rw [hdb]
      exact hc.stored i task eventId
    · exact hc.once
    · exact hc.single
    · exact hc.called
    · exact hc.atMostOnce
    · exact hc.noted
    · intro eventId
      rw [hdb]
      exact hc.inserted eventId

/-! ### What the deliveries of one event do -/

/-- A request was answered with `deduplicated = false` for an event. -/
def AnsweredNew (c : ServiceConfig ι) (i : ι) (eventId : EventId) : Prop :=
  ∃ vendorId request past,
    c.tasks i = some ⟨.receive vendorId request, past, .ret (.ingested ⟨eventId, false⟩)⟩

/-- How often a request has called `enqueue_process` for an event. -/
def callsOf (c : ServiceConfig ι) (i : ι) (eventId : EventId) : Nat :=
  match c.tasks i with
  | some ⟨.receive _ _, past, _⟩ => calls past eventId
  | _ => 0

/-- **At most one request handles an event as new**: it alone is answered so, and it alone
calls the queue, once. -/
structure HandledOnce (c : ServiceConfig ι) (eventId : EventId) : Prop where
  answered : ∀ i j, AnsweredNew c i eventId → AnsweredNew c j eventId → i = j
  atMostOnce : ∀ i, callsOf c i eventId ≤ 1
  called : ∀ i j, 0 < callsOf c i eventId → 0 < callsOf c j eventId → i = j
  same : ∀ i j, AnsweredNew c i eventId → 0 < callsOf c j eventId → i = j

/-- No request's call of the queue has failed. -/
def NoCallFailed (c : ServiceConfig ι) : Prop :=
  ∀ i task, c.tasks i = some task → ∀ done ∈ task.history, ∀ eventId, isCallFor eventId done = true →
    ∃ r, done.answer = .ok r

/-- Every request has been answered, or has raised an exception. -/
def AllFinished (c : ServiceConfig ι) : Prop :=
  ∀ i vendorId request past program, c.tasks i = some ⟨.receive vendorId request, past, program⟩ →
    ∀ o next, program ≠ .op o next

section Checks
variable (c : ServiceConfig ι)

omit [DecidableEq ι] in
theorem noCallFailed_iff : NoCallFailed c ↔ ∀ i, (c.tasks i).all (fun task => task.history.all fun done =>
    !(match done.op with | .enqueue _ => true | _ => false) || done.answer.isOk) = true := by
  have hcall : ∀ done : Performed PyError Op Op.Result,
      (!(match done.op with | .enqueue _ => true | _ => false) || done.answer.isOk) = true ↔
        ∀ eventId, isCallFor eventId done = true → ∃ r, done.answer = .ok r := by
    rintro ⟨o, answer⟩
    cases o with
    | enqueue id => cases answer <;> simp [isCallFor, Except.isOk, Except.toBool]
    | _ => simp [isCallFor]
  refine forall_congr' fun i => ?_
  cases c.tasks i with
  | none => simp
  | some task =>
    simp only [Option.some.injEq, forall_eq', Option.all_some, List.all_eq_true]
    exact forall₂_congr fun done _ => (hcall done).symm

instance [Fintype ι] : Decidable (NoCallFailed c) := decidable_of_iff _ (noCallFailed_iff c).symm

/-- The task of a request has nothing left to perform. -/
def isFinished (task : Programs.Task ServiceJob PyError Op Op.Result ServiceResult) : Bool :=
  match task.job, task.program with
  | .receive _ _, .op _ _ => false
  | _, _ => true

omit [DecidableEq ι] in
theorem allFinished_iff : AllFinished c ↔ ∀ i, (c.tasks i).all isFinished = true := by
  refine forall_congr' fun i => ?_
  cases htask : c.tasks i with
  | none => simp
  | some task =>
    obtain ⟨job, past, program⟩ := task
    rw [Option.all_some]
    constructor
    · intro h
      cases job with
      | receive vendorId request =>
        cases program with
        | op o next => exact absurd rfl (h vendorId request past _ rfl o next)
        | _ => rfl
      | _ => rfl
    · rintro h vendorId request _ _ ⟨⟩ o next rfl
      cases h

instance [Fintype ι] : Decidable (AllFinished c) := decidable_of_iff _ (allFinished_iff c).symm

end Checks

section Facts
variable {c : ServiceConfig ι} (hc : Delivered c) (hobeys : System.Obeys JobObeys JobEnds c)
include hc hobeys

omit [DecidableEq ι] hc in
theorem inserted_of_answeredNew {i : ι} {eventId : EventId} (h : AnsweredNew c i eventId) :
    ∃ task, c.tasks i = some task ∧ Inserted task.history eventId := by
  obtain ⟨vendorId, request, past, htask⟩ := h
  exact ⟨_, htask, (hobeys i _ htask).1⟩

omit [DecidableEq ι] hobeys in
theorem inserted_of_callsOf {i : ι} {eventId : EventId} (h : 0 < callsOf c i eventId) :
    ∃ task, c.tasks i = some task ∧ Inserted task.history eventId := by
  rw [callsOf] at h
  split at h
  · rename_i vendorId request past program htask
    exact ⟨_, htask, hc.called i _ eventId htask h⟩
  · cases h

omit [DecidableEq ι] in
theorem handledOnce (eventId : EventId) : HandledOnce c eventId := by
  have honce : ∀ {i j}, (∃ task, c.tasks i = some task ∧ Inserted task.history eventId) →
      (∃ task, c.tasks j = some task ∧ Inserted task.history eventId) → i = j := by
    rintro i j ⟨task, htask, hins⟩ ⟨task', htask', hins'⟩
    exact hc.once i j task task' eventId htask htask' hins hins'
  constructor
  · intro i j hi hj
    exact honce (inserted_of_answeredNew hobeys hi) (inserted_of_answeredNew hobeys hj)
  · intro i
    rw [callsOf]
    split
    · rename_i vendorId request past program htask
      exact hc.atMostOnce i _ eventId htask
    · exact Nat.zero_le 1
  · intro i j hi hj
    exact honce (inserted_of_callsOf hc hi) (inserted_of_callsOf hc hj)
  · intro i j hi hj
    exact honce (inserted_of_answeredNew hobeys hi) (inserted_of_callsOf hc hj)

omit [DecidableEq ι] in
/-- **The request that has inserted an event answers for it**, once it is done. -/
theorem answeredNew_of_inserted (hcalls : NoCallFailed c) (hfinished : AllFinished c) {i : ι}
    {task : Programs.Task ServiceJob PyError Op Op.Result ServiceResult} {vendorId : Option VendorPath}
    {request : Request} {eventId : EventId} (htask : c.tasks i = some task)
    (hjob : task.job = .receive vendorId request) (hins : Inserted task.history eventId) :
    AnsweredNew c i eventId ∧ callsOf c i eventId = 1 := by
  obtain ⟨job, past, program⟩ := task
  obtain rfl : job = .receive vendorId request := hjob
  have hends := hobeys i _ htask
  cases program with
  | op o next => exact absurd rfl (hfinished i vendorId request past _ htask o next)
  | raise e =>
    -- a request that has inserted raises only where a call failed
    rcases hends with hnone | ⟨done, hm, ⟨e', hfailed⟩, hkind⟩
    · exact absurd hins (hnone eventId)
    · have hanswered : ∃ r, done.answer = .ok r := by
        rcases hkind with hnote | ⟨id, hcall⟩
        · exact hc.noted i _ htask done hm hnote
        · exact hcalls i _ htask done hm id hcall
      obtain ⟨r, hok⟩ := hanswered
      rw [hfailed] at hok
      cases hok
  | ret result =>
    cases result with
    | ingested answer =>
      obtain ⟨id, deduplicated⟩ := answer
      cases deduplicated with
      | true => exact absurd hins (hends eventId)
      | false =>
        have hsame : id = eventId := hc.single i _ id eventId htask hends.1 hins
        subst hsame
        refine ⟨⟨vendorId, request, past, htask⟩, ?_⟩
        rw [callsOf, htask]
        exact hends.2
    | processed outcome => exact hends.elim
    | truncated => exact hends.elim

end Facts

/-- **Concurrent deliveries**: a raw event is there once and stays as it was received; at
most one request handles an event as new; and when every request is done and no call of
the queue has failed, exactly one has, for every event that is stored. -/
theorem deliveries_handled_once {c c' : ServiceConfig ι}
    (h : (deliveryService env settings).Reaches (fun _ _ => True) (Config.idle World.start) c)
    (h' : (deliveryService env settings).Reaches (fun _ _ => True) c c') :
    c'.state.db.rawEvents.keys.Nodup ∧
    (∀ eventId row, c.state.db.rawEvents.lookup eventId = some row →
      ∃ row', c'.state.db.rawEvents.lookup eventId = some row' ∧ row'.received = row.received) ∧
    (∀ eventId, HandledOnce c' eventId) ∧
    (NoCallFailed c' → AllFinished c' → ∀ eventId, (c'.state.db.rawEvents.lookup eventId).isSome →
      ∃ i, AnsweredNew c' i eventId ∧ callsOf c' i eventId = 1 ∧
        ∀ j, AnsweredNew c' j eventId ∨ 0 < callsOf c' j eventId → j = i) := by
  have hprograms := obeys_program env settings
  obtain ⟨hobeys, -⟩ := delivered_kept.reaches hprograms (System.obeys_idle World.start) delivered_idle h
  obtain ⟨hobeys', hdelivered⟩ := delivered_kept.reaches hprograms (System.obeys_idle World.start)
    delivered_idle (h.trans h')
  refine ⟨c'.state.db.rawEvents.keys_nodup, fun eventId row hrow => ?_,
    fun eventId => handledOnce hdelivered hobeys' eventId, fun hcalls hfinished eventId hstored => ?_⟩
  · refine ((System.kept_state (J := fun w : World => ∃ row', w.db.rawEvents.lookup eventId = some row' ∧
        row'.received = row.received) ?_ ?_).reaches hprograms hobeys ⟨row, hrow, rfl⟩ h').2
    · rintro job past o w - - ⟨row', hrow', hsame⟩
      obtain ⟨row'', hrow'', hsame'⟩ := received_handle o hrow'
      exact ⟨row'', hrow'', hsame'.trans hsame⟩
    · rintro w w' ⟨hdb, -⟩ hkept
      rw [hdb]
      exact hkept
  · obtain ⟨i, task, vendorId, request, htask, hjob, hins⟩ := hdelivered.inserted eventId hstored
    obtain ⟨hanswered, hone⟩ := answeredNew_of_inserted hdelivered hobeys' hcalls hfinished htask hjob hins
    refine ⟨i, hanswered, hone, fun j hj => ?_⟩
    have hhandled := handledOnce hdelivered hobeys' eventId
    rcases hj with hj | hj
    · exact hhandled.answered j i hj hanswered
    · exact (hhandled.same i j hanswered hj).symm

end Runs

/-- Two deliveries of the invoice, whose inserts come one after the other. -/
def twoDeliveries : List (System.Turn World (Fin 2) ServiceJob) :=
  let job : ServiceJob := .receive (some globalfreightpayPath) (issuedRequest "INV-1" "2026-04-28T05:00:00Z")
  [.start 0 job, .start 1 job, .perform 0, .perform 1, .perform 0, .perform 0]

/-- One of the two has handled it as new. -/
theorem two_deliveries_handled_once :
    let c' := twoDeliveries.foldl (System.turn (deliveryService april28Runtime .defaults))
      (Config.idle World.start)
    ∃ i, AnsweredNew c' i (issuedId "INV-1" "2026-04-28T05:00:00Z") ∧
      callsOf c' i (issuedId "INV-1" "2026-04-28T05:00:00Z") = 1 ∧
      ∀ j, AnsweredNew c' j (issuedId "INV-1" "2026-04-28T05:00:00Z") ∨
        0 < callsOf c' j (issuedId "INV-1" "2026-04-28T05:00:00Z") → j = i := by
  intro c'
  have hreaches : (deliveryService april28Runtime .defaults).Reaches (fun _ _ => True)
      (Config.idle World.start) c' :=
    System.reaches_schedule (System.along_turns (fun f hm => by simp [twoDeliveries] at hm) _)
  exact (deliveries_handled_once hreaches .refl).2.2.2 (by decide +kernel) (by decide +kernel) _
    (by decide +kernel)

end WebhookIngestion
