import WebhookIngestion.ServiceTasks

/-! # References between the tables

Five tables are written by six operations; what each row of one promises of another is an
invariant of the database (`CrossReferenced`).  Every operation of every job keeps it, so it
holds whatever the schedule, with failures at any point (`reaches_crossReferenced`). -/
namespace WebhookIngestion
open Tables Programs

/-! ### What applying adds -/

/-- An application records its own event, if any. -/
theorem Applies.applied_eq {s : Store} {k : EntityType} {ev : CanonicalEntityEvent k} {outcome : ApplyOutcome}
    {ws : List Write} (h : Applies s ev outcome ws) {id : EntityId} {eventId : EventId}
    (hne : eventId ≠ ev.eventId) :
    (s.writeAll ws).appliedEvents.lookup (id, eventId) = s.appliedEvents.lookup (id, eventId) := by
  have hobservation : ∀ id', Resource.appliedEvent id eventId ∉ (observation ev id').occupies := by
    intro id' hm
    simp only [observation, Write.occupies, List.mem_singleton, Resource.appliedEvent.injEq] at hm
    exact hne hm.2
  refine Store.lookup_writeAll_appliedEvents s fun w hw => ?_
  cases h with
  | alreadyApplied entity seen => cases hw
  | @initial id' fits noEntity unused =>
    rcases List.mem_cons.mp hw with rfl | hw
    · simp [Write.occupies]
    · rcases List.mem_cons.mp hw with rfl | hw
      · exact hobservation id'
      · obtain rfl := List.mem_singleton.mp hw
        simp [Write.occupies]
  | @existing id' row _ w' fits known decides =>
    rcases List.mem_cons.mp hw with rfl | hw
    · exact hobservation id'
    · obtain rfl := List.mem_singleton.mp hw
      cases decides <;> simp [Write.occupies]

/-- What is recorded of other events stays as it is. -/
theorem applied_applyEvent {s : Store} (hs : Sound s) (event : CanonicalEvent) {id : EntityId}
    {eventId : EventId} (hne : eventId ≠ event.base.eventId) :
    (applyEvent event s).2.appliedEvents.lookup (id, eventId) = s.appliedEvents.lookup (id, eventId) := by
  cases event with
  | unclassified ev => rfl
  | entity k ev =>
    obtain ⟨result, ws, n, hends, happly, -⟩ := applyEvent_entity_ends hs ev
    rw [happly]
    cases hends with
    | applied applies => exact applies.applied_eq hne
    | raised unfit new => rfl

/-! ### The invariant -/

/-- **What the rows of each table promise of the others.** -/
structure CrossReferenced (db : Database) : Prop where
  sound : Sound db.store
  /-- A processed raw event has a canonical event. -/
  processed : ∀ eventId row, db.rawEvents.lookup eventId = some row → row.processingStatus = .processed →
    (db.canonicalEvents.lookup eventId).isSome
  /-- A canonical event about an entity was applied to that entity. -/
  applied : ∀ eventId (k : EntityType) (ev : CanonicalEntityEvent k),
    db.canonicalEvents.lookup eventId = some (.entity k ev) → db.store.Observed ev.key eventId
  /-- An applied event has a canonical event. -/
  recorded : ∀ id eventId, (db.store.appliedEvents.lookup (id, eventId)).isSome →
    (db.canonicalEvents.lookup eventId).isSome
  /-- A raw event in review is on the list of reviews. -/
  reviewed : ∀ eventId row, db.rawEvents.lookup eventId = some row → row.processingStatus = .review →
    (db.requiresHumanReview.lookup eventId).isSome

theorem crossReferenced_empty : CrossReferenced Database.empty where
  sound := sound_empty
  processed eventId row h := by simp [Database.empty] at h
  applied eventId k ev h := by simp [Database.empty] at h
  recorded id eventId h := by simp [Database.empty, Store.empty] at h
  reviewed eventId row h := by simp [Database.empty] at h

section Database
variable {db : Database} (h : CrossReferenced db)
include h

/-- Other tables do not matter. -/
theorem CrossReferenced.frame {db' : Database} (hraw : db'.rawEvents = db.rawEvents)
    (hstore : db'.store = db.store) (hcanonical : db'.canonicalEvents = db.canonicalEvents)
    (hreview : db'.requiresHumanReview = db.requiresHumanReview) : CrossReferenced db' where
  sound := hstore ▸ h.sound
  processed eventId row := by
    rw [hraw, hcanonical]
    exact h.processed eventId row
  applied eventId k ev := by
    rw [hcanonical, hstore]
    exact h.applied eventId k ev
  recorded id eventId := by
    rw [hcanonical, hstore]
    exact h.recorded id eventId
  reviewed eventId row := by
    rw [hraw, hreview]
    exact h.reviewed eventId row

theorem CrossReferenced.insertRawEvent (eventId : EventId) (vendorId : Option String)
    (payload : JsonObject) (headers : List (String × String)) (signatureVerified : Bool) :
    CrossReferenced (db.insertRawEvent eventId vendorId payload headers signatureVerified) := by
  have hqueued : ∀ id row, (db.insertRawEvent eventId vendorId payload headers
      signatureVerified).rawEvents.lookup id = some row → row.processingStatus ≠ .queued →
        db.rawEvents.lookup id = some row := by
    intro id row hrow hne
    rw [Database.insertRawEvent, lookup_insert_eq] at hrow
    split at hrow
    · cases hrow
      exact absurd rfl hne
    · exact hrow
  refine { h with processed := fun id row hrow hstatus => ?_, reviewed := fun id row hrow hstatus => ?_ }
  · exact h.processed id row (hqueued id row hrow (by simp [hstatus])) hstatus
  · exact h.reviewed id row (hqueued id row hrow (by simp [hstatus])) hstatus

/-- A status that promises nothing may always be set. -/
theorem CrossReferenced.updateRawEvent (eventId : EventId) {set : RawEvent → RawEvent}
    (hset : ∀ row, (set row).processingStatus ≠ .processed ∧ (set row).processingStatus ≠ .review) :
    CrossReferenced (db.updateRawEvent eventId set) := by
  have hkept : ∀ id row, (db.updateRawEvent eventId set).rawEvents.lookup id = some row →
      row.processingStatus = .processed ∨ row.processingStatus = .review →
        db.rawEvents.lookup id = some row := by
    intro id row hrow hstatus
    rw [Database.updateRawEvent, lookup_updateRows] at hrow
    obtain ⟨old, hold, he⟩ := Option.map_eq_some_iff.mp hrow
    by_cases hid : id = eventId
    · rw [if_pos hid] at he
      subst he
      rcases hstatus with hs | hs
      · exact absurd hs (hset old).1
      · exact absurd hs (hset old).2
    · rw [if_neg hid] at he
      exact he ▸ hold
  refine { h with processed := fun id row hrow hstatus => ?_, reviewed := fun id row hrow hstatus => ?_ }
  · exact h.processed id row (hkept id row hrow (.inl hstatus)) hstatus
  · exact h.reviewed id row (hkept id row hrow (.inr hstatus)) hstatus

theorem CrossReferenced.markedReview (eventId : EventId) (reason : String) :
    CrossReferenced (db.markedReview eventId reason) := by
  have hlisted : ∀ id, (db.requiresHumanReview.lookup id).isSome ∨ id = eventId →
      ((db.markedReview eventId reason).requiresHumanReview.lookup id).isSome := by
    intro id hid
    simp only [Database.markedReview, Database.updateRawEvent]
    cases hold : db.requiresHumanReview.lookup eventId with
    | some old =>
      rcases hid with hid | rfl
      · exact hid
      · simp [hold]
    | none =>
      simp only [lookup_insert_eq]
      by_cases he : id = eventId
      · simp [he]
      · rw [if_neg he]
        exact hid.resolve_right he
  have hkept : ∀ id row, (db.markedReview eventId reason).rawEvents.lookup id = some row →
      id = eventId ∧ row.processingStatus = .review ∨ id ≠ eventId ∧ db.rawEvents.lookup id = some row := by
    intro id row hrow
    rw [Database.markedReview, Database.updateRawEvent, lookup_updateRows] at hrow
    obtain ⟨old, hold, he⟩ := Option.map_eq_some_iff.mp hrow
    by_cases hid : id = eventId
    · rw [if_pos hid] at he
      subst he
      exact .inl ⟨hid, rfl⟩
    · rw [if_neg hid] at he
      exact .inr ⟨hid, he ▸ hold⟩
  refine { h with processed := fun id row hrow hstatus => ?_, reviewed := fun id row hrow hstatus => ?_ }
  · rcases hkept id row hrow with ⟨-, hreview⟩ | ⟨-, hold⟩
    · rw [hstatus] at hreview
      cases hreview
    · exact h.processed id row hold hstatus
  · rcases hkept id row hrow with ⟨hid, -⟩ | ⟨-, hold⟩
    · exact hlisted id (.inr hid)
    · exact hlisted id (.inl (h.reviewed id row hold hstatus))

/-- **Finalizing an event keeps every promise**, also where it was applied before, under
whatever name. -/
theorem CrossReferenced.finalized {eventId : EventId} {event : CanonicalEvent} {outcome : ApplyOutcome}
    (hid : event.base.eventId = eventId) (hok : (applyEvent event db.store).1 = .ok outcome) :
    CrossReferenced (db.finalized eventId event (applyEvent event db.store).2) := by
  have hlookup : ∀ id, (db.finalized eventId event (applyEvent event db.store).2).canonicalEvents.lookup id =
      if id = eventId then some event else db.canonicalEvents.lookup id := by
    intro id
    rw [← hid]
    exact lookup_insert_eq ..
  have hsome : ∀ id, (db.canonicalEvents.lookup id).isSome →
      ((db.finalized eventId event (applyEvent event db.store).2).canonicalEvents.lookup id).isSome := by
    intro id hold
    rw [hlookup]
    split
    · rfl
    · exact hold
  have hkept : ∀ id row, (db.finalized eventId event (applyEvent event db.store).2).rawEvents.lookup id =
      some row → id = eventId ∧ row.processingStatus = .processed ∨
        id ≠ eventId ∧ db.rawEvents.lookup id = some row := by
    intro id row hrow
    rw [Database.finalized, Database.updateRawEvent, lookup_updateRows] at hrow
    obtain ⟨old, hold, he⟩ := Option.map_eq_some_iff.mp hrow
    by_cases he' : id = eventId
    · rw [if_pos he'] at he
      subst he
      exact .inl ⟨he', rfl⟩
    · rw [if_neg he'] at he
      exact .inr ⟨he', he ▸ hold⟩
  constructor
  · exact sound_applyEvent h.sound event
  · intro id row hrow hstatus
    rcases hkept id row hrow with ⟨rfl, -⟩ | ⟨-, hold⟩
    · rw [hlookup, if_pos rfl]
      rfl
    · exact hsome id (h.processed id row hold hstatus)
  · intro id k ev hevent
    rw [hlookup] at hevent
    split at hevent
    · rename_i he
      obtain rfl := Option.some.inj hevent
      have hobserved := observed_applyEvent h.sound hok
      have hev : ev.eventId = id := hid.trans he.symm
      rw [hev] at hobserved
      exact hobserved
    · exact (h.applied id k ev hevent).mono h.sound event
  · intro entityId id happlied
    by_cases he : id = eventId
    · rw [hlookup, if_pos he]
      rfl
    · refine hsome id (h.recorded entityId id ?_)
      rw [← applied_applyEvent h.sound event (hid ▸ he)]
      exact happlied
  · intro id row hrow hstatus
    rcases hkept id row hrow with ⟨-, hprocessed⟩ | ⟨-, hold⟩
    · rw [hstatus] at hprocessed
      cases hprocessed
    · exact h.reviewed id row hold hstatus

/-- A refused event leaves every promise as it was. -/
theorem CrossReferenced.refused {event : CanonicalEvent} {e : ApplyError}
    (herror : (applyEvent event db.store).1 = .error e) :
    CrossReferenced { db with store := (applyEvent event db.store).2 } := by
  have hsound := sound_applyEvent h.sound event
  rcases applyEvent_ok_or_raises h.sound event with ⟨outcome, hok⟩ | ⟨-, n, hrows⟩
  · cases hok.symm.trans herror
  · rw [hrows] at hsound ⊢
    exact { h with sound := hsound }

omit h in
/-- Truncation withdraws every promise. -/
theorem crossReferenced_truncated (db : Database) : CrossReferenced db.truncated := by
  have hqueued : ∀ id row, db.truncated.rawEvents.lookup id = some row → row.processingStatus = .queued := by
    intro id row hrow
    rw [Database.truncated, lookup_updateRows] at hrow
    obtain ⟨old, -, rfl⟩ := Option.map_eq_some_iff.mp hrow
    rfl
  constructor
  · exact sound_emptied _
  · intro id row hrow hstatus
    rw [hqueued id row hrow] at hstatus
    cases hstatus
  · intro id k ev hevent
    simp [Database.truncated] at hevent
  · intro id eventId happlied
    simp [Database.truncated, Store.empty] at happlied
  · intro id row hrow hstatus
    rw [hqueued id row hrow] at hstatus
    cases hstatus

end Database

/-! ### Every operation keeps it -/

/-- A job finalizes an event under its own id. -/
theorem finalize_of_obeys {job : ServiceJob} {past : Past} {eventId : EventId} {event : CanonicalEvent}
    (h : JobObeys job past (.finalize eventId event)) : event.base.eventId = eventId := by
  cases job with
  | receive => exact h.elim
  | work | replay => exact h.1
  | truncate => cases h

theorem crossReferenced_handle {o : Op} (hid : ∀ eventId event, o = .finalize eventId event →
      event.base.eventId = eventId) {w : World} (h : CrossReferenced w.db) :
    CrossReferenced (o.handle w).2.db := by
  by_cases hderives : o.Derives
  · cases o with
    | insertRawEvent eventId vendorId payload headers signatureVerified =>
      rw [Op.handle]
      split
      · exact h
      · exact h.insertRawEvent eventId vendorId payload headers signatureVerified
    | finalize eventId event =>
      rw [Op.handle]
      split
      · rename_i outcome store happly
        have hfinal := h.finalized (hid eventId event rfl) (congrArg Prod.fst happly)
        rw [happly] at hfinal
        exact hfinal
      · rename_i e store happly
        have hrefused := h.refused (congrArg Prod.fst happly)
        rw [happly] at hrefused
        exact hrefused
    | markReview eventId reason => exact h.markedReview eventId reason
    | markPendingLlm eventId reason => exact h.updateRawEvent eventId fun _ => ⟨by simp, by simp⟩
    | markFailed eventId error => exact h.updateRawEvent eventId fun _ => ⟨by simp, by simp⟩
    | truncate => exact crossReferenced_truncated w.db
    | _ => exact hderives.elim
  · obtain ⟨hraw, hstore, hcanonical, hreview⟩ := derived_handle hderives w
    exact h.frame hraw hstore hcanonical hreview

section Runs
variable (env : Externals) (settings : Settings) {ι : Type} [DecidableEq ι]

/-- **The tables are cross-referenced in every reachable state**, whatever jobs, replays and
truncations run beside each other and wherever they fail. -/
theorem reaches_crossReferenced
    {c : Config World ι ServiceJob PyError Op Op.Result ServiceResult}
    (h : (service env settings fun _ => True).Reaches (fun _ _ => True) (Config.idle World.start) c) :
    CrossReferenced c.state.db := by
  refine ((System.kept_state (J := fun w : World => CrossReferenced w.db) ?_ ?_).reaches
    (c := .idle World.start) (obeys_program env settings) (System.obeys_idle _) crossReferenced_empty h).2
  · intro job past o w hobeys _ hw
    refine crossReferenced_handle (fun eventId event he => ?_) hw
    subst he
    exact finalize_of_obeys hobeys
  · rintro w w' ⟨hdb, -⟩ hw
    rw [hdb]
    exact hw

end Runs

/-- The invoice is delivered, and a worker processes it. -/
def issuedSchedule : List (System.Turn World Nat ServiceJob) :=
  [.start 0 (.receive (some globalfreightpayPath) (issuedRequest "INV-1" "2026-04-28T05:00:00Z")),
    .perform 0, .perform 0, .perform 0, .outside fun w => w.facing 1 [.ok (issuedResult ["issued"])],
    .start 1 (.work (issuedId "INV-1" "2026-04-28T05:00:00Z"))] ++ List.replicate 11 (System.Turn.perform 1)

/-- The tables are cross-referenced once the invoice was processed. -/
theorem issued_crossReferenced :
    let c := issuedSchedule.foldl (System.turn (service april28Runtime .defaults fun _ => True))
      (Config.idle World.start)
    CrossReferenced c.state.db ∧
      (c.state.db.canonicalEvents.lookup (issuedId "INV-1" "2026-04-28T05:00:00Z")).isSome = true := by
  refine ⟨reaches_crossReferenced _ _ (System.reaches_schedule (System.along_turns (fun f hm w => ?_) _)), ?_⟩
  · simp only [issuedSchedule, List.cons_append, List.nil_append, List.mem_cons, reduceCtorEq, false_or,
      System.Turn.outside.injEq, List.mem_replicate, and_false, or_false] at hm
    subst hm
    exact ⟨rfl, rfl⟩
  · decide +kernel

end WebhookIngestion
