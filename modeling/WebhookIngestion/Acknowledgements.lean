import WebhookIngestion.Signatures

/-! # Acknowledged deliveries

The row of an event is committed before its job is put into the queue, and a repeated
delivery is answered for the row.  So an answer says that the job was put into the queue
once, or that the request that inserted the row failed there. -/
namespace WebhookIngestion
open Tables Programs

section Runs
variable (env : Externals) (settings : Settings)

/-- How a request is answered after a run; `ok` is a 202. -/
def answerTo (actions : List Action) (vendorId : Option VendorPath) (request : Request)
    (queueError : Option PyError) : Except PyError Ingested :=
  (Job.run (receive env settings vendorId request) { run env settings actions with queueError }).1

/-- **The request that inserted the event's row failed to put its job into the queue.** -/
def Stranded (actions : List Action) (eventId : EventId) : Prop :=
  ∃ before vendorId request e after, actions = before ++ .receive vendorId request (some e) :: after ∧
    (run env settings before).db.rawEvents.lookup eventId = none ∧
    ((run env settings (before ++ [.receive vendorId request (some e)])).db.rawEvents.lookup eventId).isSome ∧
    answerTo env settings before vendorId request (some e) = .error e

variable {env settings} {actions : List Action} {eventId : EventId}

theorem run_concat (action : Action) :
    run env settings (actions ++ [action]) = serve env settings (run env settings actions) action := by
  rw [run, List.foldl_append]
  rfl

theorem Stranded.concat (h : Stranded env settings actions eventId) (action : Action) :
    Stranded env settings (actions ++ [action]) eventId := by
  obtain ⟨before, vendorId, request, e, after, rfl, hrest⟩ := h
  exact ⟨before, vendorId, request, e, after ++ [action], by simp, hrest⟩

/-- A step of the worker adds no row. -/
theorem isSome_lookup_of_process {w : World} (hs : Sound w.db.store) {id : EventId} {day : Nat}
    {answers : List (Except PyError LLMResult)}
    (hrow : ((serve env settings w (.process id day answers)).db.rawEvents.lookup eventId).isSome) :
    (w.db.rawEvents.lookup eventId).isSome := by
  cases hid : w.db.rawEvents.lookup id with
  | none =>
    rw [serve, serve_process_none env settings hid] at hrow
    exact hrow
  | some row =>
    cases serve_process env settings hs hid day answers with
    | finalized _ _ _ _ _ _ hraw =>
      have hmap := congrArg Option.isSome (hraw eventId)
      rw [Option.isSome_map, Option.isSome_map] at hmap
      exact hmap ▸ hrow
    | raised _ _ _ _ _ _ _ hraw => exact hraw ▸ hrow
    | stopped _ _ _ hraw =>
      have hmap := congrArg Option.isSome (hraw eventId)
      rw [Option.isSome_map, Option.isSome_map] at hmap
      exact hmap ▸ hrow

/-- A delivery, from a run. -/
theorem serve_ingests (vendorId : Option VendorPath) (request : Request) (queueError : Option PyError) :
    Ingests env settings (vendorId.map VendorPath.text) request { run env settings actions with queueError }
      (answerTo env settings actions vendorId request queueError)
      (serve env settings (run env settings actions) (.receive vendorId request queueError)) :=
  ingest_ingests env settings (vendorId.map VendorPath.text) request { run env settings actions with queueError }

/-- **A row that is there is of an event that was put into the queue**, or whose request failed
at that: what inserts a row does one of the two, and no step undoes it. -/
theorem enqueued_or_stranded (hrow : ((run env settings actions).db.rawEvents.lookup eventId).isSome) :
    Mark.enqueued eventId ∈ (run env settings actions).trace ∨ Stranded env settings actions eventId := by
  induction actions using List.reverseRecOn with
  | nil => simp [run, World.start, Database.empty] at hrow
  | append_singleton actions action ih =>
    by_cases hold : ((run env settings actions).db.rawEvents.lookup eventId).isSome
    · rcases ih hold with hmark | hstranded
      · rw [run_concat]
        exact .inl (mem_trace_serve hmark action)
      · exact .inr (hstranded.concat action)
    · have hnone : (run env settings actions).db.rawEvents.lookup eventId = none := by simpa using hold
      have hrun := hrow
      rw [run_concat] at hrow ⊢
      cases action with
      | process id day answers => exact absurd (isSome_lookup_of_process (sound_run env settings actions) hrow) hold
      | receive vendorId request queueError =>
        have hingests := @serve_ingests env settings actions vendorId request queueError
        generalize hanswer : answerTo env settings actions vendorId request queueError = answer at hingests
        generalize hserve : serve env settings (run env settings actions) (.receive vendorId request queueError) = w'
          at hingests hrow ⊢
        cases hingests with
        | refused => exact absurd hrow hold
        | repeated hrepeated => exact absurd hrow hold
        | @inserted id payload signatureVerified _ _ hid hverify hnew hqueues =>
          have hsame : id = eventId := by
            by_contra hne
            have hlookup : w'.db.rawEvents.lookup eventId = none := by
              cases hqueues <;> exact (AList.lookup_insert_ne (Ne.symm hne)).trans hnone
            rw [hlookup] at hrow
            cases hrow
          subst hsame
          cases hqueues with
          | enqueued hqueue => exact .inl List.mem_cons_self
          | @failed e hqueue =>
            cases hqueue
            exact .inr ⟨actions, vendorId, request, e, [], rfl, hnone, hrun, hanswer⟩

/-- **An acknowledged delivery is in the queue**, put there for its own request or for an earlier
one, unless the request that inserted its row failed at that. -/
theorem acknowledged_enqueued_or_stranded {vendorId : Option VendorPath} {request : Request}
    {queueError : Option PyError} {ingested : Ingested}
    (h : answerTo env settings actions vendorId request queueError = .ok ingested) :
    Mark.enqueued ingested.eventId ∈
        (run env settings (actions ++ [.receive vendorId request queueError])).trace ∨
      Stranded env settings actions ingested.eventId := by
  have hingests := @serve_ingests env settings actions vendorId request queueError
  rw [h] at hingests
  rw [run_concat]
  generalize serve env settings (run env settings actions) (.receive vendorId request queueError) = w' at hingests
  cases hingests with
  | repeated hrow =>
    exact enqueued_or_stranded (Option.isSome_iff_exists.mpr ⟨_, hrow⟩)
  | inserted hid hverify hnew hqueues =>
    cases hqueues with
    | enqueued hqueue => exact .inl List.mem_cons_self

end Runs

/-- A delivery of the invoice, with the queue as it is. -/
def issuedPost (queueError : Option PyError) : Action :=
  .receive (some globalfreightpayPath) (issuedRequest "INV-1" "2026-04-28T05:00:00Z") queueError

theorem acknowledged_enqueued_or_stranded_witness :
    Mark.enqueued (issuedId "INV-1" "2026-04-28T05:00:00Z") ∈
        (run april28Runtime .defaults ([issuedPost (some .databaseError)] ++ [issuedPost none])).trace ∨
      Stranded april28Runtime .defaults [issuedPost (some .databaseError)]
        (issuedId "INV-1" "2026-04-28T05:00:00Z") := by
  have hanswer : answerTo april28Runtime .defaults [issuedPost (some .databaseError)] (some globalfreightpayPath)
      (issuedRequest "INV-1" "2026-04-28T05:00:00Z") none =
        .ok ⟨issuedId "INV-1" "2026-04-28T05:00:00Z", true⟩ := by decide +kernel
  exact acknowledged_enqueued_or_stranded hanswer

/-- The queue is down for a delivery and up again for its repeat: the repeat is acknowledged, and
the event is in no queue. -/
theorem repeat_acknowledged_without_job :
    answerTo april28Runtime .defaults [] (some globalfreightpayPath)
        (issuedRequest "INV-1" "2026-04-28T05:00:00Z") (some .databaseError) = .error .databaseError ∧
      answerTo april28Runtime .defaults [issuedPost (some .databaseError)] (some globalfreightpayPath)
          (issuedRequest "INV-1" "2026-04-28T05:00:00Z") none =
        .ok ⟨issuedId "INV-1" "2026-04-28T05:00:00Z", true⟩ ∧
      Mark.enqueued (issuedId "INV-1" "2026-04-28T05:00:00Z") ∉
        (run april28Runtime .defaults [issuedPost (some .databaseError), issuedPost none]).trace := by
  refine ⟨by decide +kernel, by decide +kernel, by decide +kernel⟩

end WebhookIngestion
