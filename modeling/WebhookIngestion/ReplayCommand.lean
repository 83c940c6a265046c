import Mathlib.Data.List.Sort
import Mathlib.Data.Prod.Lex
import Mathlib.Data.String.Basic
import WebhookIngestion.Replays
import WebhookIngestion.ServedRows

/-! # The replay command

`_run` of `app/tools/replay.py`: it may truncate the projections, selects raw events by vendor,
time and external id, and runs `process_event` on them in the order of their receipt, here or
through the queue.  A window replayed in two parts is the window replayed at once
(`replay_windows`), what the command logs of an event is how the event ends
(`replay_reports`), and the workers do with a queue what the command does by itself
(`queued_replay_agrees`). -/
namespace WebhookIngestion
open Tables Programs

/-! ### Selecting raw events -/

/-- The options of the command; times are those of `received_at`. -/
structure ReplayOptions where
  vendor : Option String
  since : Option Int
  until' : Option Int
  externalId : Option String
  truncateProjections : Bool
  mode : String
  limit : Option Int

/-- `document ->> key`; `shown` is how the database shows a number or a container. -/
def textAt (shown : Json → String) (document : Json) (key : String) : Option String :=
  match document with
  | .obj fields =>
    match JsonObject.get fields key with
    | .null => none
    | .str s => some s
    | .bool b => some (if b then "true" else "false")
    | value => some (shown value)
  | _ => none

/-- Where the command looks for an external id. -/
def externalIds (shown : Json → String) (payload : JsonObject) : List (Option String) :=
  [textAt shown (payload.get "transport_doc") "number", textAt shown (.obj payload) "container",
    textAt shown (.obj payload) "house_bl", textAt shown (.obj payload) "master_bl",
    textAt shown (.obj payload) "doc_ref", textAt shown (.obj payload) "tracking_number"]

/-- The `WHERE` of the selection. -/
def ReplayOptions.selects (options : ReplayOptions) (shown : Json → String) (receivedAt : Int) (row : RawEvent) :
    Bool :=
  (options.vendor.all fun vendor => row.vendorId = some vendor) &&
    (options.since.all fun since => since ≤ receivedAt) &&
    (options.until'.all fun until' => receivedAt < until') &&
    (options.externalId.all fun externalId => (externalIds shown row.payload).contains (some externalId))

/-- `ORDER BY received_at ASC, event_id ASC`. -/
def inOrder (receivedAt : EventId → Int) (eventIds : List EventId) : List EventId :=
  ((eventIds.map fun eventId => toLex (receivedAt eventId, eventId)).insertionSort (· ≤ ·)).map fun key =>
    (ofLex key).2

/-- One event was received before another, or has the smaller id. -/
def Earlier (receivedAt : EventId → Int) (eventId eventId' : EventId) : Prop :=
  toLex (receivedAt eventId, eventId) < toLex (receivedAt eventId', eventId')

section Selection
variable (receivedAt : EventId → Int) (shown : Json → String)

/-- The selected events, in order. -/
def ReplayOptions.selected (options : ReplayOptions) (db : Database) : List EventId :=
  inOrder receivedAt ((db.rawEvents.entries.filter fun e => options.selects shown (receivedAt e.1) e.2).map Sigma.fst)

/-- The rows the statement returns, with its `LIMIT`. -/
def ReplayOptions.planned (options : ReplayOptions) (db : Database) : Except PyError (List EventId) :=
  match options.limit with
  | none => .ok (options.selected receivedAt shown db)
  | some limit =>
    if limit < 0 then .error .databaseError else .ok ((options.selected receivedAt shown db).take limit.toNat)

variable {receivedAt shown} {options : ReplayOptions} {db : Database}

theorem mem_inOrder {eventIds : List EventId} {eventId : EventId} :
    eventId ∈ inOrder receivedAt eventIds ↔ eventId ∈ eventIds := by
  unfold inOrder
  rw [List.mem_map]
  constructor
  · rintro ⟨key, hkey, rfl⟩
    obtain ⟨id, hid, rfl⟩ := List.mem_map.mp ((List.mem_insertionSort _).mp hkey)
    exact hid
  · intro hid
    exact ⟨_, (List.mem_insertionSort _).mpr (List.mem_map.mpr ⟨eventId, hid, rfl⟩), rfl⟩

/-- Different events come one before the other. -/
theorem pairwise_inOrder {eventIds : List EventId} (h : eventIds.Nodup) :
    (inOrder receivedAt eventIds).Pairwise (Earlier receivedAt) := by
  have hkeys : ∀ key ∈ (eventIds.map fun eventId => toLex (receivedAt eventId, eventId)).insertionSort (· ≤ ·),
      toLex (receivedAt (ofLex key).2, (ofLex key).2) = key := by
    intro key hkey
    obtain ⟨id, -, rfl⟩ := List.mem_map.mp ((List.mem_insertionSort _).mp hkey)
    rfl
  have hnodup : ((eventIds.map fun eventId => toLex (receivedAt eventId, eventId)).insertionSort (· ≤ ·)).Nodup := by
    refine (List.perm_insertionSort _ _).nodup_iff.mpr (h.map fun id id' hsame => ?_)
    exact (Prod.mk.inj (toLex.injective hsame)).2
  have hsorted := List.pairwise_insertionSort (· ≤ ·) (eventIds.map fun eventId => toLex (receivedAt eventId, eventId))
  unfold inOrder
  rw [List.pairwise_map]
  refine List.Pairwise.imp_of_mem (R := fun a b => a ≤ b ∧ a ≠ b) (fun {a b} ha hb hab => ?_) (hsorted.and hnodup)
  unfold Earlier
  rw [hkeys a ha, hkeys b hb]
  exact lt_of_le_of_ne hab.1 hab.2

/-- A row is selected for what it is, and for when it was received. -/
theorem selects_iff {time : Int} {row : RawEvent} :
    options.selects shown time row = true ↔
      ((∀ vendor ∈ options.vendor, row.vendorId = some vendor) ∧
        ∀ externalId ∈ options.externalId, some externalId ∈ externalIds shown row.payload) ∧
      (∀ since ∈ options.since, since ≤ time) ∧ ∀ until' ∈ options.until', time < until' := by
  unfold ReplayOptions.selects
  simp only [Bool.and_eq_true, Option.all_eq_true, decide_eq_true_eq, List.contains_iff_mem]
  constructor
  · rintro ⟨⟨⟨hvendor, hsince⟩, huntil⟩, hexternal⟩
    exact ⟨⟨hvendor, hexternal⟩, hsince, huntil⟩
  · rintro ⟨⟨hvendor, hexternal⟩, hsince, huntil⟩
    exact ⟨⟨⟨hvendor, hsince⟩, huntil⟩, hexternal⟩

theorem mem_selected {eventId : EventId} :
    eventId ∈ options.selected receivedAt shown db ↔ ∃ row, db.rawEvents.lookup eventId = some row ∧
      options.selects shown (receivedAt eventId) row = true := by
  unfold ReplayOptions.selected
  rw [mem_inOrder, List.mem_map]
  constructor
  · rintro ⟨⟨id, row⟩, hmem, rfl⟩
    obtain ⟨hentry, hselects⟩ := List.mem_filter.mp hmem
    exact ⟨row, mem_entries_iff.mp hentry, hselects⟩
  · rintro ⟨row, hrow, hselects⟩
    exact ⟨⟨eventId, row⟩, List.mem_filter.mpr ⟨mem_entries_iff.mpr hrow, hselects⟩, rfl⟩

theorem pairwise_selected : (options.selected receivedAt shown db).Pairwise (Earlier receivedAt) :=
  pairwise_inOrder (db.rawEvents.nodupKeys.sublist List.filter_sublist)

/-- **A selection is known by its members**: the order is that of receipt. -/
theorem selected_eq {eventIds : List EventId} (hsorted : eventIds.Pairwise (Earlier receivedAt))
    (hmem : ∀ eventId, eventId ∈ eventIds ↔ ∃ row, db.rawEvents.lookup eventId = some row ∧
      options.selects shown (receivedAt eventId) row = true) : options.selected receivedAt shown db = eventIds := by
  have : Std.Antisymm (Earlier receivedAt) := ⟨fun a b hab hba => absurd hab (lt_asymm hba)⟩
  have : Std.Irrefl (Earlier receivedAt) := ⟨fun a haa => lt_irrefl _ haa⟩
  exact pairwise_selected.eq_of_mem_iff hsorted fun eventId => mem_selected.trans (hmem eventId).symm

end Selection

/-! ### Replaying -/

inductive ReplayError where
  /-- The queue was not initialized. -/
  | runtimeError
  | raised (e : PyError)
  deriving DecidableEq

section Replay
variable (env : Externals) (settings : Settings)

/-- The loop in `inline` mode, with the outcomes that it logs. -/
def replayInline : List EventId → Job (List ProcessOutcome)
  | [] => return []
  | eventId :: eventIds => do
    let outcome ← processEvent env settings eventId
    let outcomes ← replayInline eventIds
    return outcome :: outcomes

/-- The loop in `enqueue` mode. -/
def replayEnqueue : List EventId → Job Unit
  | [] => return ()
  | eventId :: eventIds => do
    .perform (Op.enqueue eventId)
    replayEnqueue eventIds

/-- What workers do with the jobs of a queue, one after the other. -/
def workQueue : List EventId → Job (List ProcessOutcome)
  | [] => return []
  | eventId :: eventIds => do
    let outcome ← processWebhook env settings eventId
    let outcomes ← workQueue eventIds
    return outcome :: outcomes

variable (receivedAt : EventId → Int) (shown : Json → String)

/-- The loop, in the mode of the command; a mode that is neither goes to a queue that is not there. -/
def ReplayOptions.loop (options : ReplayOptions) (eventIds : List EventId) (w : World) :
    Except ReplayError (List ProcessOutcome) × World :=
  if options.mode = "inline" then
    let (r, w) := Job.run (replayInline env settings eventIds) w
    (r.mapError .raised, w)
  else if options.mode = "enqueue" then
    let (r, w) := Job.run (replayEnqueue eventIds) w
    ((r.map fun _ => []).mapError .raised, w)
  else if eventIds = [] then (.ok [], w)
  else (.error .runtimeError, w)

/-- `if truncate_projections: await truncate(pool)`. -/
def ReplayOptions.prepare (options : ReplayOptions) (w : World) : World :=
  if options.truncateProjections then truncate w else w

/-- `_run`; `init_queue` raises where the queue is down. -/
def replay (options : ReplayOptions) (w : World) : Except ReplayError (List ProcessOutcome) × World :=
  match w.queueError, decide (options.mode = "enqueue") with
  | some e, true => (.error (.raised e), w)
  | _, _ =>
    match options.planned receivedAt shown (options.prepare w).db with
    | .error e => (.error (.raised e), options.prepare w)
    | .ok eventIds => options.loop env settings eventIds (options.prepare w)

/-! ### Other rows -/

/-- What is performed for a row leaves the other rows. -/
theorem otherRow_serves {eventId id : EventId} {row : RawEvent} {o : Op} (h : o.Serves env eventId row)
    (hne : id ≠ eventId) (w : World) : (o.handle w).2.db.rawEvents.lookup id = w.db.rawEvents.lookup id := by
  have hupdate (db : Database) (set : RawEvent → RawEvent) :
      (db.updateRawEvent eventId set).rawEvents.lookup id = db.rawEvents.lookup id := by
    rw [Database.updateRawEvent, lookup_updateRows]
    simp only [if_neg hne]
    exact Option.map_id'
  by_cases hderives : o.Derives
  · cases o with
    | finalize id' canonical =>
      obtain ⟨rfl, -⟩ := h
      rw [Op.handle]
      split
      · exact hupdate { w.db with store := _, canonicalEvents := _ } _
      · rfl
    | markReview id' reason =>
      obtain ⟨rfl, -⟩ := h
      exact hupdate { w.db with requiresHumanReview := _ } _
    | markPendingLlm id' reason =>
      obtain ⟨rfl, -⟩ := h
      exact hupdate w.db _
    | insertRawEvent | markFailed | truncate => exact h.elim
    | _ => exact hderives.elim
  · rw [(derived_handle hderives w).1]

/-- **Processing an event leaves the rows of the others.** -/
theorem otherRow_processEvent {eventId id : EventId} (hne : id ≠ eventId) (w : World) :
    (Job.run (processEvent env settings eventId) w).2.db.rawEvents.lookup id = w.db.rawEvents.lookup id := by
  have hselect : (Op.selectRawEvent eventId).handle w = (.ok (w.db.rawEvents.lookup eventId), w) := rfl
  unfold Job.run processEvent
  rw [Program.run_perform_bind Op.handle hselect]
  cases w.db.rawEvents.lookup eventId with
  | none => rfl
  | some row =>
    refine Program.Keeps.run (I := fun w' : World => w'.db.rawEvents.lookup id = w.db.rawEvents.lookup id)
      ((serves_processRow env settings eventId row).keeps fun o hserves w' hw' => ?_) rfl
    rw [otherRow_serves env hserves hne w']
    exact hw'

theorem run_replayInline_cons (eventId : EventId) (eventIds : List EventId) (w : World) :
    Job.run (replayInline env settings (eventId :: eventIds)) w =
      match Job.run (processEvent env settings eventId) w with
      | (.ok outcome, w') =>
        ((Job.run (replayInline env settings eventIds) w').1.map (outcome :: ·),
          (Job.run (replayInline env settings eventIds) w').2)
      | (.error e, w') => (.error e, w') := by
  unfold Job.run
  rw [replayInline, Program.run_bind]
  cases Program.run Op.handle (processEvent env settings eventId) w with
  | mk r w' =>
    cases r with
    | error e => rfl
    | ok outcome =>
      dsimp only
      rw [Program.run_bind]
      cases Program.run Op.handle (replayInline env settings eventIds) w' with
      | mk r w'' => cases r <;> rfl

theorem otherRow_replayInline {eventIds : List EventId} {id : EventId} (h : id ∉ eventIds) (w : World) :
    (Job.run (replayInline env settings eventIds) w).2.db.rawEvents.lookup id = w.db.rawEvents.lookup id := by
  induction eventIds generalizing w with
  | nil => rfl
  | cons eventId eventIds ih =>
    rw [List.mem_cons, not_or] at h
    obtain ⟨hne, hrest⟩ := h
    have hrow := otherRow_processEvent env settings hne w
    rw [run_replayInline_cons]
    cases hrun : Job.run (processEvent env settings eventId) w with
    | mk r w' =>
      rw [hrun] at hrow
      cases r with
      | error e => exact hrow
      | ok outcome => exact (ih hrest w').trans hrow

/-! ### Windows -/

/-- The loop over two lists is the loop over the one and then over the other. -/
theorem run_replayInline_append (eventIds eventIds' : List EventId) (w : World) :
    Job.run (replayInline env settings (eventIds ++ eventIds')) w =
      match Job.run (replayInline env settings eventIds) w with
      | (.ok outcomes, w') =>
        ((Job.run (replayInline env settings eventIds') w').1.map (outcomes ++ ·),
          (Job.run (replayInline env settings eventIds') w').2)
      | (.error e, w') => (.error e, w') := by
  induction eventIds generalizing w with
  | nil =>
    have hnil : Job.run (replayInline env settings []) w = (.ok [], w) := rfl
    rw [hnil, List.nil_append]
    dsimp only
    cases Job.run (replayInline env settings eventIds') w with
    | mk r w' => cases r <;> rfl
  | cons eventId eventIds ih =>
    rw [List.cons_append, run_replayInline_cons, run_replayInline_cons]
    cases Job.run (processEvent env settings eventId) w with
    | mk r w' =>
      cases r with
      | error e => rfl
      | ok outcome =>
        dsimp only
        rw [ih]
        cases Job.run (replayInline env settings eventIds) w' with
        | mk r w'' =>
          cases r with
          | error e => rfl
          | ok outcomes =>
            dsimp only [Except.map]
            cases Job.run (replayInline env settings eventIds') w'' with
            | mk r w₃ => cases r <;> rfl

variable {receivedAt shown} {options : ReplayOptions}

/-- **A window is selected in two parts**, the earlier one first. -/
theorem selected_windows {middle : Int} (hsince : ∀ since ∈ options.since, since ≤ middle)
    (huntil : ∀ until' ∈ options.until', middle ≤ until') (db : Database) :
    options.selected receivedAt shown db =
      { options with until' := some middle }.selected receivedAt shown db ++
        { options with since := some middle }.selected receivedAt shown db := by
  have hearlier : ∀ time row, { options with until' := some middle }.selects shown time row = true ↔
      options.selects shown time row = true ∧ time < middle := by
    intro time row
    rw [selects_iff, selects_iff]
    constructor
    · rintro ⟨hrow, hsince, hmiddle⟩
      have hlt := hmiddle middle rfl
      exact ⟨⟨hrow, hsince, fun until' hmem => hlt.trans_le (huntil until' hmem)⟩, hlt⟩
    · rintro ⟨⟨hrow, hsince, -⟩, hlt⟩
      exact ⟨hrow, hsince, fun _ hmem => Option.some.inj hmem ▸ hlt⟩
  have hlater : ∀ time row, { options with since := some middle }.selects shown time row = true ↔
      options.selects shown time row = true ∧ middle ≤ time := by
    intro time row
    rw [selects_iff, selects_iff]
    constructor
    · rintro ⟨hrow, hmiddle, huntil⟩
      have hle := hmiddle middle rfl
      exact ⟨⟨hrow, fun since hmem => (hsince since hmem).trans hle, huntil⟩, hle⟩
    · rintro ⟨⟨hrow, -, huntil⟩, hle⟩
      exact ⟨hrow, fun _ hmem => Option.some.inj hmem ▸ hle, huntil⟩
  refine selected_eq (List.pairwise_append.mpr ⟨pairwise_selected, pairwise_selected, fun id hid id' hid' => ?_⟩)
    fun eventId => ?_
  · obtain ⟨row, -, hselects⟩ := mem_selected.mp hid
    obtain ⟨row', -, hselects'⟩ := mem_selected.mp hid'
    exact Prod.Lex.toLex_lt_toLex.mpr
      (.inl (((hearlier _ row).mp hselects).2.trans_le ((hlater _ row').mp hselects').2))
  · rw [List.mem_append, mem_selected, mem_selected]
    constructor
    · rintro (⟨row, hrow, hselects⟩ | ⟨row, hrow, hselects⟩)
      · exact ⟨row, hrow, ((hearlier _ row).mp hselects).1⟩
      · exact ⟨row, hrow, ((hlater _ row).mp hselects).1⟩
    · -- an event of the window is in one of the parts, by the time of its receipt
      rintro ⟨row, hrow, hselects⟩
      by_cases htime : receivedAt eventId < middle
      · exact .inl ⟨row, hrow, (hearlier _ row).mpr ⟨hselects, htime⟩⟩
      · exact .inr ⟨row, hrow, (hlater _ row).mpr ⟨hselects, not_lt.mp htime⟩⟩

/-- A selection looks at no rows but those that it may select. -/
theorem selected_congr {db db' : Database}
    (h : ∀ eventId, (∃ row, options.selects shown (receivedAt eventId) row = true) →
      db'.rawEvents.lookup eventId = db.rawEvents.lookup eventId) :
    options.selected receivedAt shown db' = options.selected receivedAt shown db := by
  refine selected_eq pairwise_selected fun eventId => ?_
  rw [mem_selected]
  constructor
  · rintro ⟨row, hrow, hselects⟩
    exact ⟨row, (h eventId ⟨row, hselects⟩).trans hrow, hselects⟩
  · rintro ⟨row, hrow, hselects⟩
    exact ⟨row, (h eventId ⟨row, hselects⟩).symm.trans hrow, hselects⟩

/-- An inline replay of a window is the loop over what it selects. -/
theorem replay_inline (hinline : options.mode = "inline") (htruncate : options.truncateProjections = false)
    (hlimit : options.limit = none) (w : World) :
    replay env settings receivedAt shown options w =
      ((Job.run (replayInline env settings (options.selected receivedAt shown w.db)) w).1.mapError .raised,
        (Job.run (replayInline env settings (options.selected receivedAt shown w.db)) w).2) := by
  have hmode : decide (options.mode = "enqueue") = false := by
    rw [hinline]
    decide
  have hprepare : options.prepare w = w := by
    unfold ReplayOptions.prepare
    rw [htruncate]
    rfl
  have hplanned : options.planned receivedAt shown w.db = .ok (options.selected receivedAt shown w.db) := by
    unfold ReplayOptions.planned
    rw [hlimit]
  unfold replay
  rw [hmode, hprepare, hplanned]
  dsimp only
  unfold ReplayOptions.loop
  rw [if_pos hinline]
  cases w.queueError <;> rfl

/-- **A window replayed in two parts is the window replayed at once**: the second part selects
what it would have selected before the first one, which has changed no row of it. -/
theorem replay_windows (hinline : options.mode = "inline") (htruncate : options.truncateProjections = false)
    (hlimit : options.limit = none) {middle : Int} (hsince : ∀ since ∈ options.since, since ≤ middle)
    (huntil : ∀ until' ∈ options.until', middle ≤ until') (w : World) :
    replay env settings receivedAt shown options w =
      match replay env settings receivedAt shown { options with until' := some middle } w with
      | (.ok outcomes, w') =>
        let second := replay env settings receivedAt shown { options with since := some middle } w'
        (second.1.map (outcomes ++ ·), second.2)
      | (.error e, w') => (.error e, w') := by
  rw [replay_inline env settings hinline htruncate hlimit,
    @replay_inline env settings receivedAt shown { options with until' := some middle } hinline htruncate hlimit,
    selected_windows hsince huntil, run_replayInline_append]
  cases hrun : Job.run (replayInline env settings
      ({ options with until' := some middle }.selected receivedAt shown w.db)) w with
  | mk r w' =>
    cases r with
    | error e => rfl
    | ok outcomes =>
      have hsecond : { options with since := some middle }.selected receivedAt shown w'.db =
          { options with since := some middle }.selected receivedAt shown w.db := by
        refine selected_congr fun eventId ⟨row, hselects⟩ => ?_
        have hout : eventId ∉ { options with until' := some middle }.selected receivedAt shown w.db := by
          intro hmem
          obtain ⟨row', -, hselects'⟩ := mem_selected.mp hmem
          have hlt := (selects_iff.mp hselects').2.2 middle rfl
          have hle := (selects_iff.mp hselects).2.1 middle rfl
          omega
        have hrow := otherRow_replayInline env settings hout w
        rw [hrun] at hrow
        exact hrow
      dsimp only [Except.mapError]
      rw [@replay_inline env settings receivedAt shown { options with since := some middle } hinline htruncate hlimit,
        hsecond]
      cases Job.run (replayInline env settings
          ({ options with since := some middle }.selected receivedAt shown w.db)) w' with
      | mk r w'' => cases r <;> rfl

/-! ### What is logged of an event -/

/-- The status that an outcome goes with; an event that is not found has none. -/
def ProcessOutcome.status : ProcessOutcome → Option ProcessingStatus
  | .notFound => none
  | .finalized _ => some .processed
  | .pendingLlm => some .pendingLlm
  | .requiresReview => some .review

/-- **An outcome says what has become of the event**, in its row and beside it. -/
structure Reports (db : Database) (eventId : EventId) (outcome : ProcessOutcome) : Prop where
  status : (db.rawEvents.lookup eventId).map RawEvent.processingStatus = outcome.status
  canonical : ∀ verdict, outcome = .finalized verdict → (db.canonicalEvents.lookup eventId).isSome
  review : outcome = .requiresReview → (db.requiresHumanReview.lookup eventId).isSome

theorem status_updateRawEvent (db : Database) {eventId : EventId} (h : (db.rawEvents.lookup eventId).isSome)
    {set : RawEvent → RawEvent} {status : ProcessingStatus} (hset : ∀ row, (set row).processingStatus = status) :
    ((db.updateRawEvent eventId set).rawEvents.lookup eventId).map RawEvent.processingStatus = some status := by
  obtain ⟨row, hrow⟩ := Option.isSome_iff_exists.mp h
  rw [Database.updateRawEvent, lookup_updateRows, hrow, Option.map_some, if_pos rfl, Option.map_some, hset]

/-- What is performed for a row drops no row, no canonical event and no review. -/
theorem stays_serves {eventId : EventId} {row : RawEvent} {o : Op} (h : o.Serves env eventId row) (id : EventId)
    (w : World) :
    ((w.db.rawEvents.lookup id).isSome → ((o.handle w).2.db.rawEvents.lookup id).isSome) ∧
      ((w.db.canonicalEvents.lookup id).isSome → ((o.handle w).2.db.canonicalEvents.lookup id).isSome) ∧
        ((w.db.requiresHumanReview.lookup id).isSome → ((o.handle w).2.db.requiresHumanReview.lookup id).isSome) := by
  have hrows (db : Database) (id' : EventId) (set : RawEvent → RawEvent) (hrow : (db.rawEvents.lookup id).isSome) :
      ((db.updateRawEvent id' set).rawEvents.lookup id).isSome := by
    rw [Database.updateRawEvent, lookup_updateRows, Option.isSome_map]
    exact hrow
  by_cases hderives : o.Derives
  · cases o with
    | finalize id' canonical =>
      rw [Op.handle]
      split
      · exact ⟨hrows { w.db with store := _, canonicalEvents := _ } _ _, isSome_lookup_insert, fun hreview => hreview⟩
      · exact ⟨fun hrow => hrow, fun hcanonical => hcanonical, fun hreview => hreview⟩
    | markReview id' reason =>
      refine ⟨hrows { w.db with requiresHumanReview := _ } _ _, fun hcanonical => hcanonical, fun hreview => ?_⟩
      simp only [Op.handle, Database.markedReview, Database.updateRawEvent]
      split
      · exact hreview
      · exact isSome_lookup_insert hreview
    | markPendingLlm id' reason =>
      exact ⟨hrows w.db _ _, fun hcanonical => hcanonical, fun hreview => hreview⟩
    | insertRawEvent | markFailed | truncate => exact h.elim
    | _ => exact hderives.elim
  · obtain ⟨hraw, -, hcanonical, hreview⟩ := derived_handle hderives w
    rw [hraw, hcanonical, hreview]
    exact ⟨fun h => h, fun h => h, fun h => h⟩

section Row
variable {eventId : EventId} {row : RawEvent}

/-- The event has a row. -/
def HasRow (eventId : EventId) (w : World) : Prop := (w.db.rawEvents.lookup eventId).isSome

/-- The outcome, if there is one, says what the row's status is and whether there is a review. -/
def Settled (eventId : EventId) (r : Except PyError ProcessOutcome) (w : World) : Prop :=
  ∀ outcome, r = .ok outcome → (w.db.rawEvents.lookup eventId).map RawEvent.processingStatus = outcome.status ∧
    (outcome = .requiresReview → (w.db.requiresHumanReview.lookup eventId).isSome)

theorem settled_error (e : PyError) (w : World) : Settled eventId (.error e) w := fun _ he => by cases he

variable {env} in
/-- What serves the row leaves it there. -/
theorem hasRow_of_serves {α : Type} {p : Job α} (hp : p.Every (Op.Serves env eventId row)) :
    Program.Triple Op.handle (HasRow eventId) p fun _ => HasRow eventId :=
  (hp.keeps fun _ hserves w hrow => (stays_serves env hserves eventId w).1 hrow).triple

theorem settled_markReview (reason : String) :
    Program.Triple Op.handle (HasRow eventId)
      (do .perform (Op.markReview eventId reason); return .requiresReview : Job ProcessOutcome) (Settled eventId) := by
  refine .bind (R := fun _ w => (w.db.rawEvents.lookup eventId).map RawEvent.processingStatus = some .review ∧
    (w.db.requiresHumanReview.lookup eventId).isSome) (.perform fun w hrow => ⟨?_, ?_⟩)
      (fun _ => .ret fun w hw => ?_) fun e w _ => settled_error e w
  · exact status_updateRawEvent { w.db with requiresHumanReview := _ } hrow fun _ => rfl
  · simp only [Op.handle, Database.markedReview, Database.updateRawEvent]
    split
    · rename_i hthere
      rw [hthere]
      rfl
    · rw [AList.lookup_insert]
      rfl
  · rintro _ ⟨⟩
    exact ⟨hw.1, fun _ => hw.2⟩

theorem settled_finalizeEvent (vendorId : String) (event : CanonicalEvent) :
    Program.Triple Op.handle (HasRow eventId) (finalizeEvent eventId vendorId event) (Settled eventId) := by
  unfold finalizeEvent
  split
  · rename_i canonical hnormalize
    refine .bind (R := fun r w => ∀ verdict, r = .ok verdict →
      (w.db.rawEvents.lookup eventId).map RawEvent.processingStatus = some .processed) (.perform fun w hrow => ?_)
        (fun verdict => .ret fun w hw => ?_) fun e w _ => settled_error e w
    · rw [Op.handle]
      split
      · rintro _ ⟨⟩
        exact status_updateRawEvent { w.db with store := _, canonicalEvents := _ } hrow fun _ => rfl
      · exact fun _ he => by cases he
    · rintro _ ⟨⟩
      exact ⟨hw verdict rfl, (fun he => by cases he)⟩
  · exact settled_markReview _
  · exact .raise fun w _ => settled_error _ w

theorem settled_processViaLLM (eventId : EventId) (row : RawEvent) :
    Program.Triple Op.handle (HasRow eventId)
      (processViaLLM env settings eventId (resolveVendorId env.toUnicode row) row.payload) (Settled eventId) := by
  have hasks := (asksFor_universalNormalize env settings eventId (resolveVendorId env.toUnicode row) row.payload
    []).every.mono fun o ho => ho.serves env row
  refine .bind (hasRow_of_serves hasks) (fun result => ?_) fun e w _ => settled_error e w
  cases result with
  | ok event outcome =>
    dsimp only
    split
    · have hlearns : ((discoverAndPersist env (resolveVendorId env.toUnicode row) row.payload outcome.data
          eventId).tryCatch fun _ => return none).Every (Op.Serves env eventId row) :=
        .tryCatch (serves_discoverAndPersist env rfl outcome.data) fun _ => .ret _
      exact .bind (hasRow_of_serves hlearns) (fun _ => settled_finalizeEvent _ event) fun e w _ => settled_error e w
    · exact settled_finalizeEvent _ event
  | deferred =>
    refine .bind (R := fun _ w => (w.db.rawEvents.lookup eventId).map RawEvent.processingStatus = some .pendingLlm)
      (.perform fun w hrow => ?_) (fun _ => .ret fun w hw => ?_) fun e w _ => settled_error e w
    · exact status_updateRawEvent w.db hrow fun _ => rfl
    · rintro _ ⟨⟩
      exact ⟨hw, (fun he => by cases he)⟩
  | unsupported reason => exact settled_markReview reason

theorem settled_processRow (eventId : EventId) (row : RawEvent) :
    Program.Triple Op.handle (HasRow eventId) (processRow env settings eventId row) (Settled eventId) := by
  refine .bind (R := fun _ => HasRow eventId) (.perform fun w hrow => hrow) (fun schemaMatch => ?_)
    fun e w _ => settled_error e w
  cases schemaMatch with
  | none => exact settled_processViaLLM env settings eventId row
  | some schemaMatch =>
    refine .bind (hasRow_of_serves (serves_processViaSchema env settings eventId row _ schemaMatch))
      (fun event => ?_) fun e w _ => settled_error e w
    cases event with
    | some event => exact settled_finalizeEvent _ event
    | none =>
      exact .bind (R := fun _ => HasRow eventId) (.perform fun w hrow => hrow)
        (fun _ => settled_processViaLLM env settings eventId row) fun e w _ => settled_error e w

end Row

/-- **`process_event` returns what becomes of its event.** -/
theorem reports_processEvent {eventId : EventId} {w w' : World} {outcome : ProcessOutcome}
    (h : Job.run (processEvent env settings eventId) w = (.ok outcome, w')) : Reports w'.db eventId outcome := by
  have hworked := processEvent_worked env settings eventId w
  have hselect : (Op.selectRawEvent eventId).handle w = (.ok (w.db.rawEvents.lookup eventId), w) := rfl
  cases hrow : w.db.rawEvents.lookup eventId with
  | none =>
    rw [hrow] at hworked
    obtain ⟨hr, rfl⟩ := Prod.mk.inj (h.symm.trans hworked)
    cases hr
    exact ⟨by rw [hrow]; rfl, (fun _ he => by cases he), (fun he => by cases he)⟩
  | some row =>
    rw [hrow] at hworked hselect
    have hthere : HasRow eventId w := by
      unfold HasRow
      rw [hrow]
      rfl
    have hsettled := settled_processRow env settings eventId row w hthere
    have hrun : Program.run Op.handle (processRow env settings eventId row) w = (.ok outcome, w') := by
      rw [← h, Job.run, processEvent, Program.run_perform_bind Op.handle hselect]
    rw [hrun] at hsettled
    obtain ⟨hstatus, hreview⟩ := hsettled outcome rfl
    refine ⟨hstatus, ?_, hreview⟩
    rintro verdict rfl
    rw [h] at hworked
    cases hworked with
    | finalized hdrafted hnormalize happly =>
      show ((AList.insert _ _ _).lookup eventId).isSome
      rw [(hdrafted.draft.normalized_base hnormalize).1, AList.lookup_insert]
      rfl
    | stopped hprepared hfiles hr => exact absurd rfl (hr verdict)

/-- What was reported of an event stays so while others are processed. -/
theorem Reports.processEvent {eventId id : EventId} {outcome : ProcessOutcome} {w : World}
    (h : Reports w.db id outcome) (hne : id ≠ eventId) :
    Reports (Job.run (processEvent env settings eventId) w).2.db id outcome := by
  have hselect : (Op.selectRawEvent eventId).handle w = (.ok (w.db.rawEvents.lookup eventId), w) := rfl
  have hother := otherRow_processEvent env settings hne w
  have hstays : (∀ verdict, outcome = .finalized verdict →
      ((Job.run (WebhookIngestion.processEvent env settings eventId) w).2.db.canonicalEvents.lookup id).isSome) ∧
        (outcome = .requiresReview → ((Job.run
          (WebhookIngestion.processEvent env settings eventId) w).2.db.requiresHumanReview.lookup id).isSome) := by
    unfold Job.run WebhookIngestion.processEvent
    rw [Program.run_perform_bind Op.handle hselect]
    cases w.db.rawEvents.lookup eventId with
    | none => exact ⟨h.canonical, h.review⟩
    | some row =>
      exact Program.Keeps.run (I := fun w' : World =>
          (∀ verdict, outcome = .finalized verdict → (w'.db.canonicalEvents.lookup id).isSome) ∧
            (outcome = .requiresReview → (w'.db.requiresHumanReview.lookup id).isSome))
        ((serves_processRow env settings eventId row).keeps fun o hserves w' hw' =>
          ⟨fun verdict he => (stays_serves env hserves id w').2.1 (hw'.1 verdict he),
            fun he => (stays_serves env hserves id w').2.2 (hw'.2 he)⟩) ⟨h.canonical, h.review⟩
  exact ⟨by rw [hother]; exact h.status, hstays.1, hstays.2⟩

/-- The loop reports of each event what has become of it by the end. -/
theorem reports_replayInline {eventIds : List EventId} (hnodup : eventIds.Nodup) {w w' : World}
    {outcomes : List ProcessOutcome} (h : Job.run (replayInline env settings eventIds) w = (.ok outcomes, w')) :
    List.Forall₂ (Reports w'.db) eventIds outcomes ∧
      ∀ id outcome, id ∉ eventIds → Reports w.db id outcome → Reports w'.db id outcome := by
  induction eventIds generalizing w outcomes with
  | nil =>
    cases h
    exact ⟨.nil, fun _ _ _ hreports => hreports⟩
  | cons eventId eventIds ih =>
    obtain ⟨hfresh, hnodup⟩ := List.nodup_cons.mp hnodup
    rw [run_replayInline_cons] at h
    cases hrun : Job.run (processEvent env settings eventId) w with
    | mk r w₁ =>
      rw [hrun] at h
      cases r with
      | error e => cases h
      | ok outcome =>
        dsimp only at h
        cases hrest : Job.run (replayInline env settings eventIds) w₁ with
        | mk r w₂ =>
          rw [hrest] at h
          cases r with
          | error e => cases h
          | ok outcomes' =>
            cases h
            obtain ⟨hall, hothers⟩ := ih hnodup hrest
            refine ⟨.cons (hothers eventId outcome hfresh (reports_processEvent env settings hrun)) hall, ?_⟩
            intro id outcome' hout hreports
            rw [List.mem_cons, not_or] at hout
            have hkept := hreports.processEvent env settings hout.1
            rw [hrun] at hkept
            exact hothers id outcome' hout.2 hkept

/-- What an inline replay that returns has planned, and how its loop has run. -/
theorem loop_of_replay (hinline : options.mode = "inline") {w w' : World} {outcomes : List ProcessOutcome}
    (h : replay env settings receivedAt shown options w = (.ok outcomes, w')) :
    ∃ eventIds, options.planned receivedAt shown (options.prepare w).db = .ok eventIds ∧
      Job.run (replayInline env settings eventIds) (options.prepare w) = (.ok outcomes, w') := by
  have hmode : decide (options.mode = "enqueue") = false := by
    rw [hinline]
    decide
  unfold replay at h
  rw [hmode] at h
  have hmatch : (match options.planned receivedAt shown (options.prepare w).db with
      | .error e => (.error (.raised e), options.prepare w)
      | .ok eventIds => options.loop env settings eventIds (options.prepare w)) =
        ((.ok outcomes, w') : Except ReplayError (List ProcessOutcome) × World) := by
    rw [← h]
    cases w.queueError <;> rfl
  cases hplanned : options.planned receivedAt shown (options.prepare w).db with
  | error e =>
    rw [hplanned] at hmatch
    cases hmatch
  | ok eventIds =>
    rw [hplanned] at hmatch
    dsimp only at hmatch
    unfold ReplayOptions.loop at hmatch
    rw [if_pos hinline] at hmatch
    refine ⟨eventIds, rfl, ?_⟩
    cases hrun : Job.run (replayInline env settings eventIds) (options.prepare w) with
    | mk r w₁ =>
      rw [hrun] at hmatch
      cases r with
      | error e => cases hmatch
      | ok outcomes' =>
        cases hmatch
        rfl

theorem nodup_planned {db : Database} {eventIds : List EventId}
    (h : options.planned receivedAt shown db = .ok eventIds) : eventIds.Nodup := by
  have hnodup : (options.selected receivedAt shown db).Nodup := by
    refine List.Pairwise.imp (R := Earlier receivedAt) (fun {a b} hearlier hsame => ?_) pairwise_selected
    rw [hsame] at hearlier
    exact lt_irrefl _ hearlier
  unfold ReplayOptions.planned at h
  split at h
  · cases h
    exact hnodup
  · split at h
    · cases h
    · cases h
      exact hnodup.sublist (List.take_sublist _ _)

/-- **What the command logs of an event is what has become of it**, when the command is done. -/
theorem replay_reports (hinline : options.mode = "inline") {w w' : World} {outcomes : List ProcessOutcome}
    (h : replay env settings receivedAt shown options w = (.ok outcomes, w')) :
    ∃ eventIds, options.planned receivedAt shown (options.prepare w).db = .ok eventIds ∧
      List.Forall₂ (Reports w'.db) eventIds outcomes := by
  obtain ⟨eventIds, hplanned, hrun⟩ := loop_of_replay env settings hinline h
  exact ⟨eventIds, hplanned, (reports_replayInline env settings (nodup_planned hplanned) hrun).1⟩

omit env settings receivedAt shown options in
/-- Every event of the loop is reported. -/
theorem reported_of_mem {db : Database} {eventIds : List EventId} {outcomes : List ProcessOutcome}
    (h : List.Forall₂ (Reports db) eventIds outcomes) {eventId : EventId} (hmem : eventId ∈ eventIds) :
    ∃ outcome, Reports db eventId outcome := by
  induction h with
  | nil => cases hmem
  | cons hreports _ ih =>
    rcases List.mem_cons.mp hmem with rfl | hmem
    · exact ⟨_, hreports⟩
    · exact ih hmem

/-- `replay --truncate-projections --mode inline`. -/
def ReplayOptions.rebuild : ReplayOptions where
  vendor := none
  since := none
  until' := none
  externalId := none
  truncateProjections := true
  mode := "inline"
  limit := none

/-- **A rebuild that returns leaves nothing to do**: no event is queued or failed, whatever it was
before, and what is processed has its canonical event and what is in review its review. -/
theorem rebuild_settles {w w' : World} {outcomes : List ProcessOutcome}
    (h : replay env settings receivedAt shown .rebuild w = (.ok outcomes, w')) {eventId : EventId} {row : RawEvent}
    (hrow : w'.db.rawEvents.lookup eventId = some row) :
    row.processingStatus ≠ .queued ∧ row.processingStatus ≠ .failed ∧
      (row.processingStatus = .processed → (w'.db.canonicalEvents.lookup eventId).isSome) ∧
        (row.processingStatus = .review → (w'.db.requiresHumanReview.lookup eventId).isSome) := by
  obtain ⟨eventIds, hplanned, hrun⟩ := loop_of_replay env settings rfl h
  have hall := (reports_replayInline env settings (nodup_planned hplanned) hrun).1
  -- every event is selected, since an event that is not would have been there all along
  have hmem : eventId ∈ eventIds := by
    by_contra hout
    have hbefore := otherRow_replayInline env settings hout (ReplayOptions.rebuild.prepare w)
    rw [hrun, hrow] at hbefore
    obtain rfl : ReplayOptions.rebuild.selected receivedAt shown (ReplayOptions.rebuild.prepare w).db = eventIds :=
      Except.ok.inj hplanned
    exact hout (mem_selected.mpr ⟨row, hbefore.symm, rfl⟩)
  obtain ⟨outcome, hreports⟩ := reported_of_mem hall hmem
  have hstatus : some row.processingStatus = outcome.status := by
    rw [← hreports.status, hrow, Option.map_some]
  cases outcome with
  | notFound => cases hstatus
  | finalized verdict =>
    rw [Option.some.inj hstatus]
    exact ⟨by decide, by decide, fun _ => hreports.canonical verdict rfl, fun he => by cases he⟩
  | pendingLlm =>
    rw [Option.some.inj hstatus]
    exact ⟨by decide, by decide, (fun he => by cases he), fun he => by cases he⟩
  | requiresReview =>
    rw [Option.some.inj hstatus]
    exact ⟨by decide, by decide, (fun he => by cases he), fun _ => hreports.review rfl⟩

/-! ### The queue -/

/-- Worlds that differ in their traces only, which nothing reads. -/
def SameButTrace (w w' : World) : Prop := w' = { w with trace := w'.trace }

theorem SameButTrace.db {w w' : World} (h : SameButTrace w w') : w'.db = w.db := by
  unfold SameButTrace at h
  rw [h]

theorem sameButTrace_handle (o : Op) {w w' : World} (h : SameButTrace w w') :
    (o.handle w).1 = (o.handle w').1 ∧ SameButTrace (o.handle w).2 (o.handle w').2 := by
  obtain ⟨trace, rfl⟩ : ∃ trace, w' = { w with trace } := ⟨_, h⟩
  cases o with
  | insertRawEvent | enqueue | upsertEventType | insertCache | insertAudit | complete | finalize =>
    unfold Op.handle
    dsimp only
    split <;> exact ⟨rfl, rfl⟩
  | _ => exact ⟨rfl, rfl⟩

/-- A job's run does not depend on the trace. -/
theorem sameButTrace_run {α : Type} (job : Job α) {w w' : World} (h : SameButTrace w w') :
    (Job.run job w).1 = (Job.run job w').1 ∧ SameButTrace (Job.run job w).2 (Job.run job w').2 :=
  Program.run_agrees (fun o _ _ h => sameButTrace_handle o h) job h

/-- Where the loop returns, workers that take its events from a queue do the same. -/
theorem run_workQueue {eventIds : List EventId} {w w' : World} {outcomes : List ProcessOutcome}
    (h : Job.run (replayInline env settings eventIds) w = (.ok outcomes, w')) :
    Job.run (workQueue env settings eventIds) w = (.ok outcomes, w') := by
  induction eventIds generalizing w outcomes with
  | nil => exact h
  | cons eventId eventIds ih =>
    rw [run_replayInline_cons] at h
    unfold Job.run at h ih ⊢
    rw [workQueue, Program.run_bind]
    cases hrun : Program.run Op.handle (processEvent env settings eventId) w with
    | mk r w₁ =>
      rw [hrun] at h
      cases r with
      | error e => cases h
      | ok outcome =>
        -- an event that is processed without an error leaves the handler out
        have hworker : Program.run Op.handle (processWebhook env settings eventId) w = (.ok outcome, w₁) := by
          rw [processWebhook, Program.run_tryCatch, hrun]
        rw [hworker]
        dsimp only at h ⊢
        cases hrest : Program.run Op.handle (replayInline env settings eventIds) w₁ with
        | mk r w₂ =>
          rw [hrest] at h
          cases r with
          | error e => cases h
          | ok outcomes' =>
            cases h
            rw [Program.run_bind, ih hrest]
            rfl

theorem run_replayEnqueue {w : World} (hqueue : w.queueError = none) (eventIds : List EventId) :
    Job.run (replayEnqueue eventIds) w =
      (.ok (), { w with trace := (eventIds.map Mark.enqueued).reverse ++ w.trace }) := by
  induction eventIds generalizing w with
  | nil => rfl
  | cons eventId eventIds ih =>
    have hperform : (Op.enqueue eventId).handle w = (.ok (), { w with trace := .enqueued eventId :: w.trace }) := by
      rw [Op.handle, hqueue]
    have hrest := ih (w := { w with trace := .enqueued eventId :: w.trace }) hqueue
    unfold Job.run at hrest ⊢
    rw [replayEnqueue, Program.run_perform_bind Op.handle hperform, hrest, List.map_cons, List.reverse_cons,
      List.append_assoc]
    rfl

/-- **The queue changes nothing about a replay**: where the command that processes its events here
returns, the one that puts them into the queue returns as well, and workers that take them from
the queue in their order come to the same outcomes and the same database. -/
theorem queued_replay_agrees (hinline : options.mode = "inline") {w w' : World} (hqueue : w.queueError = none)
    {outcomes : List ProcessOutcome}
    (h : replay env settings receivedAt shown options w = (.ok outcomes, w')) :
    ∃ eventIds w₁, options.planned receivedAt shown (options.prepare w).db = .ok eventIds ∧
      replay env settings receivedAt shown { options with mode := "enqueue" } w = (.ok [], w₁) ∧
      w₁.trace = (eventIds.map Mark.enqueued).reverse ++ (options.prepare w).trace ∧
        (Job.run (workQueue env settings eventIds) w₁).1 = .ok outcomes ∧
          (Job.run (workQueue env settings eventIds) w₁).2.db = w'.db := by
  obtain ⟨eventIds, hplanned, hrun⟩ := loop_of_replay env settings hinline h
  have hprepared : (options.prepare w).queueError = none := by
    unfold ReplayOptions.prepare
    split <;> exact hqueue
  have hsame : SameButTrace (options.prepare w) { options.prepare w with
      trace := (eventIds.map Mark.enqueued).reverse ++ (options.prepare w).trace } := rfl
  obtain ⟨hr, hworld⟩ := sameButTrace_run (workQueue env settings eventIds) hsame
  rw [run_workQueue env settings hrun] at hr hworld
  refine ⟨eventIds, _, hplanned, ?_, rfl, hr.symm, hworld.db⟩
  unfold replay
  rw [hqueue]
  dsimp only
  have hplanned' : ReplayOptions.planned receivedAt shown { options with mode := "enqueue" }
      (ReplayOptions.prepare { options with mode := "enqueue" } w).db = .ok eventIds := hplanned
  rw [hplanned']
  show ReplayOptions.loop env settings { options with mode := "enqueue" } eventIds (options.prepare w) = _
  unfold ReplayOptions.loop
  have hmode : ¬ "enqueue" = "inline" := by decide
  rw [if_neg hmode, if_pos rfl, run_replayEnqueue hprepared]
  rfl

end Replay

/-! ### A replay -/

/-- Nothing may be spent on answers. -/
def withoutBudget : Settings := { Settings.defaults with llmGlobalDailyBudgetUsd := 0 }

/-- The invoice was processed, and one of an unknown shape was received. -/
def strangeReceived : World :=
  let w := issuedWorld (some "globalfreightpay") false "2026-04-28T05:00:00Z"
  { w with db := w.db.insertRawEvent "e" none [("doc_ref", .str "INV-9")] [] false }

/-- A replay of what was received: the invoice at time 0, the strange one at time 1. -/
def strangeReplay (options : ReplayOptions) : World → Except ReplayError (List ProcessOutcome) × World :=
  replay april28Runtime withoutBudget (fun eventId => if eventId = "e" then 1 else 0) (fun _ => "") options

/-- The window of times from 0 to 2. -/
def ReplayOptions.window : ReplayOptions where
  vendor := none
  since := some 0
  until' := some 2
  externalId := none
  truncateProjections := false
  mode := "inline"
  limit := none

/-- The invoice was applied before, and the strange one is deferred. -/
theorem strangeReplay_window :
    strangeReplay .window strangeReceived =
      (.ok [.finalized .alreadyApplied, .pendingLlm], (strangeReplay .window strangeReceived).2) := by
  have hfirst : (strangeReplay .window strangeReceived).1 = .ok [.finalized .alreadyApplied, .pendingLlm] := by
    decide +kernel
  generalize strangeReplay .window strangeReceived = step at hfirst ⊢
  exact Prod.ext hfirst rfl

theorem strangeReplay_rebuild :
    strangeReplay .rebuild strangeReceived =
      (.ok [.finalized .appliedInitial, .pendingLlm], (strangeReplay .rebuild strangeReceived).2) := by
  have hfirst : (strangeReplay .rebuild strangeReceived).1 = .ok [.finalized .appliedInitial, .pendingLlm] := by
    decide +kernel
  generalize strangeReplay .rebuild strangeReceived = step at hfirst ⊢
  exact Prod.ext hfirst rfl

/-- The invoice is in the earlier one of two windows, and the strange one in the later one. -/
theorem strangeReplay_windows :
    (strangeReplay { ReplayOptions.window with until' := some 1 } strangeReceived).1 =
        .ok [.finalized .alreadyApplied] ∧
      (strangeReplay .window strangeReceived).1 = .ok [.finalized .alreadyApplied, .pendingLlm] ∧
      strangeReplay .window strangeReceived =
        match strangeReplay { ReplayOptions.window with until' := some 1 } strangeReceived with
        | (.ok outcomes, w) =>
          let second := strangeReplay { ReplayOptions.window with since := some 1 } w
          (second.1.map (outcomes ++ ·), second.2)
        | (.error e, w) => (.error e, w) := by
  have hfirst : (strangeReplay { ReplayOptions.window with until' := some 1 } strangeReceived).1 =
      .ok [.finalized .alreadyApplied] := by decide +kernel
  refine ⟨hfirst, congrArg Prod.fst strangeReplay_window, ?_⟩
  have hsince : ∀ since ∈ ReplayOptions.window.since, since ≤ 1 := by decide
  have huntil : ∀ until' ∈ ReplayOptions.window.until', 1 ≤ until' := by decide
  generalize strangeReceived = w
  exact @replay_windows april28Runtime withoutBudget (fun eventId => if eventId = "e" then 1 else 0) (fun _ => "")
    .window rfl rfl rfl 1 hsince huntil w

/-- The invoice goes before the strange one. -/
theorem strangeReplay_planned : ReplayOptions.window.planned (fun eventId => if eventId = "e" then 1 else 0)
    (fun _ => "") (ReplayOptions.window.prepare strangeReceived).db =
      .ok [issuedId "INV-1" "2026-04-28T05:00:00Z", "e"] := by
  decide +kernel

/-- What is logged of each of them has become of it. -/
theorem strangeReplay_reports :
    Reports (strangeReplay .window strangeReceived).2.db (issuedId "INV-1" "2026-04-28T05:00:00Z")
        (.finalized .alreadyApplied) ∧
      Reports (strangeReplay .window strangeReceived).2.db "e" .pendingLlm := by
  obtain ⟨eventIds, hplanned, hreports⟩ := replay_reports _ _ rfl strangeReplay_window
  obtain rfl := Except.ok.inj (strangeReplay_planned.symm.trans hplanned)
  cases hreports with
  | cons hfirst hrest =>
    cases hrest with
    | cons hsecond hrest => exact ⟨hfirst, hsecond⟩

/-- After a rebuild the invoice is processed and has its canonical event, and the strange one is
not queued. -/
theorem strangeReplay_settles :
    ((strangeReplay .rebuild strangeReceived).2.db.canonicalEvents.lookup
        (issuedId "INV-1" "2026-04-28T05:00:00Z")).isSome ∧
      ∃ row, (strangeReplay .rebuild strangeReceived).2.db.rawEvents.lookup "e" = some row ∧
        row.processingStatus ≠ .queued := by
  have hstatus : ((strangeReplay .rebuild strangeReceived).2.db.rawEvents.lookup
      (issuedId "INV-1" "2026-04-28T05:00:00Z")).map RawEvent.processingStatus = some .processed := by
    decide +kernel
  have hstrange : ((strangeReplay .rebuild strangeReceived).2.db.rawEvents.lookup "e").isSome := by
    decide +kernel
  obtain ⟨row, hrow, hprocessed⟩ := Option.map_eq_some_iff.mp hstatus
  obtain ⟨row', hrow'⟩ := Option.isSome_iff_exists.mp hstrange
  refine ⟨(rebuild_settles _ _ strangeReplay_rebuild hrow).2.2.1 hprocessed, row', hrow', ?_⟩
  exact (rebuild_settles _ _ strangeReplay_rebuild hrow').1

/-- Workers that take both from the queue come to the same outcomes. -/
theorem strangeReplay_queued : ∃ w,
    strangeReplay { ReplayOptions.window with mode := "enqueue" } strangeReceived = (.ok [], w) ∧
      (Job.run (workQueue april28Runtime withoutBudget [issuedId "INV-1" "2026-04-28T05:00:00Z", "e"]) w).1 =
        .ok [.finalized .alreadyApplied, .pendingLlm] := by
  obtain ⟨eventIds, w, hplanned, henqueued, -, hworked, -⟩ := queued_replay_agrees _ _ rfl rfl strangeReplay_window
  obtain rfl := Except.ok.inj (strangeReplay_planned.symm.trans hplanned)
  exact ⟨w, henqueued, hworked⟩

end WebhookIngestion
