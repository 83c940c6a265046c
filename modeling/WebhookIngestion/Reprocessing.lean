import WebhookIngestion.Accounts

/-! # Reprocessing an event

An event that was applied is on its entity's books, and applying it again changes nothing.
Whether a later `process_event` call applies the same event again is another question: the
call reads the payload anew, with whatever schema, mapping or answer there is by then, and
dateutil completes an incomplete time from the day of the call.  Where the account that it is told
of the event is the recorded one, the call is a no-op (`reprocessing_changes_nothing`); a
schema learned in between may tell another (`reprocessing_may_rewrite`). -/
namespace WebhookIngestion
open Tables Text Programs Runs

/-! ### Days -/

/-- The libraries on a day: dateutil takes from it what a text does not say of its date. -/
def Externals.on (env : Externals) (dtparse : Nat → String → Bool → Except PyError ParsedDateTime) (day : Nat) :
    Externals :=
  { env with dtparse := dtparse day }

section Days
variable (env : Externals) (dtparse : Nat → String → Bool → Except PyError ParsedDateTime) (settings : Settings)

/-- One step of the service, with the libraries of its day. -/
def serveOn (w : World) : Action → World
  | .receive vendorId request queueError => serve env settings w (.receive vendorId request queueError)
  | .process eventId day answers => serve (env.on dtparse day) settings w (.process eventId day answers)

/-- A run of the service over days. -/
def runOn (actions : List Action) : World := actions.foldl (serveOn env dtparse settings) World.start

/-- Every step of a run over days is a step of the service, with the libraries of some day. -/
theorem serveOn_serve (w : World) (action : Action) :
    ∃ env', serveOn env dtparse settings w action = serve env' settings w action := by
  cases action with
  | receive vendorId request queueError => exact ⟨env, rfl⟩
  | process eventId day answers => exact ⟨env.on dtparse day, rfl⟩

end Days

/-! ### What was recorded was observed -/

/-- What an entity's event records names its entity. -/
theorem key_of_recorded {k k' : EntityType} {ev : CanonicalEntityEvent k} {ev' : CanonicalEntityEvent k'}
    (h : (CanonicalEvent.entity k ev).recorded = (CanonicalEvent.entity k' ev').recorded) :
    ev.key = ev'.key := by
  simp only [CanonicalEvent.recorded, Recorded.mk.injEq, Option.some.injEq, Prod.mk.injEq] at h
  obtain ⟨hclass, hvendor, hid, -, -⟩ := h
  have hk : k = k' := by
    cases k <;> cases k' <;> first | rfl | cases hclass
  simp only [CanonicalEntityEvent.key, hvendor, hid, hk]

/-- The event recorded under an id is on the books of its entity, under that id. -/
def RecordedObserved (eventId : EventId) (w : World) : Prop :=
  Sound w.db.store ∧ ∀ (k : EntityType) (ev : CanonicalEntityEvent k),
    w.db.canonicalEvents.lookup eventId = some (.entity k ev) → w.db.store.Observed ev.key eventId

theorem recordedObserved_start (eventId : EventId) : RecordedObserved eventId World.start :=
  ⟨sound_empty, fun k ev h => by simp [World.start, Database.empty] at h⟩

section Runs
variable {env : Externals} {settings : Settings} {eventId : EventId}

/-- Applying an event for its entity puts it on the entity's books, and takes nothing off. -/
theorem recordedObserved_serve {w : World} (h : RecordedObserved eventId w) (action : Action) :
    RecordedObserved eventId (serve env settings w action) := by
  refine ⟨sound_serve env settings h.1 action, ?_⟩
  obtain ⟨hs, hobserved⟩ := h
  cases action with
  | receive vendorId request queueError =>
    rcases serve_receive env settings w vendorId request queueError with
      ⟨hdb, -⟩ | ⟨payload, signatureVerified, -, -, hdb, -⟩
    · rw [hdb]
      exact hobserved
    · rw [hdb]
      exact hobserved
  | process id day answers =>
    cases hrow : w.db.rawEvents.lookup id with
    | none =>
      rw [serve, serve_process_none env settings hrow]
      exact hobserved
    | some row =>
      cases serve_process env settings hs hrow day answers with
      | raised hdraft hnormalize hr hraises hstore hrows hcanonical hraw =>
        rw [hstore, hcanonical]
        exact fun k ev hev => (hobserved k ev hev).mono hs _
      | stopped hr hstore hcanonical hraw =>
        rw [hstore, hcanonical]
        exact hobserved
      | @finalized draft normalized outcome hdraft hnormalize hr houtcome hstore hcanonical hraw =>
        rw [hstore, hcanonical]
        intro k ev hev
        rw [lookup_insert_eq] at hev
        split at hev
        · -- the event was applied a moment ago
          rename_i hid
          cases hev
          have hev : ev.eventId = id := (hdraft.normalized_base hnormalize).1
          rw [hid, ← hev]
          exact observed_applyEvent hs houtcome
        · exact (hobserved k ev hev).mono hs normalized

/-- An event that was recorded stays recorded. -/
theorem isSome_canonicalEvents_serve {w : World} (hs : Sound w.db.store) (action : Action)
    (h : (w.db.canonicalEvents.lookup eventId).isSome) :
    ((serve env settings w action).db.canonicalEvents.lookup eventId).isSome := by
  cases action with
  | receive vendorId request queueError =>
    rcases serve_receive env settings w vendorId request queueError with
      ⟨hdb, -⟩ | ⟨payload, signatureVerified, -, -, hdb, -⟩
    · rw [hdb]
      exact h
    · rw [hdb]
      exact h
  | process id day answers =>
    cases hrow : w.db.rawEvents.lookup id with
    | none =>
      rw [serve, serve_process_none env settings hrow]
      exact h
    | some row =>
      cases serve_process env settings hs hrow day answers with
      | raised hdraft hnormalize hr hraises hstore hrows hcanonical hraw =>
        rw [hcanonical]
        exact h
      | stopped hr hstore hcanonical hraw =>
        rw [hcanonical]
        exact h
      | finalized hdraft hnormalize hr houtcome hstore hcanonical hraw =>
        rw [hcanonical]
        exact isSome_lookup_insert h

/-! ### Reading an event again -/

/-- **The event is told as it was recorded**: of every account that the step may be told of it, by the
document of its payload's shape or else by the LLM, what is recorded is what is recorded already. -/
def RereadsAsRecorded (env : Externals) (settings : Settings) (eventId : EventId) (w : World) : Prop :=
  ∀ row recorded, w.db.rawEvents.lookup eventId = some row →
    w.db.canonicalEvents.lookup eventId = some recorded →
      ∀ account, Tells env settings w row.payload eventId (resolveVendorId env.toUnicode row) account →
        account.toRecorded = recorded.recorded

/-- Where the stored schema reads the event with a stored mapping, it tells the account. -/
theorem rereadsAsRecorded_of_reads {w : World} {row : RawEvent} {record : Recorded}
    {vendorId : String} {schemaMatch : SchemaMatch} {canonical normalized : CanonicalEvent} (day : Nat)
    (answers : List (Except PyError LLMResult)) (hrow : w.db.rawEvents.lookup eventId = some row)
    (hvendor : resolveVendorId env.toUnicode row = vendorId)
    (hrecorded : (w.db.canonicalEvents.lookup eventId).map CanonicalEvent.recorded = some record)
    (hlookup : lookupSchema w.db.vendorSchemas vendorId
      (structuralFingerprint env (.obj row.payload) []) = some schemaMatch)
    (hreads : Reads env row.payload eventId vendorId schemaMatch.schemaDoc (Stored w.db vendorId) canonical)
    (hnormalize : normalize (overrideVendor vendorId canonical) = .ok normalized)
    (hsame : normalized.recorded = record) :
    RereadsAsRecorded env settings eventId (w.facing day answers) := by
  subst hvendor
  intro row' recorded hrow' hrecorded' account htells
  cases hrow.symm.trans hrow'
  have haccount := Tells.eq_of_reads (w := w.facing day answers) hlookup hreads hnormalize htells
  have hlookup' : w.db.canonicalEvents.lookup eventId = some recorded := hrecorded'
  rw [hlookup', Option.map_some] at hrecorded
  rw [haccount, toRecorded_account, hsame]
  exact (Option.some.inj hrecorded).symm

/-- The step leaves the projections, their log and what is recorded of the event. -/
def Unchanged (eventId : EventId) (w w' : World) : Prop :=
  w'.db.store = w.db.store ∧ (w'.db.canonicalEvents.lookup eventId).map CanonicalEvent.recorded =
    (w.db.canonicalEvents.lookup eventId).map CanonicalEvent.recorded

/-- **An event that is told as it was recorded is left alone.** -/
theorem unchanged_of_rereads {w : World} (h : RecordedObserved eventId w)
    (hrecorded : (w.db.canonicalEvents.lookup eventId).isSome) {day : Nat}
    {answers : List (Except PyError LLMResult)}
    (hreads : RereadsAsRecorded env settings eventId (w.facing day answers)) :
    Unchanged eventId w (serve env settings w (.process eventId day answers)) := by
  obtain ⟨hs, hobserved⟩ := h
  obtain ⟨recorded, hlookup⟩ := Option.isSome_iff_exists.mp hrecorded
  cases hrow : w.db.rawEvents.lookup eventId with
  | none =>
    rw [serve, serve_process_none env settings hrow]
    exact ⟨rfl, rfl⟩
  | some row =>
    by_cases htold : ∃ account, Tells env settings (w.facing day answers) row.payload eventId
        (resolveVendorId env.toUnicode row) account
    · obtain ⟨account, htells⟩ := htold
      obtain ⟨normalized, hid, hfinal, rfl⟩ := processEvent_told (w := w.facing day answers) hrow htells
      have hsame := hreads row recorded hrow hlookup _ htells
      rw [toRecorded_account] at hsame
      -- what is told as it was recorded has been applied before
      have hleft : (applyEvent normalized w.db.store).2 = w.db.store := by
        cases normalized with
        | unclassified ev => rfl
        | entity k ev =>
          cases recorded with
          | unclassified ev' => cases congrArg Recorded.entity hsame
          | entity k' ev' =>
            have hseen : w.db.store.Observed ev.key ev.eventId := by
              rw [key_of_recorded hsame, show ev.eventId = eventId from hid]
              exact hobserved k' ev' hlookup
            exact congrArg Prod.snd (applyEvent_observed hseen)
      refine ⟨hfinal.store.trans hleft, ?_⟩
      rw [serve, hfinal.canonicalEvents]
      split
      · rw [hid, AList.lookup_insert, Option.map_some, hsame]
        exact (congrArg (Option.map CanonicalEvent.recorded) hlookup).symm
      · rfl
    · have hidle : Idle (w.facing day answers) _ _ :=
        processEvent_untold hrow fun account htells => htold ⟨account, htells⟩
      exact ⟨hidle.store, congrArg (fun events => (events.lookup eventId).map CanonicalEvent.recorded)
        hidle.canonicalEvents⟩

/-- **An event that is left alone is told as it was recorded**, where the step returns. -/
theorem rereads_of_unchanged {w : World} {day : Nat} {answers : List (Except PyError LLMResult)}
    (hreturns : ∀ e, (Job.run (processEvent env settings eventId) (w.facing day answers)).1 ≠ .error e)
    (h : Unchanged eventId w (serve env settings w (.process eventId day answers))) :
    RereadsAsRecorded env settings eventId (w.facing day answers) := by
  intro row recorded hrow hlookup account htells
  obtain ⟨normalized, hid, hfinal, haccount⟩ := processEvent_told hrow htells
  rw [← haccount, toRecorded_account]
  -- the step has recorded what it was told
  have hafter := h.2
  rw [serve, hfinal.canonicalEvents] at hafter
  split at hafter
  · rw [hid, AList.lookup_insert, Option.map_some] at hafter
    have hsame : some normalized.recorded = some recorded.recorded :=
      hafter.trans (congrArg (Option.map CanonicalEvent.recorded) hlookup)
    exact Option.some.inj hsame
  · rename_i e happly
    exact absurd (by rw [hfinal.result]; exact congrArg _ (congrArg _ happly)) (hreturns _)

end Runs

section Runs
variable {env : Externals} {dtparse : Nat → String → Bool → Except PyError ParsedDateTime} {settings : Settings}
  {eventId : EventId}

/-- **Reprocessing is a no-op just where it is told what was recorded**: along every run after an event
was finalized, each later step on the event that is told it as recorded changes nothing, and one
that changes nothing is told it so, or has raised. -/
theorem reprocessing_changes_nothing (before : List Action) {day : Nat}
    {answers : List (Except PyError LLMResult)} {outcome : ApplyOutcome}
    (hfirst : (Job.run (processEvent (env.on dtparse day) settings eventId)
      ((runOn env dtparse settings before).facing day answers)).1 = .ok (.finalized outcome)) (later : List Action) :
    Along (serveOn env dtparse settings) (fun w action => ∀ day answers, action = .process eventId day answers →
        let told := RereadsAsRecorded (env.on dtparse day) settings eventId (w.facing day answers)
        (told → Unchanged eventId w (serveOn env dtparse settings w action)) ∧
          (Unchanged eventId w (serveOn env dtparse settings w action) → told ∨
            ∃ e, (Job.run (processEvent (env.on dtparse day) settings eventId) (w.facing day answers)).1 = .error e))
      (runOn env dtparse settings (before ++ [.process eventId day answers])) later := by
  have hserve (w : World) (action : Action) (h : RecordedObserved eventId w) :
      RecordedObserved eventId (serveOn env dtparse settings w action) := by
    obtain ⟨env', heq⟩ := serveOn_serve env dtparse settings w action
    rw [heq]
    exact recordedObserved_serve h action
  have hkeeps (w : World) (action : Action) (h : RecordedObserved eventId w)
      (hrecorded : (w.db.canonicalEvents.lookup eventId).isSome) :
      ((serveOn env dtparse settings w action).db.canonicalEvents.lookup eventId).isSome := by
    obtain ⟨env', heq⟩ := serveOn_serve env dtparse settings w action
    rw [heq]
    exact isSome_canonicalEvents_serve h.1 action hrecorded
  refine Runs.along (I := fun w => RecordedObserved eventId w ∧ (w.db.canonicalEvents.lookup eventId).isSome)
    (fun w action h => ⟨hserve w action h.1, hkeeps w action h.1 h.2⟩) ?_ ?_
  · rintro w action ⟨hobserved, hrecorded⟩ day answers rfl
    refine ⟨unchanged_of_rereads hobserved hrecorded, fun hunchanged => ?_⟩
    by_cases hraises : ∃ e, (Job.run (processEvent (env.on dtparse day) settings eventId)
        (w.facing day answers)).1 = .error e
    · exact .inr hraises
    · exact .inl (rereads_of_unchanged (fun e he => hraises ⟨e, he⟩) hunchanged)
  · have hrun : runOn env dtparse settings (before ++ [.process eventId day answers]) =
        serve (env.on dtparse day) settings (runOn env dtparse settings before) (.process eventId day answers) :=
      List.foldl_append
    have hbefore : RecordedObserved eventId (runOn env dtparse settings before) :=
      Runs.invariant (fun w action h => hserve w action h) (recordedObserved_start eventId)
    rw [hrun]
    refine ⟨recordedObserved_serve hbefore _, ?_⟩
    cases hrow : (runOn env dtparse settings before).db.rawEvents.lookup eventId with
    | none =>
      rw [serve_process_none _ settings hrow] at hfirst
      cases hfirst
    | some row =>
      cases serve_process (env.on dtparse day) settings hbefore.1 hrow day answers with
      | raised hdraft hnormalize hr hraises hstore hrows hcanonical hraw => cases hfirst.symm.trans hr
      | stopped hr hstore hcanonical hraw => exact absurd hfirst (hr outcome)
      | finalized hdraft hnormalize hr houtcome hstore hcanonical hraw =>
        rw [hcanonical, AList.lookup_insert]
        rfl

end Runs

/-! ### An invoice delivered once and processed twice -/

/-- The recorded event, with the time read at an hour. -/
def issuedRecord (hour : Int) : Recorded :=
  ⟨.invoice, "globalfreightpay", some ("INV-1", "invoice.issued", ⟨april28 hour, 0⟩)⟩

/-- What the learned schema reads of the invoice that was created as it was issued. -/
def issuedReading : CanonicalEvent :=
  .entity .invoice (issuedEvent (issuedId "INV-1" "2026-04-28T05:00:00Z") .deterministic entityConfidence 5)

/-- With the mapping that was stored beside it, the learned schema reads the invoice. -/
theorem reads_issued : Reads april28Runtime (issuedPayload "INV-1" "2026-04-28T05:00:00Z")
    (issuedId "INV-1" "2026-04-28T05:00:00Z") "globalfreightpay" issuedSchema
    (Stored (issuedDatabase (some "globalfreightpay") false "2026-04-28T05:00:00Z") "globalfreightpay")
    issuedReading := by
  have hfirst : extract april28Runtime (issuedPayload "INV-1" "2026-04-28T05:00:00Z")
      (issuedId "INV-1" "2026-04-28T05:00:00Z") "globalfreightpay" issuedSchema none none =
        .ok ⟨some "issued", .error .canonicalStateNotResolved⟩ := by decide +kernel
  have hsecond : extract april28Runtime (issuedPayload "INV-1" "2026-04-28T05:00:00Z")
      (issuedId "INV-1" "2026-04-28T05:00:00Z") "globalfreightpay" issuedSchema (some "invoice.issued")
      (some "invoice") = .ok ⟨some "issued", .ok issuedReading⟩ := by decide +kernel
  exact .entity hfirst (fun event he => nomatch he) (by decide)
    ⟨⟨"invoice", "invoice.issued", some (85 / 100), false⟩, by decide +kernel, rfl, rfl⟩ hsecond

theorem lookupSchema_issued : lookupSchema
    (issuedDatabase (some "globalfreightpay") false "2026-04-28T05:00:00Z").vendorSchemas "globalfreightpay"
    (structuralFingerprint april28Runtime (.obj (issuedPayload "INV-1" "2026-04-28T05:00:00Z")) []) =
      some ⟨1, issuedSchema⟩ := by decide +kernel

theorem normalize_issued :
    normalize (overrideVendor "globalfreightpay" issuedReading) = .ok issuedReading := by decide +kernel

/-- The times of the invoice read the same on every day. -/
def april28Days (_ : Nat) : String → Bool → Except PyError ParsedDateTime := april28Runtime.dtparse

theorem on_april28Days (day : Nat) : april28Runtime.on april28Days day = april28Runtime := rfl

theorem serveOn_april28Days (settings : Settings) :
    serveOn april28Runtime april28Days settings = serve april28Runtime settings := by
  funext w action
  cases action with
  | receive vendorId request queueError => rfl
  | process eventId day answers => rw [serveOn, on_april28Days]

theorem runOn_april28Days (settings : Settings) (actions : List Action) :
    runOn april28Runtime april28Days settings actions = run april28Runtime settings actions := by
  rw [runOn, serveOn_april28Days, run]

/-- Where the invoice was created as it was issued, processing it again changes nothing. -/
theorem issued_when_created_unchanged :
    Along (serveOn april28Runtime april28Days .defaults) (fun w action => ∀ day answers,
        action = .process (issuedId "INV-1" "2026-04-28T05:00:00Z") day answers →
          Unchanged (issuedId "INV-1" "2026-04-28T05:00:00Z") w
            (serveOn april28Runtime april28Days .defaults w action))
      (runOn april28Runtime april28Days .defaults ([.receive (some globalfreightpayPath)
          (issuedRequest "INV-1" "2026-04-28T05:00:00Z") none] ++ [issuedStep "2026-04-28T05:00:00Z"]))
      [.process (issuedId "INV-1" "2026-04-28T05:00:00Z") 2 []] := by
  have hworld : runOn april28Runtime april28Days .defaults ([.receive (some globalfreightpayPath)
      (issuedRequest "INV-1" "2026-04-28T05:00:00Z") none] ++ [issuedStep "2026-04-28T05:00:00Z"]) =
      issuedWorld (some "globalfreightpay") false "2026-04-28T05:00:00Z" := by
    rw [runOn_april28Days]
    exact issuedRun_when_created.eq
  have hfirst := issuedRun_when_created.1
  rw [← runOn_april28Days, ← on_april28Days 1] at hfirst
  obtain ⟨hstep, -⟩ := reprocessing_changes_nothing _ hfirst
    [.process (issuedId "INV-1" "2026-04-28T05:00:00Z") 2 []]
  refine ⟨fun day answers haction => (hstep day answers haction).1 ?_, trivial⟩
  rw [show Action.process _ _ _ = issuedStep "2026-04-28T05:00:00Z" from rfl, hworld, on_april28Days]
  have hrecorded : ((issuedDatabase (some "globalfreightpay") false
      "2026-04-28T05:00:00Z").canonicalEvents.lookup (issuedId "INV-1" "2026-04-28T05:00:00Z")).map
        CanonicalEvent.recorded = some (issuedRecord 5) := by decide +kernel
  exact rereadsAsRecorded_of_reads day answers rfl (by decide +kernel) hrecorded lookupSchema_issued reads_issued
    normalize_issued (by decide +kernel)

/-- **A second reading may differ**: the first step applies the invoice, the schema that it has
learned reads the time the record was created, and the second step rewrites the timestamp. -/
theorem reprocessing_may_rewrite :
    let received := runOn april28Runtime april28Days .defaults [.receive (some globalfreightpayPath)
      (issuedRequest "INV-1" "2026-04-28T01:00:00Z") none]
    let w := serveOn april28Runtime april28Days .defaults received (issuedStep "2026-04-28T01:00:00Z")
    (Job.run (processEvent april28Runtime .defaults (issuedId "INV-1" "2026-04-28T01:00:00Z"))
        (received.facing 1 [.ok (issuedResult ["issued"])])).1 = .ok (.finalized .appliedInitial) ∧
      ¬ Unchanged (issuedId "INV-1" "2026-04-28T01:00:00Z") w (serveOn april28Runtime april28Days .defaults w
        (.process (issuedId "INV-1" "2026-04-28T01:00:00Z") 1 [])) := by
  intro received w
  have hreceived : received = run april28Runtime .defaults [.receive (some globalfreightpayPath)
      (issuedRequest "INV-1" "2026-04-28T01:00:00Z") none] := runOn_april28Days _ _
  refine ⟨?_, fun h => ?_⟩
  · rw [hreceived]
    exact issuedRun_after_created.1
  · have hworld : w = issuedWorld (some "globalfreightpay") false "2026-04-28T01:00:00Z" := by
      rw [← issuedRun_after_created.serve_eq, ← hreceived, ← serveOn_april28Days]
    have hrecorded := h.2
    rw [hworld] at hrecorded
    revert hrecorded
    decide +kernel

end WebhookIngestion
