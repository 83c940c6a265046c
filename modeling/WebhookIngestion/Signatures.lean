import WebhookIngestion.ServiceRuns

/-! # Whose events change a vendor's projections

A signature is checked where an event comes in, against the vendor in the URL; the vendor
an event is applied under is settled by the worker.  The raw event ties the two together:
its row keeps the vendor it was accepted for (`Attested`), and the worker applies it under
that vendor, unless there was none to keep. -/
namespace WebhookIngestion
open Tables Text Programs Runs Lifecycle

/-! ### Traces grow -/

section Trace
variable {env : Externals} {settings : Settings} {payload : JsonObject} {eventId : EventId}
  {vendorId : String} {w w' : World}

/-- What drafting adds to the trace: calls, and at most a lesson or a success. -/
theorem Drafted.trace {canonical : CanonicalEvent}
    (h : Drafted env settings payload eventId vendorId w canonical w') :
    ∃ marks, w'.trace = marks ++ w.trace := by
  cases h with
  | schema hlookup hreads hprepares =>
    obtain ⟨calls, htrace, -⟩ := hprepares.trace
    exact ⟨_ :: calls, congrArg _ htrace⟩
  | llm hnew hoffered hbuild hprepares hlearns =>
    obtain ⟨calls, htrace, -⟩ := hprepares.trace
    rcases hlearns with rfl | ⟨-, hlearns⟩
    · exact ⟨calls, htrace⟩
    · cases hlearns with
      | nothing hdb hkept => exact ⟨calls, hkept.trans htrace⟩
      | persisted hdiscover hrow hdb heventTypes hnoted =>
        rcases hnoted with hnoted | hnoted
        · exact ⟨calls, hnoted.trans htrace⟩
        · exact ⟨_ :: calls, hnoted.trans (congrArg _ htrace)⟩

theorem Worked.trace {r : Except PyError ProcessOutcome}
    (h : Worked env settings payload eventId vendorId w r w') : ∃ marks, w'.trace = marks ++ w.trace := by
  cases h with
  | finalized hdrafted hnormalize happly => exact hdrafted.trace
  | failed hdrafted hnormalize happly => exact hdrafted.trace
  | stopped hprepared hfiles hr =>
    rw [hfiles.trace]
    rcases hprepared with hprepares | ⟨canonical, hdrafted⟩
    · obtain ⟨calls, htrace, -⟩ := hprepares.trace
      exact ⟨calls, htrace⟩
    · exact hdrafted.trace

/-- What was noted stays noted. -/
theorem mem_trace_serve {mark : Mark} (h : mark ∈ w.trace) (action : Action) :
    mark ∈ (serve env settings w action).trace := by
  cases action with
  | receive vendorPath request queueError =>
    rcases serve_receive env settings w vendorPath request queueError with
      ⟨-, htrace⟩ | ⟨payload, signatureVerified, -, -, -, htrace | htrace⟩
    · rw [htrace]
      exact h
    · rw [htrace]
      exact List.mem_cons_of_mem _ h
    · rw [htrace]
      exact List.mem_cons_of_mem _ (List.mem_cons_of_mem _ h)
  | process id day answers =>
    cases hrow : w.db.rawEvents.lookup id with
    | none =>
      rw [serve, serve_process_none env settings hrow]
      exact h
    | some row =>
      have hworked := processEvent_worked env settings id (w.facing day answers)
      have hrow' : (w.facing day answers).db.rawEvents.lookup id = some row := hrow
      rw [hrow'] at hworked
      obtain ⟨marks, htrace⟩ := hworked.trace
      rw [serve, htrace]
      exact List.mem_append_right _ h

end Trace

/-! ### Every raw event was accepted -/

/-- **A raw event as it was accepted**: its row keeps the vendor of the URL it came in at,
and an event that came in at `vendor`'s URL was signed. -/
structure AttestedAs (vendor : String) (row : RawEvent) (hint : Option String) : Prop where
  kept : ∀ u, hint = some u → u ≠ "" ∧ row.vendorId = some u
  signed : hint = some vendor → row.signatureVerified = true

/-- Every raw event was accepted. -/
def Attested (vendor : String) (w : World) : Prop :=
  ∀ eventId row, w.db.rawEvents.lookup eventId = some row →
    ∃ hint, .accepted eventId hint ∈ w.trace ∧ AttestedAs vendor row hint

section Attested
variable {env : Externals} {settings : Settings} {vendor secret : String}

/-- Deliveries are attested when they come in, and finalizing keeps the vendor that is there. -/
theorem attested_serve (hsecret : settings.webhookVendorSecrets.lookup vendor = some secret)
    (hvendor : vendor ≠ "") (hnonempty : secret ≠ "") (henforce : settings.webhookSignatureEnforce = true)
    {w : World} (hs : Sound w.db.store) (h : Attested vendor w) (action : Action) :
    Attested vendor (serve env settings w action) := by
  intro eventId row hrow
  -- a row that was there before keeps what it was accepted with
  have hold : ∀ before : RawEvent, w.db.rawEvents.lookup eventId = some before →
      (∀ u, before.vendorId = some u → row.vendorId = some u) →
      row.signatureVerified = before.signatureVerified →
      ∃ hint, .accepted eventId hint ∈ (serve env settings w action).trace ∧ AttestedAs vendor row hint := by
    intro before hbefore hkept hsigned
    obtain ⟨hint, hmark, hattested⟩ := h eventId before hbefore
    refine ⟨hint, mem_trace_serve hmark action, fun u hu => ?_, fun hv => hsigned ▸ hattested.signed hv⟩
    exact ⟨(hattested.kept u hu).1, hkept u (hattested.kept u hu).2⟩
  cases action with
  | receive vendorPath request queueError =>
    rcases serve_receive env settings w vendorPath request queueError with
      ⟨hdb, -⟩ | ⟨payload, signatureVerified, hverify, -, hdb, htrace⟩
    · rw [hdb] at hrow
      exact hold row hrow (fun _ hu => hu) rfl
    · rw [hdb, Database.insertRawEvent, lookup_insert_eq] at hrow
      split at hrow
      · rename_i hid
        cases hrow
        refine ⟨vendorPath.map VendorPath.text, ?_, fun u hu => ⟨?_, hu⟩, fun hv => ?_⟩
        · rcases htrace with htrace | htrace
          · rw [htrace, hid]
            exact List.mem_cons_self
          · rw [htrace, hid]
            exact List.mem_cons_of_mem _ List.mem_cons_self
        · obtain ⟨path, -, rfl⟩ := Option.map_eq_some_iff.mp hu
          exact path.nonempty
        · rw [hv] at hverify
          exact verified_of_enforced env settings hsecret hvendor hnonempty henforce hverify
      · exact hold row hrow (fun _ hu => hu) rfl
  | process id day answers =>
    cases hraw : w.db.rawEvents.lookup id with
    | none =>
      rw [serve, serve_process_none env settings hraw] at hrow
      exact hold row hrow (fun _ hu => hu) rfl
    | some before =>
      cases serve_process env settings hs hraw day answers with
      | raised hdraft hnormalize hr hraises hstore hrows hcanonical hkept =>
        rw [hkept] at hrow
        exact hold row hrow (fun _ hu => hu) rfl
      | stopped hr hstore hcanonical hdelivered =>
        have hsame := hdelivered eventId
        rw [hrow, Option.map_some] at hsame
        obtain ⟨old, hlookup, he⟩ := Option.map_eq_some_iff.mp hsame.symm
        simp only [RawEvent.delivered, Prod.mk.injEq] at he
        exact hold old hlookup (fun u hu => he.1 ▸ hu) he.2.2.2.symm
      | finalized hdraft hnormalize hr houtcome hstore hcanonical hdelivered =>
        have hsame := hdelivered eventId
        rw [hrow, Option.map_some] at hsame
        obtain ⟨old, hlookup, he⟩ := Option.map_eq_some_iff.mp hsame.symm
        split at he
        · simp only [RawEvent.delivered, Prod.mk.injEq] at he
          refine hold old hlookup (fun u hu => ?_) he.2.2.2.symm
          rw [← he.1, hu]
          rfl
        · simp only [RawEvent.delivered, Prod.mk.injEq] at he
          exact hold old hlookup (fun u hu => he.1 ▸ hu) he.2.2.2.symm

theorem attested_run (hsecret : settings.webhookVendorSecrets.lookup vendor = some secret)
    (hvendor : vendor ≠ "") (hnonempty : secret ≠ "") (henforce : settings.webhookSignatureEnforce = true)
    (actions : List Action) : Attested vendor (run env settings actions) := by
  refine (Runs.invariant (I := fun w : World => Sound w.db.store ∧ Attested vendor w)
    (fun w action h => ⟨sound_serve env settings h.1 action,
      attested_serve hsecret hvendor hnonempty henforce h.1 h.2 action⟩) ⟨sound_empty, ?_⟩).2
  intro eventId row hrow
  simp [World.start, Database.empty] at hrow

end Attested

/-! ### Whose events change a projection -/

/-- The row is one of the vendor's. -/
def OfVendor {k : EntityType} (vendor : String) (row : Option (Projection k)) : Prop :=
  ∃ projection, row = some projection ∧ projection.vendorId = vendor

/-- A changed projection is of the vendor that the event goes by. -/
theorem vendorId_of_changed {s : Store} (hs : Sound s) {event : CanonicalEvent} {k : EntityType}
    {id : EntityId} {vendor : String}
    (hne : ((applyEvent event s).2.projections k).lookup id ≠ (s.projections k).lookup id)
    (hof : OfVendor vendor ((s.projections k).lookup id) ∨
      OfVendor vendor (((applyEvent event s).2.projections k).lookup id)) :
    event.base.vendorId = vendor := by
  cases event with
  | unclassified ev => exact absurd rfl hne
  | entity k' ev =>
    obtain ⟨result, ws, n, hends, happly, hsound⟩ := applyEvent_entity_ends hs ev
    rw [happly] at hne hof
    cases hends with
    | raised unfit new => exact absurd rfl hne
    | applied happlies =>
      obtain ⟨-, rfl, hentity⟩ := happlies.projection_changed hne
      have hname : ∃ projection : Projection k, projection.vendorId = vendor ∧
          (s.writeAll ws).entities.lookup ⟨projection.vendorId, k, projection.externalId⟩ = some id := by
        rcases hof with ⟨projection, hrow, hvendor⟩ | ⟨projection, hrow, hvendor⟩
        · exact ⟨projection, hvendor, happlies.entities_mono (hs.consistent.projection_entity hrow)⟩
        · exact ⟨projection, hvendor, hsound.consistent.projection_entity hrow⟩
      obtain ⟨projection, hvendor, hlookup⟩ := hname
      have hkey := hsound.consistent.entity_inj hentity hlookup
      exact (congrArg EntityKey.vendorId hkey).trans hvendor

section Changes
variable {env : Externals} {settings : Settings} {vendor secret : String}

/-- **Who changes a vendor's projections.**  Where signatures are enforced and the vendor has
a secret, a row of the vendor is created or changed only by processing an event that came
in signed at the vendor's URL; or at a URL without a vendor, or with the vendor `unknown`,
or with another that differs from it by surrounding space. -/
theorem projections_changed_by_attested (hsecret : settings.webhookVendorSecrets.lookup vendor = some secret)
    (hvendor : vendor ≠ "") (hnonempty : secret ≠ "") (henforce : settings.webhookSignatureEnforce = true)
    (actions : List Action) (action : Action) {k : EntityType} {id : EntityId}
    (hne : ((serve env settings (run env settings actions) action).db.store.projections k).lookup id ≠
      ((run env settings actions).db.store.projections k).lookup id)
    (hof : OfVendor vendor (((run env settings actions).db.store.projections k).lookup id) ∨
      OfVendor vendor (((serve env settings (run env settings actions) action).db.store.projections k).lookup id)) :
    ∃ eventId day answers row hint, action = .process eventId day answers ∧
      (run env settings actions).db.rawEvents.lookup eventId = some row ∧
      .accepted eventId hint ∈ (run env settings actions).trace ∧
      (hint = some vendor ∧ row.signatureVerified = true ∨ hint = none ∨ hint = some "unknown" ∨
        ∃ u, hint = some u ∧ u ≠ vendor ∧ strip u = vendor) := by
  have hs := sound_run env settings actions
  have hattested := @attested_run env _ _ _ hsecret hvendor hnonempty henforce actions
  generalize run env settings actions = w at *
  cases action with
  | receive vendorPath request queueError =>
    refine absurd ?_ hne
    rcases serve_receive env settings w vendorPath request queueError with
      ⟨hdb, -⟩ | ⟨payload, signatureVerified, -, -, hdb, -⟩
    · rw [hdb]
    · rw [hdb]
      rfl
  | process eventId day answers =>
    cases hrow : w.db.rawEvents.lookup eventId with
    | none =>
      refine absurd ?_ hne
      rw [serve, serve_process_none env settings hrow]
      rfl
    | some row =>
      obtain ⟨hint, hmark, hattestedAs⟩ := hattested eventId row hrow
      refine ⟨eventId, day, answers, row, hint, rfl, hrow, hmark, ?_⟩
      cases serve_process env settings hs hrow day answers with
      | raised hdraft hnormalize hr hraises hstore hrows hcanonical hkept =>
        rw [hstore, hrows] at hne
        exact absurd rfl hne
      | stopped hr hstore hcanonical hdelivered =>
        rw [hstore] at hne
        exact absurd rfl hne
      | @finalized draft normalized outcome hdraft hnormalize hr houtcome hstore hcanonical hdelivered =>
        rw [hstore] at hne hof
        have hname := vendorId_of_changed hs hne hof
        rw [(hdraft.normalized_base hnormalize).2] at hname
        cases hint with
        | none => exact .inr (.inl rfl)
        | some u =>
          obtain ⟨hu, hkept⟩ := hattestedAs.kept u rfl
          by_cases hknown : u = "unknown"
          · exact .inr (.inr (.inl (congrArg some hknown)))
          · have hresolve : resolveVendorId env.toUnicode row = u := by
              rw [resolveVendorId, hkept]
              exact if_neg hu
            rw [hresolve, vendorId_overrideVendor hu hknown] at hname
            by_cases hsame : u = vendor
            · subst hsame
              exact .inl ⟨rfl, hattestedAs.signed rfl⟩
            · exact .inr (.inr (.inr ⟨u, rfl, hsame, hname⟩))

end Changes

/-! ### A signed invoice, and one without a vendor -/

/-- The invoice's delivery with its signature. -/
def signedRequest : Request :=
  { issuedRequest "INV-1" "2026-04-28T05:00:00Z" with
    headers := [("x-signature", "sha256=f5f6c17e87baa8ca8d02f4ec90fb473c4afb0d9fdd1b425910f840bbc44a350b")] }

theorem issuedRun_signed :
    IssuedRun enforcing (some globalfreightpayPath) signedRequest "2026-04-28T05:00:00Z"
      (issuedWorld (some "globalfreightpay") true "2026-04-28T05:00:00Z") := by
  decide +kernel

/-- The signed invoice creates its projection. -/
theorem signed_invoice_attested :
    ∃ eventId day answers row hint, issuedStep "2026-04-28T05:00:00Z" = .process eventId day answers ∧
      (run april28Runtime enforcing [.receive (some globalfreightpayPath) signedRequest none]).db.rawEvents.lookup
        eventId = some row ∧
      .accepted eventId hint ∈
        (run april28Runtime enforcing [.receive (some globalfreightpayPath) signedRequest none]).trace ∧
      (hint = some "globalfreightpay" ∧ row.signatureVerified = true ∨ hint = none ∨ hint = some "unknown" ∨
        ∃ u, hint = some u ∧ u ≠ "globalfreightpay" ∧ strip u = "globalfreightpay") := by
  have hafter : serve april28Runtime enforcing
      (run april28Runtime enforcing [.receive (some globalfreightpayPath) signedRequest none])
      (issuedStep "2026-04-28T05:00:00Z") = issuedWorld (some "globalfreightpay") true "2026-04-28T05:00:00Z" :=
    issuedRun_signed.serve_eq
  have hbefore : ((run april28Runtime enforcing
      [.receive (some globalfreightpayPath) signedRequest none]).db.store.projections .invoice).lookup 1 = none := by
    decide +kernel
  have hsecret : enforcing.webhookVendorSecrets.lookup "globalfreightpay" = some "s3cret" := by decide
  have hchanged : ((serve april28Runtime enforcing (run april28Runtime enforcing
      [.receive (some globalfreightpayPath) signedRequest none])
      (issuedStep "2026-04-28T05:00:00Z")).db.store.projections .invoice).lookup 1 ≠
        ((run april28Runtime enforcing
          [.receive (some globalfreightpayPath) signedRequest none]).db.store.projections .invoice).lookup 1 := by
    rw [hafter, hbefore]
    exact fun he => nomatch he
  refine projections_changed_by_attested hsecret (by decide) (by decide) rfl _ _ hchanged (.inr ?_)
  rw [hafter]
  exact ⟨_, rfl, rfl⟩

/-- **Without a vendor in the URL nobody signs**: the invoice comes in unsigned, and the LLM's
answer makes it the vendor's. -/
theorem unsigned_invoice_applied :
    let w := run april28Runtime enforcing [.receive none (issuedRequest "INV-1" "2026-04-28T05:00:00Z") none]
    let w' := serve april28Runtime enforcing w (issuedStep "2026-04-28T05:00:00Z")
    (w.db.store.projections .invoice).lookup 1 = none ∧
      OfVendor "globalfreightpay" ((w'.db.store.projections .invoice).lookup 1) ∧
      (w.db.rawEvents.lookup (issuedId "INV-1" "2026-04-28T05:00:00Z")).map RawEvent.signatureVerified =
        some false := by
  have hafter : serve april28Runtime enforcing
      (run april28Runtime enforcing [.receive none (issuedRequest "INV-1" "2026-04-28T05:00:00Z") none])
      (issuedStep "2026-04-28T05:00:00Z") = issuedWorld none false "2026-04-28T05:00:00Z" :=
    issuedRun_unscoped.serve_eq
  refine ⟨by decide +kernel, ?_, by decide +kernel⟩
  rw [hafter]
  exact ⟨_, rfl, rfl⟩

end WebhookIngestion
