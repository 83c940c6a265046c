import WebhookIngestion.Provenance

/-! # What canonical events were made of

A canonical event outlives the job that made it: schemas are taught again, answers are
audited for other events, the raw event gets a vendor, projections are truncated and made
again.  In every reachable state a canonical event can still be traced: to a document that
reads its payload and a schema of its vendor and shape, to a text that the provider gave a job
of the event, or to an answer that is in the cache, each answer with its entry in the audit log
(`canonical_events_traced`). -/
namespace WebhookIngestion
open Tables Programs

/-! ### What an event is made of -/

/-- What there is to show for how an event was made. -/
structure Evidence where
  /-- A schema of its vendor and shape is stored. -/
  schema : Prop
  /-- The provider gave a job of the event a text with this answer. -/
  said : JsonObject → Prop
  /-- An answer from this source was audited for it. -/
  audited : Source → Prop
  /-- This is the answer that the cache has for its payload. -/
  cached : JsonObject → Prop

/-- What is shown by the one is shown by the other. -/
structure Evidence.Within (e e' : Evidence) : Prop where
  schema : e.schema → e'.schema
  said : ∀ data, e.said data → e'.said data
  audited : ∀ source, e.audited source → e'.audited source
  cached : ∀ data, e.cached data → e'.cached data

/-- **What an event is made of**: the payload of its raw event, or an answer about it. -/
inductive MadeFrom (env : Externals) (e : Evidence) (eventId vendorId : String) (payload : JsonObject) :
    CanonicalEvent → Prop
  /-- Path A. -/
  | payload {schemaDoc : JsonObject} {canonicalState classification rawEventType : Option String}
      {event : CanonicalEvent} (hschema : e.schema)
      (hread : extract env payload eventId vendorId schemaDoc canonicalState classification =
        .ok ⟨rawEventType, .ok event⟩) : MadeFrom env e eventId vendorId payload event
  /-- Path B, with an answer of the provider. -/
  | answer {data : JsonObject} {event : CanonicalEvent} (hsaid : e.said data) (haudited : e.audited .llm)
      (hbuilt : buildCanonical env eventId data .llm = .ok event) :
      MadeFrom env e eventId vendorId payload event
  /-- Path B, with an answer of the cache. -/
  | cached {data : JsonObject} {event : CanonicalEvent} (hcached : e.cached data)
      (haudited : e.audited .llmCache) (hbuilt : buildCanonical env eventId data .llmCache = .ok event) :
      MadeFrom env e eventId vendorId payload event

/-- What `_finalize` makes of it. -/
def FinalizedFrom (env : Externals) (e : Evidence) (eventId vendorId : String) (payload : JsonObject)
    (event : CanonicalEvent) : Prop :=
  ∃ read, MadeFrom env e eventId vendorId payload read ∧ normalize (overrideVendor vendorId read) = .ok event

/-- What the source of an event asks to be shown. -/
def Evidence.Vouches (e : Evidence) : Source → Prop
  | .deterministic => e.schema
  | .llm => e.audited .llm ∧ ∃ data, e.said data
  | .llmCache => e.audited .llmCache ∧ ∃ data, e.cached data

section
variable {env : Externals} {e e' : Evidence} {eventId vendorId : String} {payload : JsonObject}
  {event : CanonicalEvent}

theorem MadeFrom.mono (h : MadeFrom env e eventId vendorId payload event) (hwithin : e.Within e') :
    MadeFrom env e' eventId vendorId payload event := by
  cases h with
  | payload hschema hread => exact .payload (hwithin.schema hschema) hread
  | answer hsaid haudited hbuilt => exact .answer (hwithin.said _ hsaid) (hwithin.audited _ haudited) hbuilt
  | cached hcached haudited hbuilt =>
    exact .cached (hwithin.cached _ hcached) (hwithin.audited _ haudited) hbuilt

theorem FinalizedFrom.mono (h : FinalizedFrom env e eventId vendorId payload event) (hwithin : e.Within e') :
    FinalizedFrom env e' eventId vendorId payload event := by
  obtain ⟨read, hmade, hfinal⟩ := h
  exact ⟨read, hmade.mono hwithin, hfinal⟩

/-- Path A's events are deterministic. -/
theorem source_of_extract {schemaDoc : JsonObject} {canonicalState classification rawEventType : Option String}
    (h : extract env payload eventId vendorId schemaDoc canonicalState classification =
      .ok ⟨rawEventType, .ok event⟩) : event.base.source = .deterministic := by
  cases extractedAs_of_extract h with
  | entity hclass hfields hread hbase => rfl
  | unclassified hclass hev hbase => exact congrArg CanonicalBase.source hev

/-- Path B's events have the source of their answer. -/
theorem source_of_buildCanonical {data : JsonObject} {source : Source}
    (h : buildCanonical env eventId data source = .ok event) : event.base.source = source := by
  have hbase : ∀ {vendorId : Json} {confidence : PyFloat} {base : CanonicalBase},
      llmBase eventId vendorId confidence source = .ok base → base.source = source := by
    intro vendorId confidence base h
    obtain ⟨text, -, h⟩ := bind_eq_ok.mp h
    split at h
    · cases h
      rfl
    · cases h
  simp only [buildCanonical, bind_eq_ok] at h
  obtain ⟨classification, -, vendor, -, confidence, -, h⟩ := h
  split at h
  · obtain ⟨ev, hev, h⟩ := bind_eq_ok.mp h
    cases h
    simp only [buildShipment] at hev
    split at hev
    · cases hev
    · simp only [bind_eq_ok, CanonicalEntityEvent.validate_eq_ok] at hev
      obtain ⟨_, -, _, -, _, -, base, hllm, _, -, _, -, _, -, -, rfl⟩ := hev
      exact hbase hllm
  · split at h
    · obtain ⟨ev, hev, h⟩ := bind_eq_ok.mp h
      cases h
      simp only [buildInvoice] at hev
      split at hev
      · cases hev
      · simp only [bind_eq_ok, CanonicalEntityEvent.validate_eq_ok] at hev
        obtain ⟨_, -, _, -, _, -, _, -, base, hllm, _, -, _, -, _, -, -, rfl⟩ := hev
        exact hbase hllm
    · obtain ⟨ev, hev, h⟩ := bind_eq_ok.mp h
      cases h
      simp only [buildUnclassified, CanonicalUnclassifiedEvent.validate, bind_eq_ok] at hev
      obtain ⟨base, hllm, _, -, _, -, _, -, hev⟩ := hev
      cases hev
      exact hbase hllm

/-- The override touches no source. -/
theorem source_overrideVendor (vendorId : String) (event : CanonicalEvent) :
    (overrideVendor vendorId event).base.source = event.base.source := by
  unfold overrideVendor
  split
  · cases event <;> rfl
  · rfl

/-- **What its source asks for is shown of every event.** -/
theorem FinalizedFrom.vouches (h : FinalizedFrom env e eventId vendorId payload event) :
    e.Vouches event.base.source := by
  obtain ⟨read, hmade, hfinal⟩ := h
  have hsource : event.base.source = read.base.source := by
    rw [base_of_normalize hfinal]
    exact source_overrideVendor vendorId read
  rw [hsource]
  cases hmade with
  | payload hschema hread =>
    rw [source_of_extract hread]
    exact hschema
  | answer hsaid haudited hbuilt =>
    rw [source_of_buildCanonical hbuilt]
    exact ⟨haudited, _, hsaid⟩
  | cached hcached haudited hbuilt =>
    rw [source_of_buildCanonical hbuilt]
    exact ⟨haudited, _, hcached⟩

end

section Jobs
variable (env : Externals) (settings : Settings)

/-! ### What a job can show -/

/-- The vendor that an answer is asked for and audited under. -/
def vendorHintOf (vendorId : String) : String := if vendorId = "" then "unknown" else vendorId

/-- The provider has answered a call with a text that gives the answer. -/
def Said (past : Past) (vendorHint : String) (data : JsonObject) : Prop :=
  ∃ result, ⟨.complete vendorHint, .ok result⟩ ∈ past ∧ parseAndValidate env result.text = .ok data

variable {env} in
theorem Said.mono {past past' : Past} {vendorHint : String} {data : JsonObject} (h : Said env past vendorHint data)
    (hsub : past ⊆ past') : Said env past' vendorHint data := by
  obtain ⟨result, hm, hdata⟩ := h
  exact ⟨result, hsub hm, hdata⟩

/-- What a job can show by what it was answered. -/
def evidenceOf (past : Past) (eventId vendorId : String) (payload : JsonObject) : Evidence where
  schema := ∃ schemaMatch, ⟨.selectSchema vendorId (structuralFingerprint env (.obj payload) []),
    .ok (some schemaMatch)⟩ ∈ past
  said := Said env past (vendorHintOf vendorId)
  audited source := ∃ cost, ⟨.insertAudit eventId source cost (vendorHintOf vendorId), .ok ()⟩ ∈ past
  cached data := ∃ entry, ⟨.selectCache (extractCacheKey env settings (vendorHintOf vendorId) payload),
    .ok (some entry)⟩ ∈ past ∧ entry.output = data

theorem evidenceOf_mono {past past' : Past} (h : past <:+ past') (eventId vendorId : String) (payload : JsonObject) :
    (evidenceOf env settings past eventId vendorId payload).Within
      (evidenceOf env settings past' eventId vendorId payload) where
  schema := fun ⟨schemaMatch, hm⟩ => ⟨schemaMatch, h.subset hm⟩
  said := fun _ hsaid => hsaid.mono h.subset
  audited := fun _ ⟨cost, hm⟩ => ⟨cost, h.subset hm⟩
  cached := fun _ ⟨entry, hm, hdata⟩ => ⟨entry, h.subset hm, hdata⟩

/-- **What a job finalizes it can trace** to the row that it has read. -/
def Traces (past : Past) : Op → Prop
  | .finalize eventId event => ∃ row, Read past eventId row ∧
      FinalizedFrom env (evidenceOf env settings past eventId (resolveVendorId env.toUnicode row) row.payload)
        eventId (resolveVendorId env.toUnicode row) row.payload event
  | _ => True

/-! ### What a job finalizes -/

/-- The answer of a call is in the text that the provider has given. -/
theorem said_attemptExtract (vendorHint : String) (past : Past) :
    (attemptExtract env vendorHint).Obeys (Traces env settings)
      (fun past' r => ∀ answer, r = .ok answer → Said env past' vendorHint answer.2) past := by
  refine .bind (R := fun past' r => ∀ result, r = .ok result → ⟨.complete vendorHint, .ok result⟩ ∈ past')
    (.perform trivial ?_) (fun past' llmResult hgiven => ?_) fun _ _ _ _ he => by cases he
  · rintro _ result rfl
    exact List.mem_cons_self
  refine .bind (R := fun past'' r => past'' = past' ∧ parseAndValidate env llmResult.text = r) (.ofExcept ⟨rfl, rfl⟩)
    (fun past'' data hdata => ?_) fun _ _ _ _ he => by cases he
  obtain ⟨rfl, hparse⟩ := hdata
  rintro _ ⟨⟩
  exact ⟨llmResult, hgiven llmResult rfl, hparse⟩

theorem said_completeExtract (vendorHint : String) (past : Past) :
    (completeExtract env vendorHint).Obeys (Traces env settings)
      (fun past' r => ∀ answer, r = .ok answer → Said env past' vendorHint answer.2) past := by
  refine .tryCatch (said_attemptExtract env settings vendorHint past) (fun _ _ h => h) fun past' firstErr _ => ?_
  split
  · refine .tryCatch (said_attemptExtract env settings vendorHint past') (fun _ _ h => h) fun past'' secondErr _ => ?_
    split <;> exact fun _ he => by cases he
  · exact fun _ he => by cases he

variable {env settings} in
/-- Asking finalizes nothing. -/
theorem Op.Asking.traces {o : Op} (h : o.Asking) (past : Past) : Traces env settings past o := by
  cases o <;> first | exact h.elim | trivial

variable {env settings} in
/-- Neither does learning. -/
theorem Op.Learning.traces {o : Op} (h : o.Learning) (past : Past) : Traces env settings past o := by
  cases o <;> first | exact h.elim | trivial

/-- What an answer leaves behind. -/
def AnswerShown (e : Evidence) (outcome : LLMOutcome) : Prop :=
  outcome.source = .llm ∧ e.said outcome.data ∧ e.audited .llm ∨
    outcome.source = .llmCache ∧ e.cached outcome.data ∧ e.audited .llmCache

/-- **Every answer is audited**, whether the provider or the cache has given it. -/
theorem answered_classifyExtract (eventId vendorId : String) (payload : JsonObject) (past : Past) :
    (classifyExtract env settings eventId (vendorHintOf vendorId) payload).Obeys (Traces env settings)
      (fun past' r => ∀ outcome, r = .ok outcome →
        AnswerShown (evidenceOf env settings past' eventId vendorId payload) outcome) past := by
  refine .bind (R := fun past' r => past' = ⟨.selectCache (extractCacheKey env settings (vendorHintOf vendorId)
    payload), r⟩ :: past) (.perform trivial fun r => rfl) ?_ fun _ _ _ _ he => by cases he
  rintro _ cached rfl
  cases cached with
  | some cached =>
    refine .bind (R := fun past' r => past' = ⟨.insertAudit eventId .llmCache cached.costEstimate
        (vendorHintOf vendorId), r⟩ :: ⟨.selectCache (extractCacheKey env settings (vendorHintOf vendorId) payload),
          .ok (some cached)⟩ :: past) (.perform trivial fun r => rfl) ?_ fun _ _ _ _ he => by cases he
    rintro _ audited rfl outcome ⟨⟩
    exact .inr ⟨rfl, ⟨cached, List.mem_cons_of_mem _ List.mem_cons_self, rfl⟩, _, List.mem_cons_self⟩
  | none =>
    refine .bind (((every_allow settings (vendorHintOf vendorId) _).obeys_any _).weaken
      (fun _ _ ho => ho.traces _) fun _ _ h => h) (fun past' allowed _ => ?_) fun _ _ _ _ he => by cases he
    split
    · refine .bind (said_completeExtract env settings _ past') (fun past'' answer hsaid => ?_)
        fun _ _ _ _ he => by cases he
      refine .bind (R := fun past' r => past' = ⟨.insertCache (extractCacheKey env settings (vendorHintOf vendorId)
        payload) ⟨answer.2, answer.1.costEstimate⟩, r⟩ :: past'') (.perform trivial fun r => rfl) ?_
        fun _ _ _ _ he => by cases he
      rintro _ cached rfl
      refine .bind (R := fun past' r => past' = ⟨.insertAudit eventId .llm answer.1.costEstimate
        (vendorHintOf vendorId), r⟩ :: ⟨.insertCache (extractCacheKey env settings (vendorHintOf vendorId) payload)
          ⟨answer.2, answer.1.costEstimate⟩, .ok cached⟩ :: past'') (.perform trivial fun r => rfl) ?_
        fun _ _ _ _ he => by cases he
      rintro _ audited rfl outcome ⟨⟩
      refine .inl ⟨rfl, (hsaid answer rfl).mono fun done hm => ?_, _, List.mem_cons_self⟩
      exact List.mem_cons_of_mem _ (List.mem_cons_of_mem _ hm)
    · exact fun _ he => by cases he

/-- **Path B builds its events from an answer that leaves its mark.** -/
theorem made_universalNormalize (eventId vendorId : String) (payload : JsonObject) (past : Past) :
    (universalNormalize env settings eventId vendorId payload).Obeys (Traces env settings)
      (fun past' r => ∀ event outcome, r = .ok (.ok event outcome) →
        MadeFrom env (evidenceOf env settings past' eventId vendorId payload) eventId vendorId payload event) past := by
  -- a handler of the adapter gives no event
  let R : Past → Except PyError (Except AdapterResult LLMOutcome) → Prop := fun past' r =>
    (∀ outcome, r = .ok (.ok outcome) → AnswerShown (evidenceOf env settings past' eventId vendorId payload) outcome) ∧
      ∀ event outcome, r ≠ .ok (.error (.ok event outcome))
  refine .bind (R := R) (.tryCatch (R := R) (.map (answered_classifyExtract env settings eventId vendorId payload past)
    (fun past' outcome h => ⟨?_, fun _ _ he => by cases he⟩)
    fun _ _ _ => ⟨(fun _ he => by cases he), (fun _ _ he => by cases he)⟩)
      (fun _ _ h => h) fun past' e _ => ?_) (fun past' answer h => ?_) fun _ _ _ _ _ he => by cases he
  · rintro _ ⟨⟩
    exact h outcome rfl
  · cases e with
    | budgetExceeded | llmValidationError => exact ⟨(fun _ he => by cases he), (fun _ _ he => by cases he)⟩
    | _ => exact ⟨(fun _ he => by cases he), (fun _ _ he => by cases he)⟩
  · obtain ⟨hanswered, hnone⟩ := h
    cases answer with
    | error result =>
      rintro event outcome ⟨⟩
      exact absurd rfl (hnone event outcome)
    | ok outcome =>
      dsimp only
      split
      · rename_i canonical hbuild
        rintro _ _ ⟨⟩
        rcases hanswered _ rfl with ⟨hsource, hsaid, haudited⟩ | ⟨hsource, hcached, haudited⟩
        · rw [hsource] at hbuild
          exact .answer hsaid haudited hbuild
        · rw [hsource] at hbuild
          exact .cached hcached haudited hbuild
      · split <;> exact fun _ _ he => by cases he

theorem traces_resolveEventType (vendorId rawEventType : String) (past : Past) :
    (resolveEventType env settings vendorId rawEventType).Obeys (Traces env settings) (fun _ _ => True) past := by
  refine .bind (R := fun _ _ => True) (.perform trivial fun _ => trivial) (fun past' stored _ => ?_)
    fun _ _ _ => trivial
  cases stored with
  | some mapping => trivial
  | none =>
    refine .bind (((every_classifyEventType env settings vendorId rawEventType).obeys_any _).weaken
      (fun _ _ ho => ho.traces _) fun _ _ h => h) (fun past'' answer _ => ?_) fun _ _ _ => trivial
    cases answer with
    | none => trivial
    | some answer =>
      exact .bind (R := fun _ _ => True) (.perform trivial fun _ => trivial) (fun _ _ _ =>
        .bind (R := fun _ _ => True) (.ofExcept trivial) (fun _ _ _ =>
          .bind (R := fun _ _ => True) (.ofExcept trivial) (fun _ _ _ => trivial) fun _ _ _ => trivial)
            fun _ _ _ => trivial) fun _ _ _ => trivial

/-- **Path A reads its events from the payload.** -/
theorem read_processViaSchema (eventId vendorId : String) (payload : JsonObject) (schemaMatch : SchemaMatch)
    (past : Past) :
    (processViaSchema env settings eventId vendorId payload schemaMatch).Obeys (Traces env settings)
      (fun _ r => ∀ event, r = .ok (some event) → ∃ canonicalState classification rawEventType,
        extract env payload eventId vendorId schemaMatch.schemaDoc canonicalState classification =
          .ok ⟨rawEventType, .ok event⟩) past := by
  have hsucceeded (past : Past) {event : CanonicalEvent} {canonicalState classification rawEventType : Option String}
      (hread : extract env payload eventId vendorId schemaMatch.schemaDoc canonicalState classification =
        .ok ⟨rawEventType, .ok event⟩) :
      (extractionSucceeded eventId schemaMatch.schemaId event).Obeys (Traces env settings)
        (fun _ r => ∀ event, r = .ok (some event) → ∃ canonicalState classification rawEventType,
          extract env payload eventId vendorId schemaMatch.schemaDoc canonicalState classification =
            .ok ⟨rawEventType, .ok event⟩) past := by
    refine .bind (R := fun _ _ => True) (.perform trivial fun _ => trivial) (fun _ _ _ => ?_)
      fun _ _ _ _ he => by cases he
    refine .bind (R := fun _ _ => True) (.perform trivial fun _ => trivial) (fun _ _ _ => ?_)
      fun _ _ _ _ he => by cases he
    rintro _ ⟨⟩
    exact ⟨_, _, _, hread⟩
  refine .bind (R := fun _ first => extract env payload eventId vendorId schemaMatch.schemaDoc none none = first)
    (.ofExcept rfl) (fun past' first hfirst => ?_) fun _ _ _ _ he => by cases he
  dsimp only
  split
  · rename_i event hevent hdoc
    have hread : first = ⟨first.rawEventType, .ok event⟩ := by rw [← hevent]
    rw [hread] at hfirst
    exact hsucceeded past' hfirst
  · split
    · exact fun _ he => by cases he
    · refine .bind (traces_resolveEventType env settings vendorId _ past') (fun past'' mapping _ => ?_)
        fun _ _ _ _ he => by cases he
      cases mapping with
      | none => exact fun _ he => by cases he
      | some mapping =>
        refine .bind (R := fun _ second => extract env payload eventId vendorId schemaMatch.schemaDoc
            (some mapping.2) (some mapping.1) = second)
          (.ofExcept rfl) (fun past₃ second hsecond => ?_) fun _ _ _ _ he => by cases he
        split
        · rename_i event hevent
          have hread : second = ⟨second.rawEventType, .ok event⟩ := by rw [← hevent]
          rw [hread] at hsecond
          exact hsucceeded past₃ hsecond
        · exact fun _ he => by cases he

section Row
variable {eventId : EventId} {row : RawEvent} {past : Past}

/-- What the job can show by now for an event made of the row it has read. -/
abbrev rowEvidence (past : Past) (eventId : EventId) (row : RawEvent) : Evidence :=
  evidenceOf env settings past eventId (resolveVendorId env.toUnicode row) row.payload

/-- **An event made of the row is traced when it is finalized.** -/
theorem traces_finalizeEvent (hread : Read past eventId row) {event : CanonicalEvent}
    (hmade : MadeFrom env (rowEvidence env settings past eventId row) eventId (resolveVendorId env.toUnicode row)
      row.payload event) :
    (finalizeEvent eventId (resolveVendorId env.toUnicode row) event).Obeys (Traces env settings)
      (fun _ _ => True) past := by
  unfold finalizeEvent
  split
  · rename_i canonical hnormalize
    exact .bind (R := fun _ _ => True) (.perform ⟨row, hread, event, hmade, hnormalize⟩ fun _ => trivial)
      (fun _ _ _ => trivial) fun _ _ _ => trivial
  · exact .bind (R := fun _ _ => True) (.perform trivial fun _ => trivial) (fun _ _ _ => trivial) fun _ _ _ => trivial
  · trivial

theorem traces_processViaLLM (hread : Read past eventId row) :
    (processViaLLM env settings eventId (resolveVendorId env.toUnicode row) row.payload).Obeys (Traces env settings)
      (fun _ _ => True) past := by
  refine .bind (made_universalNormalize env settings eventId _ row.payload past).growing
    (fun past' result ⟨hmade, hgrows⟩ => ?_) fun _ _ _ => trivial
  have hread' : Read past' eventId row := hgrows.subset hread
  cases result with
  | ok event outcome =>
    have hevent := hmade event outcome rfl
    dsimp only
    split
    · -- what discovery performs in between takes no evidence away
      have hlearns : ((discoverAndPersist env (resolveVendorId env.toUnicode row) row.payload outcome.data
          eventId).tryCatch fun _ => return none).Every Op.Learning :=
        .tryCatch (every_discoverAndPersist env _ row.payload outcome.data eventId) fun _ => .ret _
      refine .bind ((hlearns.obeys_any past').growing.weaken (fun _ _ ho => ho.traces _) fun _ _ h => h.2)
        (fun past'' _ hgrows' => ?_) fun _ _ _ => trivial
      exact traces_finalizeEvent env settings (hgrows'.subset hread')
        (hevent.mono (evidenceOf_mono env settings hgrows' eventId _ row.payload))
    · exact traces_finalizeEvent env settings hread' hevent
  | deferred =>
    exact .bind (R := fun _ _ => True) (.perform trivial fun _ => trivial) (fun _ _ _ => trivial) fun _ _ _ => trivial
  | unsupported reason =>
    exact .bind (R := fun _ _ => True) (.perform trivial fun _ => trivial) (fun _ _ _ => trivial) fun _ _ _ => trivial

theorem traces_processRow (hread : Read past eventId row) :
    (processRow env settings eventId row).Obeys (Traces env settings) (fun _ _ => True) past := by
  refine .bind (R := fun past' r => past' = ⟨.selectSchema (resolveVendorId env.toUnicode row)
    (structuralFingerprint env (.obj row.payload) []), r⟩ :: past) (.perform trivial fun r => rfl) ?_
    fun _ _ _ => trivial
  rintro _ schemaMatch rfl
  cases schemaMatch with
  | none => exact traces_processViaLLM env settings (List.mem_cons_of_mem _ hread)
  | some schemaMatch =>
    refine .bind (read_processViaSchema env settings eventId _ row.payload schemaMatch _).growing
      (fun past' event ⟨hextracted, hgrows⟩ => ?_) fun _ _ _ => trivial
    have hread' : Read past' eventId row := hgrows.subset (List.mem_cons_of_mem _ hread)
    cases event with
    | some event =>
      obtain ⟨canonicalState, classification, rawEventType, hextract⟩ := hextracted event rfl
      exact traces_finalizeEvent env settings hread'
        (.payload ⟨schemaMatch, hgrows.subset List.mem_cons_self⟩ hextract)
    | none =>
      refine .bind (R := fun past'' r => past'' = ⟨.incrementFailure schemaMatch.schemaId, r⟩ :: past')
        (.perform trivial fun r => rfl) ?_ fun _ _ _ => trivial
      rintro _ counted rfl
      exact traces_processViaLLM env settings (List.mem_cons_of_mem _ hread')

end Row

theorem traces_processEvent (eventId : EventId) :
    (processEvent env settings eventId).Obeys (Traces env settings) (fun _ _ => True) [] := by
  refine .bind (R := fun past r => past = [⟨.selectRawEvent eventId, r⟩]) (.perform trivial fun r => rfl) ?_
    fun _ _ _ => trivial
  rintro _ row rfl
  cases row with
  | none => trivial
  | some row => exact traces_processRow env settings List.mem_cons_self

/-- **Every job can trace what it finalizes.** -/
theorem traces_program (job : ServiceJob) :
    (ServiceJob.program env settings job).Obeys (Traces env settings) (fun _ _ => True) [] := by
  cases job with
  | receive vendorId request =>
    refine (obeys_receive env settings vendorId request).weaken (fun past o hobeys => ?_) fun _ _ _ => trivial
    cases o <;> first | exact hobeys.elim | trivial
  | work eventId =>
    refine .map (R := fun _ _ => True) (.tryCatch (traces_processEvent env settings eventId)
      (fun _ _ _ => trivial) fun _ e _ => ?_) (fun _ _ _ => trivial) fun _ _ _ => trivial
    exact .bind (R := fun _ _ => True) (.perform trivial fun _ => trivial) (fun _ _ _ => trivial) fun _ _ _ => trivial
  | replay eventId =>
    exact .map (traces_processEvent env settings eventId) (fun _ _ _ => trivial) fun _ _ _ => trivial
  | truncate =>
    exact .map (R := fun _ _ => True) (.perform trivial fun _ => trivial) (fun _ _ _ => trivial) fun _ _ _ => trivial

end Jobs

/-! ### What the tables show -/

/-- What operations leave of schemas, of the cache and of the audit log: all of it. -/
structure Preserves (db db' : Database) : Prop where
  schemas : ∀ key row, db.vendorSchemas.lookup key = some row → ∃ row', db'.vendorSchemas.lookup key = some row'
  cache : ∀ key entry, db.llmCache.lookup key = some entry → db'.llmCache.lookup key = some entry
  audit : ∀ row ∈ db.llmAudit, row ∈ db'.llmAudit

theorem Preserves.refl (db : Database) : Preserves db db :=
  ⟨fun _ row hrow => ⟨row, hrow⟩, fun _ _ h => h, fun _ h => h⟩

/-- An entry of the cache stays as it was first written. -/
theorem cache_insertCache (db : Database) (cacheKey : String) (written : CacheEntry) {key : String} {entry : CacheEntry}
    (h : db.llmCache.lookup key = some entry) : (db.insertCache cacheKey written).llmCache.lookup key = some entry := by
  unfold Database.insertCache
  split
  · exact h
  · rename_i hnone
    show (db.llmCache.insert cacheKey written).lookup key = some entry
    by_cases hkey : key = cacheKey
    · rw [hkey, hnone] at h
      cases h
    · rw [AList.lookup_insert_ne hkey]
      exact h

theorem preserves_handle (o : Op) (w : World) : Preserves w.db (o.handle w).2.db := by
  have hschemas : ∀ key row, w.db.vendorSchemas.lookup key = some row →
      ∃ row', (o.handle w).2.db.vendorSchemas.lookup key = some row' := by
    intro key row hrow
    obtain ⟨row', hrow', -⟩ := (sameDecisions_handle o w).schemas key row hrow
    exact ⟨row', hrow'⟩
  suffices hrest : (∀ key entry, w.db.llmCache.lookup key = some entry →
      (o.handle w).2.db.llmCache.lookup key = some entry) ∧ ∀ row ∈ w.db.llmAudit, row ∈ (o.handle w).2.db.llmAudit from
    ⟨hschemas, hrest.1, hrest.2⟩
  cases o with
  | insertAudit eventId source costEstimate decision =>
    simp only [Op.handle]
    split
    · exact ⟨fun _ _ h => h, fun _ h => List.mem_cons_of_mem _ h⟩
    · exact ⟨fun _ _ h => h, fun _ h => h⟩
  | insertCache cacheKey entry =>
    simp only [Op.handle]
    split
    · refine ⟨fun key entry h => cache_insertCache w.db cacheKey _ h, fun row h => ?_⟩
      unfold Database.insertCache
      split <;> exact h
    · exact ⟨fun _ _ h => h, fun _ h => h⟩
  | insertRawEvent | enqueue | complete | finalize =>
    simp only [Op.handle]
    split <;> exact ⟨fun _ _ h => h, fun _ h => h⟩
  | upsertSchema vendorId fingerprint schemaDoc eventId =>
    simp only [Op.handle, Database.upsertSchema]
    split <;> exact ⟨fun _ _ h => h, fun _ h => h⟩
  | upsertEventType vendorId rawEventType classification canonicalState confidence =>
    simp only [Op.handle, Database.upsertEventType]
    split
    · split
      · split <;> exact ⟨fun _ _ h => h, fun _ h => h⟩
      · exact ⟨fun _ _ h => h, fun _ h => h⟩
    · exact ⟨fun _ _ h => h, fun _ h => h⟩
  | insertEventType vendorId rawEventType classification canonicalState =>
    simp only [Op.handle, Database.insertEventType]
    split <;> exact ⟨fun _ _ h => h, fun _ h => h⟩
  | _ => exact ⟨fun _ _ h => h, fun _ h => h⟩

/-- What an answer tells of the schemas, of the cache and of the audit log. -/
def OnRecord : Performed PyError Op Op.Result → World → Prop
  | ⟨.selectSchema vendorId fingerprint, .ok (some _)⟩, w =>
    ∃ version row, w.db.vendorSchemas.lookup ⟨vendorId, fingerprint, version⟩ = some row
  | ⟨.selectCache cacheKey, .ok (some entry)⟩, w => w.db.llmCache.lookup cacheKey = some entry
  | ⟨.insertAudit eventId source _ decision, .ok _⟩, w =>
    ∃ row ∈ w.db.llmAudit, row.eventId = eventId ∧ row.source = source ∧ row.decision = decision
  | _, _ => True

theorem OnRecord.of_preserves {done : Performed PyError Op Op.Result} {w w' : World} (h : OnRecord done w)
    (hpreserves : Preserves w.db w'.db) : OnRecord done w' := by
  unfold OnRecord at h ⊢
  split
  · obtain ⟨version, row, hrow⟩ := h
    exact ⟨version, hpreserves.schemas _ row hrow⟩
  · exact hpreserves.cache _ _ h
  · obtain ⟨row, hrow, hfits⟩ := h
    exact ⟨row, hpreserves.audit row hrow, hfits⟩
  · trivial

/-- An operation that is answered records what it answers. -/
theorem onRecord_handle (o : Op) (w : World) : OnRecord ⟨o, (o.handle w).1⟩ (o.handle w).2 := by
  cases o with
  | selectSchema vendorId fingerprint =>
    show OnRecord ⟨.selectSchema vendorId fingerprint, .ok (lookupSchema w.db.vendorSchemas vendorId fingerprint)⟩ w
    cases hlookup : lookupSchema w.db.vendorSchemas vendorId fingerprint with
    | none => trivial
    | some schemaMatch =>
      obtain ⟨key, row, hchosen, -⟩ := lookupSchema_eq_some.mp hlookup
      refine ⟨key.schemaVersion, row, ?_⟩
      rw [← hchosen.vendorId_eq, ← hchosen.fingerprint_eq]
      exact hchosen.lookup
  | selectCache cacheKey =>
    show OnRecord ⟨.selectCache cacheKey, .ok (w.db.llmCache.lookup cacheKey)⟩ w
    cases hlookup : w.db.llmCache.lookup cacheKey with
    | none => trivial
    | some entry => exact hlookup
  | insertAudit eventId source costEstimate decision =>
    simp only [Op.handle]
    split
    · exact ⟨_, List.mem_cons_self, rfl, rfl, rfl⟩
    · trivial
  | _ => trivial

section Runs
variable (env : Externals) (settings : Settings) {ι : Type}

/-- What the tables show for an event, and the jobs that have read its row. -/
def evidenceIn (c : ServiceConfig ι) (eventId vendorId : String) (payload : JsonObject) : Evidence where
  schema := ∃ version row,
    c.state.db.vendorSchemas.lookup ⟨vendorId, structuralFingerprint env (.obj payload) [], version⟩ = some row
  said data := ∃ i task row, c.tasks i = some task ∧ Read task.history eventId row ∧
    Said env task.history (vendorHintOf vendorId) data
  audited source := ∃ row ∈ c.state.db.llmAudit, row.eventId = eventId ∧ row.source = source ∧
    row.decision = vendorHintOf vendorId
  cached data := ∃ entry, c.state.db.llmCache.lookup (extractCacheKey env settings (vendorHintOf vendorId) payload) =
    some entry ∧ entry.output = data

/-- What was recorded is still recorded, and the jobs remember what they were answered. -/
structure Onward (c c' : ServiceConfig ι) : Prop where
  db : Preserves c.state.db c'.state.db
  tasks : ∀ i task, c.tasks i = some task → ∃ task', c'.tasks i = some task' ∧ task.history ⊆ task'.history

variable {env settings} in
theorem Onward.evidence {c c' : ServiceConfig ι} (h : Onward c c') (eventId vendorId : String) (payload : JsonObject) :
    (evidenceIn env settings c eventId vendorId payload).Within
      (evidenceIn env settings c' eventId vendorId payload) where
  schema := fun ⟨version, row, hrow⟩ => ⟨version, h.db.schemas _ row hrow⟩
  said := by
    rintro data ⟨i, task, row, htask, hread, hsaid⟩
    obtain ⟨task', htask', hsub⟩ := h.tasks i task htask
    exact ⟨i, task', row, htask', hsub hread, hsaid.mono hsub⟩
  audited := fun _ ⟨row, hrow, hfits⟩ => ⟨row, h.db.audit row hrow, hfits⟩
  cached := fun _ ⟨entry, hentry, hdata⟩ => ⟨entry, h.db.cache _ entry hentry, hdata⟩

/-- **What a job can show the tables show**, and the job. -/
theorem evidence_of_onRecord {c : ServiceConfig ι} {i : ι} {task : Task ServiceJob PyError Op Op.Result ServiceResult}
    (htask : c.tasks i = some task) (h : ∀ done ∈ task.history, OnRecord done c.state) {eventId : EventId}
    {row : RawEvent} (hread : Read task.history eventId row) (vendorId : String) (payload : JsonObject) :
    (evidenceOf env settings task.history eventId vendorId payload).Within
      (evidenceIn env settings c eventId vendorId payload) where
  schema := fun ⟨_, hm⟩ => h _ hm
  said := fun _ hsaid => ⟨i, task, row, htask, hread, hsaid⟩
  audited := fun _ ⟨_, hm⟩ => h _ hm
  cached := fun _ ⟨entry, hm, hdata⟩ => ⟨entry, h _ hm, hdata⟩

/-- **A canonical event that can be traced**: it was made of the payload of its raw event, for
the vendor that was inferred from the payload or that the raw event has, and there is
evidence for it. -/
def Traced (c : ServiceConfig ι) (eventId : EventId) (event : CanonicalEvent) : Prop :=
  ∃ raw vendorId, c.state.db.rawEvents.lookup eventId = some raw ∧
    (vendorId = inferVendorId env.toUnicode raw.payload ∨ raw.vendorId = some vendorId) ∧
      FinalizedFrom env (evidenceIn env settings c eventId vendorId raw.payload) eventId vendorId raw.payload event

variable {env settings} in
/-- An event stays traced where its row stays. -/
theorem Traced.onward {c c' : ServiceConfig ι} {eventId : EventId} {event : CanonicalEvent}
    (h : Traced env settings c eventId event) (honward : Onward c c')
    (hrow : ∀ raw, c.state.db.rawEvents.lookup eventId = some raw →
      ∃ raw', c'.state.db.rawEvents.lookup eventId = some raw' ∧ raw.Later raw') :
    Traced env settings c' eventId event := by
  obtain ⟨raw, vendorId, hraw, hvendor, hmade⟩ := h
  obtain ⟨raw', hraw', hlater⟩ := hrow raw hraw
  refine ⟨raw', vendorId, hraw', ?_, ?_⟩
  · rw [hlater.payload]
    exact hvendor.imp_right (hlater.vendorId vendorId)
  · rw [hlater.payload]
    exact hmade.mono (honward.evidence eventId vendorId raw.payload)

variable {mayLose : Op → Prop} {C : Op → World → Prop} [DecidableEq ι]

/-- What was recorded stays recorded. -/
theorem kept_onRecord {Q : ServiceJob → Past → Op → Prop} :
    (service env settings mayLose).Kept C Q (System.Told OnRecord : ServiceConfig ι → Prop) := by
  refine System.kept_told (fun o w r w' hanswers => ?_)
    (fun job past o w _ _ done hdone => hdone.of_preserves (preserves_handle o w))
    fun w w' houtside done hdone => hdone.of_preserves ?_
  · cases hanswers with
    | done => exact onRecord_handle o w
    | failed | lost => cases o <;> trivial
  · rw [houtside.1]
    exact .refl _

/-- A job that moves on forgets nothing. -/
theorem onward_put {c : ServiceConfig ι} {i : ι} {w : World} {t : Task ServiceJob PyError Op Op.Result ServiceResult}
    (hdb : Preserves c.state.db w.db) (hold : ∀ task', c.tasks i = some task' → task'.history ⊆ t.history) :
    Onward c (c.put w i t) where
  db := hdb
  tasks j task' htask' := by
    by_cases hj : j = i
    · subst hj
      exact ⟨t, Config.tasks_put_self, hold task' htask'⟩
    · exact ⟨task', (Config.tasks_put_of_ne hj).trans htask', List.Subset.refl _⟩

/-- Every canonical event can be traced. -/
def AllTraced (c : ServiceConfig ι) : Prop :=
  ∀ eventId event, c.state.db.canonicalEvents.lookup eventId = some event → Traced env settings c eventId event

variable {env settings} in
/-- **A job that can trace what it finalizes keeps the events traced.** -/
theorem AllTraced.perform {c : ServiceConfig ι} (h : AllTraced env settings c) (hserved : Served c)
    (hrecorded : System.Told OnRecord c) {i : ι} {job : ServiceJob} {past : Past} {o : Op}
    {next : Except PyError o.Result → Job ServiceResult} {r : Except PyError o.Result} {w : World}
    (htask : c.tasks i = some ⟨job, past, .op o next⟩) (hfiled : o.Filed env c.state.db)
    (htraces : Traces env settings past o) (hanswers : (service env settings mayLose).Answers o c.state r w) :
    AllTraced env settings (c.put w i ⟨job, ⟨o, r⟩ :: past, next r⟩) := by
  have hpast : ∀ task', c.tasks i = some task' → task'.history ⊆ ⟨o, r⟩ :: past := by
    intro task' htask'
    cases htask.symm.trans htask'
    exact List.subset_cons_self _ _
  have hhandled : AllTraced env settings (c.put (o.handle c.state).2 i ⟨job, ⟨o, r⟩ :: past, next r⟩) := by
    have honward := onward_put (t := ⟨job, ⟨o, r⟩ :: past, next r⟩) (preserves_handle o c.state) hpast
    intro eventId event hevent
    rcases canonical_handle hfiled.own hevent with hold | rfl
    · exact (h eventId event hold).onward honward fun raw hraw => later_handle hfiled hraw
    · -- the row may have changed since it was read, but not in what the event was made of
      obtain ⟨row, hread, hmade⟩ := htraces
      obtain ⟨raw, hraw, hlater⟩ := hserved i _ htask _ hread
      obtain ⟨raw', hraw', hlater'⟩ := later_handle hfiled hraw
      have hsince := hlater.trans hlater'
      refine ⟨raw', resolveVendorId env.toUnicode row, hraw', hsince.vendor env.toUnicode, ?_⟩
      rw [hsince.payload]
      exact (hmade.mono (evidence_of_onRecord env settings htask (hrecorded i _ htask) hread _ row.payload)).mono
        (honward.evidence eventId _ row.payload)
  cases hanswers with
  | done | lost => exact hhandled
  | failed e hfail =>
    have honward := onward_put (t := ⟨job, ⟨o, .error e⟩ :: past, next (.error e)⟩) (.refl c.state.db) hpast
    exact fun eventId event hevent => (h eventId event hevent).onward honward fun raw hraw => ⟨raw, hraw, .refl raw⟩

/-- Rows that were read, and what was recorded of them, keep the events traced. -/
theorem kept_traced : (service env settings mayLose).Kept C
    (fun job past o => JobServes env job past o ∧ Traces env settings past o)
    fun c : ServiceConfig ι => (Served c ∧ System.Told OnRecord c) ∧ AllTraced env settings c := by
  have hserved : (service env settings mayLose).Kept C
      (fun job past o => JobServes env job past o ∧ Traces env settings past o) (Served : ServiceConfig ι → Prop) :=
    (kept_served env settings).weaken fun _ _ _ hq => hq.1
  have htold := hserved.and (kept_onRecord env settings)
  refine ⟨fun c i job hI hfree => ?_, fun c i job past o next r w hI htask hq hallowed hanswers => ?_,
    fun c w hI houtside => ?_⟩
  · refine ⟨htold.start c i job hI.1 hfree, fun eventId event hevent => ?_⟩
    have honward := onward_put (c := c) (i := i) (t := ⟨job, [], (service env settings mayLose).program job⟩)
      (.refl c.state.db) fun task' htask' => by cases hfree.symm.trans htask'
    exact (hI.2 eventId event hevent).onward honward fun raw hraw => ⟨raw, hraw, .refl raw⟩
  · refine ⟨htold.perform c i job past o next r w hI.1 htask hq hallowed hanswers, ?_⟩
    exact hI.2.perform hI.1.1 hI.1.2 htask (filed_of_told hq.1 (hI.1.1 i _ htask)) hq.2 hanswers
  · refine ⟨htold.outside c w hI.1 houtside, fun eventId event hevent => ?_⟩
    have hdb : w.db = c.state.db := houtside.1
    have honward : Onward c ⟨w, c.tasks⟩ := ⟨hdb ▸ .refl _, fun i task htask => ⟨task, htask, List.Subset.refl _⟩⟩
    rw [hdb] at hevent
    exact (hI.2 eventId event hevent).onward honward fun raw hraw => ⟨raw, hdb ▸ hraw, .refl raw⟩

end Runs

end WebhookIngestion
