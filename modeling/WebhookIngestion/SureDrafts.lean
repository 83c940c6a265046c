import WebhookIngestion.ServiceRuns
import WebhookIngestion.SureAnswers

/-! # Drafts that are sure to be made

A `Draft` is what a step may go on to finalize.  Which draft it does finalize is settled by
the state before the step and the provider's answers: what the stored schema reads with the
stored mapping or the one the classifier is sure to give, and where that comes to nothing,
what is built of the answer that the orchestrator is sure of (`Sure`).  The step finalizes
such a draft (`processEvent_sure`), and where there is none it changes nothing
(`processEvent_idle`). -/
namespace WebhookIngestion
open Tables Text Programs

section Sure
variable (env : Externals) (settings : Settings) (w : World)

/-! ### What is sure -/

/-- **The mappings of a raw event type that Path A is sure to go on with**: the stored one, or the
classifier's, where it can be stored. -/
inductive Settles (vendorId rawEventType : String) : String → String → World → Prop
  | stored {classification canonicalState : String}
      (hstored : Stored w.db vendorId rawEventType classification canonicalState) :
      Settles vendorId rawEventType classification canonicalState w
  | classified {heard : Option JsonObject} {classification canonicalState : String} {confidence : PyFloat}
      {stored : Option Rat} {w' : World}
      (hmiss : w.db.vendorEventTypeMap.lookup (vendorId, rawEventType) = none)
      (hheard : Hears env settings w vendorId rawEventType heard w')
      (hanswer : heardAnswer env heard = .ok (some (.str classification, .str canonicalState, confidence)))
      (hconfidence : floatToNumeric 4 3 confidence = .ok stored) :
      Settles vendorId rawEventType classification canonicalState { w' with
        db := w'.db.upsertEventType (vendorId, rawEventType) ⟨classification, canonicalState, stored, false⟩ }

/-- The mapping that Path A is sure to go on with. -/
def SureMapping (vendorId rawEventType classification canonicalState : String) : Prop :=
  ∃ w', Settles env settings w vendorId rawEventType classification canonicalState w'

/-- There is no mapping, and the classifier has none. -/
structure Unmapped (vendorId rawEventType : String) (w' : World) : Prop where
  miss : w.db.vendorEventTypeMap.lookup (vendorId, rawEventType) = none
  heard : ∃ heard, Hears env settings w vendorId rawEventType heard w' ∧ heardAnswer env heard = .ok none

/-- **Path A comes to nothing**: the schema finds no raw event type, or there is no mapping for it, or
the schema does not read the payload with the one there is. -/
inductive Silent (payload : JsonObject) (eventId : EventId) (vendorId : String) (schemaDoc : JsonObject)
    (rawEventType : String) : World → Prop
  | untyped (hraw : rawEventType = "") : Silent payload eventId vendorId schemaDoc rawEventType w
  | unmapped {w' : World} (hraw : rawEventType ≠ "") (hunmapped : Unmapped env settings w vendorId rawEventType w') :
      Silent payload eventId vendorId schemaDoc rawEventType w'
  | unread {classification canonicalState : String} {raw : Option String} {e : ExtractionError} {w' : World}
      (hraw : rawEventType ≠ "")
      (hsettles : Settles env settings w vendorId rawEventType classification canonicalState w')
      (hsecond : extract env payload eventId vendorId schemaDoc (some canonicalState) (some classification) =
        .ok ⟨raw, .error e⟩) : Silent payload eventId vendorId schemaDoc rawEventType w'

/-- **No stored schema says anything of the payload**, and the world that Path B is left with. -/
inductive Unread (payload : JsonObject) (eventId : EventId) (vendorId : String) : World → Prop
  | unknown (hlookup : lookupSchema w.db.vendorSchemas vendorId
      (structuralFingerprint env (.obj payload) []) = none) : Unread payload eventId vendorId w
  | silent {schemaMatch : SchemaMatch} {first : ExtractionResult} {w' : World}
      (hlookup : lookupSchema w.db.vendorSchemas vendorId (structuralFingerprint env (.obj payload) []) =
        some schemaMatch)
      (hfirst : extract env payload eventId vendorId schemaMatch.schemaDoc none none = .ok first)
      (hnot : ∀ event, first.event = .ok event → schemaMatch.schemaDoc.get "classification" ≠ .str "unclassified")
      (hsilent : Silent env settings w payload eventId vendorId schemaMatch.schemaDoc
        (first.rawEventType.getD "") w') :
      Unread payload eventId vendorId ((Op.incrementFailure schemaMatch.schemaId).handle w').2

/-- **The events a step is sure to go on to finalize.** -/
inductive Sure (payload : JsonObject) (eventId : EventId) (vendorId : String) : CanonicalEvent → Prop
  | schema {schemaMatch : SchemaMatch} {canonical : CanonicalEvent}
      (hlookup : lookupSchema w.db.vendorSchemas vendorId (structuralFingerprint env (.obj payload) []) =
        some schemaMatch)
      (hreads : Reads env payload eventId vendorId schemaMatch.schemaDoc (SureMapping env settings w vendorId)
        canonical) : Sure payload eventId vendorId canonical
  | llm {w' : World} {source : Source} {data : JsonObject} {canonical : CanonicalEvent}
      (hunread : Unread env settings w payload eventId vendorId w')
      (hanswer : SureAnswer env settings w' vendorId payload source data)
      (hbuild : buildCanonical env eventId data source = .ok canonical) :
      Sure payload eventId vendorId canonical

/-- The projections and what is recorded of the events are as they were. -/
structure SameEvents (w' : World) : Prop where
  store : w'.db.store = w.db.store
  canonicalEvents : w'.db.canonicalEvents = w.db.canonicalEvents

/-- **The step finalizes nothing**, and does not say that it has. -/
structure Idle (r : Except PyError ProcessOutcome) (w' : World) : Prop extends SameEvents w w' where
  result : ∀ outcome, r ≠ .ok (.finalized outcome)

variable {env settings w} {payload : JsonObject} {eventId : EventId} {vendorId : String}

/-! ### Path A -/

/-- What is selected where there is a mapping. -/
theorem handle_selectEventType {rawEventType : String} {mapping : EventTypeMapping}
    (h : w.db.vendorEventTypeMap.lookup (vendorId, rawEventType) = some mapping) :
    (Op.selectEventType vendorId rawEventType).handle w =
      (.ok (some (mapping.classification, mapping.canonicalState)), w) := by
  rw [Op.handle, h]
  rfl

theorem handle_selectEventType_none {rawEventType : String}
    (h : w.db.vendorEventTypeMap.lookup (vendorId, rawEventType) = none) :
    (Op.selectEventType vendorId rawEventType).handle w = (.ok none, w) := by
  rw [Op.handle, h]
  rfl

theorem run_resolveEventType {rawEventType classification canonicalState : String} {w' : World}
    (h : Settles env settings w vendorId rawEventType classification canonicalState w') :
    Program.run Op.handle (resolveEventType env settings vendorId rawEventType) w =
      (.ok (some (classification, canonicalState)), w') := by
  rw [resolveEventType]
  cases h with
  | stored hstored =>
    obtain ⟨mapping, hmapping, rfl, rfl⟩ := hstored
    rw [Program.run_perform_bind Op.handle (handle_selectEventType hmapping)]
    rfl
  | classified hmiss hheard hanswer hconfidence =>
    rw [Program.run_perform_bind Op.handle (handle_selectEventType_none hmiss)]
    simp only [classifyAndPersist]
    rw [Program.run_bind, run_classifyEventType hheard, hanswer]
    dsimp only
    rw [Program.run_perform_bind Op.handle (by rw [Op.handle, toText, toText, hconfidence])]
    rfl

theorem run_resolveEventType_unmapped {rawEventType : String} {w' : World}
    (h : Unmapped env settings w vendorId rawEventType w') :
    Program.run Op.handle (resolveEventType env settings vendorId rawEventType) w = (.ok none, w') := by
  obtain ⟨hmiss, heard, hheard, hanswer⟩ := h
  rw [resolveEventType, Program.run_perform_bind Op.handle (handle_selectEventType_none hmiss)]
  simp only [classifyAndPersist]
  rw [Program.run_bind, run_classifyEventType hheard, hanswer]
  rfl

theorem toText_eq_ok {x : Json} {s : String} (h : toText x = .ok s) : x = .str s := by
  cases x with
  | str text => rw [← Except.ok.inj h]
  | null | bool | int | float | arr | obj => cases h

/-- A raw event type has a mapping, or none, or resolving it raises. -/
theorem settles_or_raises (env : Externals) (settings : Settings) (w : World) (vendorId rawEventType : String) :
    (∃ classification canonicalState w',
        Settles env settings w vendorId rawEventType classification canonicalState w') ∨
      (∃ w', Unmapped env settings w vendorId rawEventType w') ∨
      ∃ e, (Program.run Op.handle (resolveEventType env settings vendorId rawEventType) w).1 = .error e := by
  cases hmapping : w.db.vendorEventTypeMap.lookup (vendorId, rawEventType) with
  | some mapping => exact .inl ⟨_, _, _, .stored ⟨mapping, hmapping, rfl, rfl⟩⟩
  | none =>
    have hresolve : Program.run Op.handle (resolveEventType env settings vendorId rawEventType) w =
        Program.run Op.handle (classifyAndPersist env settings vendorId rawEventType) w := by
      rw [resolveEventType, Program.run_perform_bind Op.handle (handle_selectEventType_none hmapping)]
    rw [hresolve, classifyAndPersist, Program.run_bind]
    rcases hears_or_raises env settings w vendorId rawEventType with ⟨heard, w', hheard⟩ | ⟨e, hraises⟩
    · rw [run_classifyEventType hheard]
      cases hanswer : heardAnswer env heard with
      | error e => exact .inr (.inr ⟨e, rfl⟩)
      | ok answer =>
        cases answer with
        | none => exact .inr (.inl ⟨w', hmapping, heard, hheard, hanswer⟩)
        | some answer =>
          obtain ⟨classification, canonicalState, confidence⟩ := answer
          -- the statement refuses anything but strings, and confidences it cannot store
          have hraises (hbad : ∀ classification' canonicalState' stored,
              ¬ (toText classification = .ok classification' ∧ toText canonicalState = .ok canonicalState' ∧
                floatToNumeric 4 3 confidence = .ok stored)) :
              (Op.upsertEventType vendorId rawEventType classification canonicalState confidence).handle w' =
                (.error .databaseError, w') := by
            rw [Op.handle]
            split
            · rename_i h₁ h₂ h₃
              exact absurd ⟨h₁, h₂, h₃⟩ (hbad _ _ _)
            · rfl
          by_cases hgood : ∃ classification' canonicalState' stored, toText classification = .ok classification' ∧
              toText canonicalState = .ok canonicalState' ∧ floatToNumeric 4 3 confidence = .ok stored
          · obtain ⟨classification', canonicalState', stored, h₁, h₂, h₃⟩ := hgood
            obtain rfl := toText_eq_ok h₁
            obtain rfl := toText_eq_ok h₂
            exact .inl ⟨_, _, _, .classified hmapping hheard hanswer h₃⟩
          · refine .inr (.inr ⟨.databaseError, ?_⟩)
            dsimp only
            rw [Program.run_perform_error Op.handle (hraises fun c s stored h => hgood ⟨c, s, stored, h⟩)]
    · cases hrun : Program.run Op.handle (classifyEventType env settings vendorId rawEventType) w with
      | mk r w' =>
        rw [hrun] at hraises
        cases hraises
        exact .inr (.inr ⟨e, rfl⟩)

/-- What Path A goes on with once the raw event type is resolved. -/
def extractResolved (env : Externals) (eventId : EventId) (vendorId : String) (payload : JsonObject)
    (schemaMatch : SchemaMatch) : Option (String × String) → Job (Option CanonicalEvent)
  | none => return none
  | some (classification, canonicalState) => do
    let extraction ← Program.ofExcept
      (extract env payload eventId vendorId schemaMatch.schemaDoc (some canonicalState) (some classification))
    match extraction.event with
    | .ok canonical => extractionSucceeded eventId schemaMatch.schemaId canonical
    | .error _ => return none

section FirstPass
variable {schemaMatch : SchemaMatch} {first : ExtractionResult}
  (hfirst : extract env payload eventId vendorId schemaMatch.schemaDoc none none = .ok first)
  (hnot : ∀ event, first.event = .ok event → schemaMatch.schemaDoc.get "classification" ≠ .str "unclassified")
include hfirst hnot

/-- **After a first pass that makes no event, Path A resolves the raw event type**, if there is one. -/
theorem processViaSchema_resolves (settings : Settings) :
    processViaSchema env settings eventId vendorId payload schemaMatch =
      if first.rawEventType.getD "" = "" then .ret none
      else resolveEventType env settings vendorId (first.rawEventType.getD "") >>=
        extractResolved env eventId vendorId payload schemaMatch := by
  rw [processViaSchema]
  simp only [hfirst, Program.ofExcept, Program.ret_bind]
  split
  · rename_i event hevent hdoc
    exact absurd (of_decide_eq_true hdoc) (hnot event hevent)
  · rfl

/-- Where the raw event type is resolved, Path A is what the second pass makes of it. -/
theorem run_processViaSchema_resolved (hraw : first.rawEventType.getD "" ≠ "") {resolved : Option (String × String)}
    {w' : World}
    (h : Program.run Op.handle (resolveEventType env settings vendorId (first.rawEventType.getD "")) w =
      (.ok resolved, w')) :
    Program.run Op.handle (processViaSchema env settings eventId vendorId payload schemaMatch) w =
      Program.run Op.handle (extractResolved env eventId vendorId payload schemaMatch resolved) w' := by
  rw [processViaSchema_resolves hfirst hnot, if_neg hraw, Program.run_bind, h]

/-- Where resolving it raises, Path A raises. -/
theorem run_processViaSchema_unresolved (hraw : first.rawEventType.getD "" ≠ "") {e : PyError}
    (h : (Program.run Op.handle (resolveEventType env settings vendorId (first.rawEventType.getD "")) w).1 =
      .error e) :
    (Program.run Op.handle (processViaSchema env settings eventId vendorId payload schemaMatch) w).1 = .error e := by
  rw [processViaSchema_resolves hfirst hnot, if_neg hraw, Program.run_bind]
  cases hresolve : Program.run Op.handle (resolveEventType env settings vendorId (first.rawEventType.getD "")) w with
  | mk r w' =>
    rw [hresolve] at h
    cases h
    rfl

/-- **Where the schema is silent, Path A returns nothing.** -/
theorem processViaSchema_silent {w' : World}
    (h : Silent env settings w payload eventId vendorId schemaMatch.schemaDoc (first.rawEventType.getD "") w') :
    Program.run Op.handle (processViaSchema env settings eventId vendorId payload schemaMatch) w =
      (.ok none, w') := by
  cases h with
  | untyped hraw =>
    rw [processViaSchema_resolves hfirst hnot, if_pos hraw]
    rfl
  | unmapped hraw hunmapped =>
    rw [run_processViaSchema_resolved hfirst hnot hraw (run_resolveEventType_unmapped hunmapped)]
    rfl
  | unread hraw hsettles hsecond =>
    rw [run_processViaSchema_resolved hfirst hnot hraw (run_resolveEventType hsettles), extractResolved]
    simp only [hsecond]
    rfl

end FirstPass

/-- **What the schema is sure to read, Path A returns.** -/
theorem processViaSchema_settled {schemaMatch : SchemaMatch} {canonical : CanonicalEvent}
    (h : Reads env payload eventId vendorId schemaMatch.schemaDoc (SureMapping env settings w vendorId) canonical) :
    (Program.run Op.handle (processViaSchema env settings eventId vendorId payload schemaMatch) w).1 =
      .ok (some canonical) := by
  cases h with
  | unclassified hdoc hfirst =>
    rw [processViaSchema]
    simp only [hfirst, Program.ofExcept, Program.ret_bind, hdoc, decide_true]
    rfl
  | entity hfirst hnot hraw hresolves hsecond =>
    obtain ⟨w', hsettles⟩ := hresolves
    rw [run_processViaSchema_resolved hfirst hnot hraw (run_resolveEventType hsettles), extractResolved]
    simp only [hsecond]
    rfl

/-- **Path A reads the payload, comes to nothing, or raises.** -/
theorem reads_or_silent_or_raises (env : Externals) (settings : Settings) (w : World) (payload : JsonObject)
    (eventId : EventId) (vendorId : String) (schemaMatch : SchemaMatch) :
    (∃ canonical, Reads env payload eventId vendorId schemaMatch.schemaDoc (SureMapping env settings w vendorId)
        canonical) ∨
      (∃ first w', extract env payload eventId vendorId schemaMatch.schemaDoc none none = .ok first ∧
        (∀ event, first.event = .ok event → schemaMatch.schemaDoc.get "classification" ≠ .str "unclassified") ∧
        Silent env settings w payload eventId vendorId schemaMatch.schemaDoc (first.rawEventType.getD "") w') ∨
      ∃ e, (Program.run Op.handle (processViaSchema env settings eventId vendorId payload schemaMatch) w).1 =
        .error e := by
  cases hfirst : extract env payload eventId vendorId schemaMatch.schemaDoc none none with
  | error e =>
    refine .inr (.inr ⟨e, ?_⟩)
    rw [processViaSchema]
    simp only [hfirst]
    rfl
  | ok first =>
    by_cases hdone : ∃ event, first.event = .ok event ∧ schemaMatch.schemaDoc.get "classification" = .str "unclassified"
    · obtain ⟨event, hevent, hdoc⟩ := hdone
      have hread : first = ⟨first.rawEventType, .ok event⟩ := by rw [← hevent]
      rw [hread] at hfirst
      exact .inl ⟨event, .unclassified hdoc hfirst⟩
    · have hnot : ∀ event, first.event = .ok event →
          schemaMatch.schemaDoc.get "classification" ≠ .str "unclassified" :=
        fun event hevent hdoc => hdone ⟨event, hevent, hdoc⟩
      by_cases hraw : first.rawEventType.getD "" = ""
      · exact .inr (.inl ⟨first, w, rfl, hnot, .untyped hraw⟩)
      · rcases settles_or_raises env settings w vendorId (first.rawEventType.getD "") with
          ⟨classification, canonicalState, w', hsettles⟩ | ⟨w', hunmapped⟩ | ⟨e, hraises⟩
        · cases hsecond : extract env payload eventId vendorId schemaMatch.schemaDoc (some canonicalState)
            (some classification) with
          | error e =>
            refine .inr (.inr ⟨e, ?_⟩)
            rw [run_processViaSchema_resolved hfirst hnot hraw (run_resolveEventType hsettles), extractResolved]
            simp only [hsecond]
            rfl
          | ok second =>
            obtain ⟨raw, event⟩ := second
            cases event with
            | ok canonical => exact .inl ⟨canonical, .entity hfirst hnot hraw ⟨w', hsettles⟩ hsecond⟩
            | error e => exact .inr (.inl ⟨first, w', rfl, hnot, .unread hraw hsettles hsecond⟩)
        · exact .inr (.inl ⟨first, w', rfl, hnot, .unmapped hraw hunmapped⟩)
        · exact .inr (.inr ⟨e, run_processViaSchema_unresolved hfirst hnot hraw hraises⟩)

/-! ### Finalizing -/

/-- **The step has gone on to finalize the event**, onto the tables that were there: what came of it is
what `apply_event` came to. -/
structure Finalizes (w : World) (normalized : CanonicalEvent) (r : Except PyError ProcessOutcome) (w' : World) :
    Prop where
  result : r = ((applyEvent normalized w.db.store).1.mapError ApplyError.toPyError).map .finalized
  store : w'.db.store = (applyEvent normalized w.db.store).2
  canonicalEvents : w'.db.canonicalEvents = match (applyEvent normalized w.db.store).1 with
    | .ok _ => w.db.canonicalEvents.insert normalized.base.eventId normalized
    | .error _ => w.db.canonicalEvents

theorem finalizeEvent_finalizes {canonical normalized : CanonicalEvent}
    (hnormalize : normalize (overrideVendor vendorId canonical) = .ok normalized) :
    Program.Triple Op.handle (SameEvents w) (finalizeEvent eventId vendorId canonical)
      (Finalizes w normalized) := by
  rintro w' ⟨hstore, hcanonical⟩
  rw [finalizeEvent, hnormalize]
  dsimp only
  cases happly : applyEvent normalized w.db.store with
  | mk r store =>
    cases r with
    | ok outcome =>
      have hfinalize : (Op.finalize eventId normalized).handle w' =
          (.ok outcome, { w' with db := w'.db.finalized eventId normalized store }) := by
        rw [Op.handle, hstore, happly]
      rw [Program.run_perform_bind Op.handle hfinalize]
      refine ⟨by rw [happly]; rfl, by rw [happly]; rfl, ?_⟩
      rw [happly, ← hcanonical]
      rfl
    | error e =>
      have hfinalize : (Op.finalize eventId normalized).handle w' =
          (.error e.toPyError, { w' with db := { w'.db with store } }) := by
        rw [Op.handle, hstore, happly]
      rw [Program.run_perform_error Op.handle hfinalize]
      refine ⟨by rw [happly]; rfl, by rw [happly], ?_⟩
      rw [happly, ← hcanonical]

/-- What cannot be normalized is not finalized. -/
theorem finalizeEvent_idle {canonical : CanonicalEvent}
    (hnot : ∀ normalized, normalize (overrideVendor vendorId canonical) ≠ .ok normalized) :
    Program.Triple Op.handle (SameEvents w) (finalizeEvent eventId vendorId canonical) (Idle w) := by
  rw [finalizeEvent]
  split
  · rename_i normalized hnormalize
    exact absurd hnormalize (hnot normalized)
  · exact .bind (R := fun _ => SameEvents w) (.perform fun w' h => ⟨h.store, h.canonicalEvents⟩)
      (fun _ => .ret fun w' h => ⟨h, fun outcome hr => by cases hr⟩) fun e w' h => ⟨h, fun outcome hr => by cases hr⟩
  · exact .raise fun w' h => ⟨h, fun outcome hr => by cases hr⟩

/-! ### Path B -/

/-- **The adapter builds its event of the answer that is sure.** -/
theorem universalNormalize_sure (hvendor : vendorId ≠ "") {source : Source} {data : JsonObject}
    {canonical : CanonicalEvent} (hanswer : SureAnswer env settings w vendorId payload source data)
    (hbuild : buildCanonical env eventId data source = .ok canonical) :
    Program.Triple Op.handle (fun w' => w' = w) (universalNormalize env settings eventId vendorId payload)
      fun r w' => SameEvents w w' ∧ ∃ outcome, r = .ok (.ok canonical outcome) := by
  have hanswered : Program.Triple Op.handle (fun w' => w' = w)
      ((Except.ok <$> classifyExtract env settings eventId vendorId payload).tryCatch adapterFailure)
      fun r _ => ∃ cost, r = .ok (.ok ⟨data, source, cost⟩) := by
    refine .tryCatch (.map (R := fun r _ => ∃ cost, r = .ok ⟨data, source, cost⟩)
      (Q := fun r _ => ∃ cost, r = .ok (.ok ⟨data, source, cost⟩)) ?_ ?_ ?_) (fun _ _ h => h) fun e => ?_
    · rintro w' rfl
      exact classifyExtract_sure hanswer
    · rintro outcome w' ⟨cost, houtcome⟩
      cases houtcome
      exact ⟨cost, rfl⟩
    · rintro e w' ⟨cost, he⟩
      cases he
    · rintro w' ⟨cost, he⟩
      cases he
  have hbuilt : Program.Triple Op.handle (fun w' => w' = w)
      (universalNormalize env settings eventId vendorId payload)
      fun r _ => ∃ outcome, r = .ok (.ok canonical outcome) := by
    rw [universalNormalize]
    simp only [if_neg hvendor]
    refine .bind hanswered (fun answer => ?_) ?_
    · rintro w' ⟨cost, hanswer⟩
      cases hanswer
      simp only [hbuild]
      exact ⟨_, rfl⟩
    · rintro e w' ⟨cost, he⟩
      cases he
  intro w' h
  have hasks : Asks w (Program.run Op.handle (universalNormalize env settings eventId vendorId payload) w').2 :=
    (universalNormalize_spec env settings hvendor w w' h).1
  exact ⟨⟨by rw [hasks.db], by rw [hasks.db]⟩, hbuilt w' h⟩

/-- The adapter builds an event of nothing else. -/
theorem universalNormalize_only (hvendor : vendorId ≠ "") (w : World) :
    Program.Triple Op.handle (fun w' => w' = w) (universalNormalize env settings eventId vendorId payload)
      fun r w' => Asks w w' ∧ ∀ canonical outcome, r = .ok (.ok canonical outcome) →
        SureAnswer env settings w vendorId payload outcome.source outcome.data ∧
          buildCanonical env eventId outcome.data outcome.source = .ok canonical := by
  refine universalNormalize_triple env settings hvendor w ?_
  rintro w' rfl
  exact ⟨(classifyExtract_spec env settings w' eventId vendorId payload w' rfl).1,
    fun outcome h => sureAnswer_of_classifyExtract h⟩

/-- Discovery leaves the projections. -/
theorem Learns.sameEvents {data : JsonObject} {w' w'' : World} (h : Learns env eventId vendorId payload data w' w'')
    (hsame : SameEvents w w') : SameEvents w w'' := by
  cases h with
  | nothing hdb htrace => exact ⟨by rw [hdb]; exact hsame.store, by rw [hdb]; exact hsame.canonicalEvents⟩
  | persisted hdiscover hrow hdb heventTypes htrace =>
    exact ⟨by rw [hdb]; exact hsame.store, by rw [hdb]; exact hsame.canonicalEvents⟩

/-- **An answer that is sure is finalized.** -/
theorem processViaLLM_sure (hvendor : vendorId ≠ "") {source : Source} {data : JsonObject}
    {canonical normalized : CanonicalEvent} (hanswer : SureAnswer env settings w vendorId payload source data)
    (hbuild : buildCanonical env eventId data source = .ok canonical)
    (hnormalize : normalize (overrideVendor vendorId canonical) = .ok normalized) :
    Program.Triple Op.handle (fun w' => w' = w) (processViaLLM env settings eventId vendorId payload)
      (Finalizes w normalized) := by
  have hfinal : Program.Triple Op.handle (SameEvents w) (finalizeEvent eventId vendorId canonical)
      (Finalizes w normalized) := finalizeEvent_finalizes hnormalize
  refine .bind (universalNormalize_sure hvendor hanswer hbuild) (fun result => ?_) ?_
  · rintro w' ⟨hsame, outcome, hresult⟩
    cases hresult
    dsimp only
    split
    · refine Program.Triple.bind (R := fun r w'' => (∃ a, r = .ok a) ∧ SameEvents w w'')
        (.tryCatch (discoverAndPersist_spec env outcome.data w') ?_ fun e => .ret ?_) (fun _ => ?_) ?_ w' rfl
      · intro a w'' hlearns
        exact ⟨⟨a, rfl⟩, hlearns.sameEvents hsame⟩
      · intro w'' hlearns
        exact ⟨⟨_, rfl⟩, hlearns.sameEvents hsame⟩
      · exact fun w'' h => hfinal w'' h.2
      · rintro e w'' ⟨⟨a, ha⟩, -⟩
        cases ha
    · exact hfinal w' hsame
  · rintro e w' ⟨-, outcome, hresult⟩
    cases hresult

/-- **Where no answer is sure, nothing is finalized.** -/
theorem processViaLLM_idle (hvendor : vendorId ≠ "")
    (hnot : ∀ source data canonical normalized, SureAnswer env settings w vendorId payload source data →
      buildCanonical env eventId data source = .ok canonical →
        normalize (overrideVendor vendorId canonical) ≠ .ok normalized) :
    Program.Triple Op.handle (fun w' => w' = w) (processViaLLM env settings eventId vendorId payload) (Idle w) := by
  have hasks {w' : World} (h : Asks w w') : SameEvents w w' := ⟨by rw [h.db], by rw [h.db]⟩
  refine .bind (universalNormalize_only hvendor w) (fun result => ?_) fun e w' h =>
    ⟨hasks h.1, fun outcome hr => by cases hr⟩
  cases result with
  | ok canonical outcome =>
    rintro w' ⟨h, hsure⟩
    obtain ⟨hanswer, hbuild⟩ := hsure canonical outcome rfl
    have hfinal : Program.Triple Op.handle (SameEvents w) (finalizeEvent eventId vendorId canonical) (Idle w) :=
      finalizeEvent_idle fun normalized => hnot _ _ canonical normalized hanswer hbuild
    have hsame := hasks h
    dsimp only
    split
    · refine Program.Triple.bind (R := fun _ => SameEvents w)
        (.tryCatch (discoverAndPersist_spec env outcome.data w') ?_ fun e => .ret ?_) (fun _ => hfinal) ?_ w' rfl
      · exact fun a w'' hlearns => hlearns.sameEvents hsame
      · exact fun w'' hlearns => hlearns.sameEvents hsame
      · exact fun e w'' h => ⟨h, fun outcome hr => by cases hr⟩
    · exact hfinal w' hsame
  | deferred | unsupported =>
    exact .bind (R := fun _ => SameEvents w)
      (.perform fun w' h => ⟨(hasks h.1).store, (hasks h.1).canonicalEvents⟩)
      (fun _ => .ret fun w' h => ⟨h, fun outcome hr => by cases hr⟩) fun e w' h => ⟨h, fun outcome hr => by cases hr⟩

/-! ### A whole step -/

/-- Path A's silence leaves the projections. -/
theorem Unread.sameEvents {w' : World} (h : Unread env settings w payload eventId vendorId w') : SameEvents w w' := by
  cases h with
  | unknown => exact ⟨rfl, rfl⟩
  | @silent schemaMatch first w₁ hlookup hfirst hnot hsilent =>
    have hvia : ViaSchema env payload eventId vendorId schemaMatch w _ _ :=
      processViaSchema_triple env settings w rfl
    rw [processViaSchema_silent hfirst hnot hsilent] at hvia
    have hprepares : Prepares w w₁ := hvia.toPrepares
    have hstore : w₁.db.store = w.db.store := by rw [hprepares.db]
    have hcanonical : w₁.db.canonicalEvents = w.db.canonicalEvents := by rw [hprepares.db]
    exact ⟨hstore, hcanonical⟩

/-- Where no schema says anything, the step is Path B's. -/
theorem run_processRow_unread {row : RawEvent} {w' : World}
    (h : Unread env settings w row.payload eventId (resolveVendorId env.toUnicode row) w') :
    Program.run Op.handle (processRow env settings eventId row) w =
      Program.run Op.handle (processViaLLM env settings eventId (resolveVendorId env.toUnicode row) row.payload)
        w' := by
  rw [processRow]
  cases h with
  | unknown hlookup => rw [Program.run_perform_bind Op.handle (by rw [Op.handle, hlookup])]
  | silent hlookup hfirst hnot hsilent =>
    rw [Program.run_perform_bind Op.handle (by rw [Op.handle, hlookup])]
    dsimp only
    rw [Program.run_bind, processViaSchema_silent hfirst hnot hsilent]
    dsimp only
    rw [Program.run_perform_bind Op.handle rfl]
    rfl

/-- **What is sure to be drafted is finalized.** -/
theorem processEvent_sure {row : RawEvent}
    (hrow : w.db.rawEvents.lookup eventId = some row) {draft normalized : CanonicalEvent}
    (h : Sure env settings w row.payload eventId (resolveVendorId env.toUnicode row) draft)
    (hnormalize : normalize (overrideVendor (resolveVendorId env.toUnicode row) draft) = .ok normalized) :
    Finalizes w normalized (Job.run (processEvent env settings eventId) w).1
      (Job.run (processEvent env settings eventId) w).2 := by
  have hvendor := resolveVendorId_ne_empty env.toUnicode row
  rw [Job.run, processEvent, Program.run_perform_bind Op.handle (by rw [Op.handle, hrow])]
  dsimp only
  cases h with
  | @schema schemaMatch _ hlookup hreads =>
    rw [processRow, Program.run_perform_bind Op.handle (by rw [Op.handle, hlookup])]
    dsimp only
    have hread := processViaSchema_settled hreads
    have hvia : ViaSchema env row.payload eventId (resolveVendorId env.toUnicode row) schemaMatch w _ _ :=
      processViaSchema_triple env settings w rfl
    rw [Program.run_bind]
    generalize Program.run Op.handle (processViaSchema env settings eventId (resolveVendorId env.toUnicode row)
      row.payload schemaMatch) w = step at hread hvia ⊢
    obtain ⟨r, w'⟩ := step
    cases hread
    obtain ⟨-, w₁, hprepares, rfl⟩ := hvia
    have hstore : w₁.db.store = w.db.store := by rw [hprepares.db]
    have hcanonical : w₁.db.canonicalEvents = w.db.canonicalEvents := by rw [hprepares.db]
    exact finalizeEvent_finalizes hnormalize _ ⟨hstore, hcanonical⟩
  | @llm w' _ _ _ hunread hanswer hbuild =>
    rw [run_processRow_unread hunread]
    have hfinal := processViaLLM_sure (w := w') hvendor hanswer hbuild hnormalize w' rfl
    obtain ⟨hstore, hcanonical⟩ := hunread.sameEvents
    refine ⟨?_, ?_, ?_⟩
    · rw [← hstore]
      exact hfinal.result
    · rw [← hstore]
      exact hfinal.store
    · rw [← hstore, ← hcanonical]
      exact hfinal.canonicalEvents

/-- **Where nothing is sure to be drafted, the step changes nothing.** -/
theorem processEvent_idle {row : RawEvent} (hrow : w.db.rawEvents.lookup eventId = some row)
    (h : ∀ draft normalized, Sure env settings w row.payload eventId (resolveVendorId env.toUnicode row) draft →
      normalize (overrideVendor (resolveVendorId env.toUnicode row) draft) ≠ .ok normalized) :
    Idle w (Job.run (processEvent env settings eventId) w).1 (Job.run (processEvent env settings eventId) w).2 := by
  have hvendor := resolveVendorId_ne_empty env.toUnicode row
  rw [Job.run, processEvent, Program.run_perform_bind Op.handle (by rw [Op.handle, hrow])]
  dsimp only
  have hpathB {w' : World}
      (hunread : Unread env settings w row.payload eventId (resolveVendorId env.toUnicode row) w') :
      Idle w (Program.run Op.handle (processRow env settings eventId row) w).1
        (Program.run Op.handle (processRow env settings eventId row) w).2 := by
    rw [run_processRow_unread hunread]
    have hidle := processViaLLM_idle (w := w') hvendor
      (fun source data canonical normalized hanswer hbuild =>
        h canonical normalized (.llm hunread hanswer hbuild)) w' rfl
    have hsame := hunread.sameEvents
    exact ⟨⟨hidle.store.trans hsame.store, hidle.canonicalEvents.trans hsame.canonicalEvents⟩, hidle.result⟩
  cases hlookup : lookupSchema w.db.vendorSchemas (resolveVendorId env.toUnicode row)
      (structuralFingerprint env (.obj row.payload) []) with
  | none => exact hpathB (.unknown hlookup)
  | some schemaMatch =>
    have hvia : ViaSchema env row.payload eventId (resolveVendorId env.toUnicode row) schemaMatch w _ _ :=
      processViaSchema_triple env settings w rfl
    rcases reads_or_silent_or_raises env settings w row.payload eventId (resolveVendorId env.toUnicode row) schemaMatch
      with ⟨canonical, hreads⟩ | ⟨first, w', hfirst, hnot, hsilent⟩ | ⟨e, hraises⟩
    · -- what was read cannot be normalized
      rw [processRow, Program.run_perform_bind Op.handle (by rw [Op.handle, hlookup])]
      dsimp only
      rw [Program.run_bind]
      have hread := processViaSchema_settled hreads
      generalize Program.run Op.handle (processViaSchema env settings eventId (resolveVendorId env.toUnicode row)
        row.payload schemaMatch) w = step at hread hvia ⊢
      obtain ⟨r, w'⟩ := step
      cases hread
      obtain ⟨-, w₁, hprepares, rfl⟩ := hvia
      have hstore : w₁.db.store = w.db.store := by rw [hprepares.db]
      have hcanonical : w₁.db.canonicalEvents = w.db.canonicalEvents := by rw [hprepares.db]
      exact finalizeEvent_idle (fun normalized => h canonical normalized (.schema hlookup hreads)) _
        ⟨hstore, hcanonical⟩
    · exact hpathB (.silent hlookup hfirst hnot hsilent)
    · rw [processRow, Program.run_perform_bind Op.handle (by rw [Op.handle, hlookup])]
      dsimp only
      rw [Program.run_bind]
      generalize Program.run Op.handle (processViaSchema env settings eventId (resolveVendorId env.toUnicode row)
        row.payload schemaMatch) w = step at hraises hvia ⊢
      obtain ⟨r, w'⟩ := step
      cases hraises
      have hprepares : Prepares w w' := hvia
      exact ⟨⟨by rw [hprepares.db], by rw [hprepares.db]⟩, fun outcome hr => by cases hr⟩

/-! ### One draft -/

theorem Unread.unique {w₁ w₂ : World} (h : Unread env settings w payload eventId vendorId w₁)
    (h' : Unread env settings w payload eventId vendorId w₂) : w₁ = w₂ := by
  cases h with
  | unknown hlookup =>
    cases h' with
    | unknown => rfl
    | silent hlookup' => cases hlookup.symm.trans hlookup'
  | silent hlookup hfirst hnot hsilent =>
    cases h' with
    | unknown hlookup' => cases hlookup.symm.trans hlookup'
    | silent hlookup' hfirst' hnot' hsilent' =>
      cases hlookup.symm.trans hlookup'
      have hrun := processViaSchema_silent hfirst hnot hsilent
      rw [processViaSchema_silent hfirst' hnot' hsilent'] at hrun
      cases hrun
      rfl

/-- What a schema reads is not unread. -/
theorem Unread.not_reads {w' : World} (h : Unread env settings w payload eventId vendorId w')
    {schemaMatch : SchemaMatch} {canonical : CanonicalEvent}
    (hlookup : lookupSchema w.db.vendorSchemas vendorId (structuralFingerprint env (.obj payload) []) =
      some schemaMatch) :
    ¬ Reads env payload eventId vendorId schemaMatch.schemaDoc (SureMapping env settings w vendorId) canonical := by
  intro hreads
  cases h with
  | unknown hlookup' => cases hlookup.symm.trans hlookup'
  | silent hlookup' hfirst hnot hsilent =>
    cases hlookup.symm.trans hlookup'
    have hrun := processViaSchema_settled hreads
    rw [processViaSchema_silent hfirst hnot hsilent] at hrun
    cases hrun

/-- **One draft at most is sure.** -/
theorem Sure.unique {draft draft' : CanonicalEvent} (h : Sure env settings w payload eventId vendorId draft)
    (h' : Sure env settings w payload eventId vendorId draft') : draft = draft' := by
  cases h with
  | schema hlookup hreads =>
    cases h' with
    | schema hlookup' hreads' =>
      cases hlookup.symm.trans hlookup'
      cases (processViaSchema_settled hreads).symm.trans (processViaSchema_settled hreads')
      rfl
    | llm hunread hanswer hbuild => exact absurd hreads (hunread.not_reads hlookup)
  | llm hunread hanswer hbuild =>
    cases h' with
    | schema hlookup hreads => exact absurd hreads (hunread.not_reads hlookup)
    | llm hunread' hanswer' hbuild' =>
      obtain rfl := hunread.unique hunread'
      obtain ⟨rfl, rfl⟩ := hanswer.unique hanswer'
      cases hbuild.symm.trans hbuild'
      rfl

theorem Sure.draft_eventId {draft : CanonicalEvent} (h : Sure env settings w payload eventId vendorId draft) :
    draft.base.eventId = eventId := by
  cases h with
  | schema hlookup hreads =>
    cases hreads with
    | unclassified hdoc hfirst => exact (base_of_extract hfirst).1
    | entity hfirst hnot hraw hresolves hsecond => exact (base_of_extract hsecond).1
  | llm hunread hanswer hbuild => exact (base_of_buildCanonical hbuild).1

end Sure

end WebhookIngestion
