import WebhookIngestion.SureDrafts

/-! # Answers that the classifier can read

`classify_event_type` only parses an answer before it caches it.  The cache may refuse it, and
raises.  Of the fields that are read then, `float` of the confidence is the one that can raise;
the same answer raises again on every later call, which finds it in the cache. -/
namespace WebhookIngestion
open Tables Programs

/-- `float` reads the confidence of an answer, or there is none to read. -/
def readableConfidence (env : Externals) (data : JsonObject) : Bool :=
  (data.lookup "confidence").all (Json.readsAsFloat env)

theorem eventTypeAnswer_returns_iff {env : Externals} {data : JsonObject} :
    Returns (eventTypeAnswer env data) ↔ readableConfidence env data = true := by
  have hanswer : Returns (eventTypeAnswer env data) ↔
      Returns (((data.lookup "confidence").getD (.float (.finite false 0 0))).toFloat env) := by
    rw [eventTypeAnswer, returns_bind]
    constructor
    · rintro ⟨value, hvalue, -⟩
      exact ⟨value, hvalue⟩
    · rintro ⟨value, hvalue⟩
      exact ⟨value, hvalue, .ok _⟩
  rw [hanswer, readableConfidence]
  cases hlookup : data.lookup "confidence" with
  | none => exact iff_of_true (.ok _) rfl
  | some x => exact Json.returns_toFloat_iff

section
variable (env : Externals) (settings : Settings) (vendorId rawEventType : String)

/-- The provider is asked for a raw event type, and gives an answer: none is cached, and the
guard lets it be asked. -/
structure ClassifierAsked (w : World) (result : LLMResult) : Prop where
  miss : w.db.llmCache.lookup (eventTypeCacheKey env vendorId rawEventType) = none
  allowed : (Job.run (allow settings vendorId (2 / 10000)) w).1 = .ok true
  answers : ∃ answers, w.answers = .ok result :: answers

/-- The call gives `None` or a triple. -/
def ClassifierReturns (w : World) : Prop :=
  Returns (Job.run (classifyEventType env settings vendorId rawEventType) w).1

/-- A later call finds in the cache what the call in `w` left there. -/
def ClassifierRemembers (w w' : World) : Prop :=
  ∃ entry, (Job.run (classifyEventType env settings vendorId rawEventType) w).2.db.llmCache.lookup
      (eventTypeCacheKey env vendorId rawEventType) = some entry ∧
    w'.db.llmCache.lookup (eventTypeCacheKey env vendorId rawEventType) = some entry

variable {env settings vendorId rawEventType} {w : World}

theorem returns_of_cached {entry : CacheEntry}
    (hentry : w.db.llmCache.lookup (eventTypeCacheKey env vendorId rawEventType) = some entry) :
    ClassifierReturns env settings vendorId rawEventType w ↔ readableConfidence env entry.output = true := by
  rw [ClassifierReturns, Job.run, classifyEventType_consulted (.cached hentry), eventTypeAnswer_returns_iff]

/-- **The classifier never raises on an answer, then or later**, if and only if the answer is
no JSON object, or one that can be stored with its cost, of which `float` reads the confidence. -/
theorem returns_iff_readable {result : LLMResult} (h : ClassifierAsked env settings vendorId rawEventType w result) :
    (ClassifierReturns env settings vendorId rawEventType w ∧
        ∀ w', ClassifierRemembers env settings vendorId rawEventType w w' →
          ClassifierReturns env settings vendorId rawEventType w') ↔
      ∀ data, parseJson env result.text = some data →
        readableConfidence env data = true ∧ (Json.obj data).storable = true ∧
          ∃ cost, toNumeric 10 6 result.costEstimate = .ok cost := by
  obtain ⟨hmiss, hallowed, answers, hanswers⟩ := h
  cases hdata : parseJson env result.text with
  | none =>
    have hrun := run_classifyEventType_unparsed hanswers hmiss hallowed hdata
    constructor
    · rintro - data hsome
      cases hsome
    · intro _
      refine ⟨⟨none, congrArg Prod.fst hrun⟩, ?_⟩
      rintro w' ⟨entry, hentry, -⟩
      rw [Job.run, hrun] at hentry
      cases hmiss.symm.trans hentry
  | some data =>
    have hrun := run_classifyEventType_parsed hanswers hmiss hallowed hdata
    cases hrow : CacheEntry.toRow ⟨data, result.costEstimate⟩ with
    | error e =>
      have hraise : Program.run Op.handle (classifyEventType env settings vendorId rawEventType) w =
          (.error e, w.asked vendorId result answers) := by
        rw [hrun, Program.run_perform_error Op.handle (by rw [Op.handle, hrow])]
      constructor
      · rintro ⟨⟨answer, hanswer⟩, -⟩
        rw [Job.run, hraise] at hanswer
        cases hanswer
      · intro hall
        obtain ⟨-, hstorable, cost, hcost⟩ := hall data rfl
        have hstored : CacheEntry.toRow ⟨data, result.costEstimate⟩ = .ok ⟨data, cost⟩ :=
          CacheEntry.toRow_eq_ok.mpr ⟨hstorable, rfl, hcost⟩
        cases hrow.symm.trans hstored
    | ok row =>
      obtain ⟨hstorable, hout, hcost⟩ := CacheEntry.toRow_eq_ok.mp hrow
      have hreturns : ClassifierReturns env settings vendorId rawEventType w ↔ readableConfidence env data = true := by
        rw [ClassifierReturns, Job.run, classifyEventType_consulted (.answered hmiss hallowed hanswers hdata hrow),
          eventTypeAnswer_returns_iff]
      constructor
      · rintro ⟨hfresh, -⟩ data' hdata'
        cases hdata'
        exact ⟨hreturns.mp hfresh, hstorable, row.costEstimate, hcost⟩
      · intro hall
        have hreadable := (hall data rfl).1
        refine ⟨hreturns.mpr hreadable, ?_⟩
        rintro w' ⟨entry, hentry, hcached⟩
        refine (returns_of_cached hcached).mpr ?_
        have hleft : entry.output = data := by
          rw [Job.run, hrun, Program.run_perform_bind Op.handle (by rw [Op.handle, hrow]),
            run_eventTypeAnswer] at hentry
          simp only [World.asked, Database.insertCache, hmiss, lookup_insert_eq] at hentry
          rw [← Option.some.inj hentry]
          exact hout
        rw [hleft]
        exact hreadable

end

/-! ### An answer with a confidence, and one without -/

def deliveredText (confidence : String) : String :=
  "\x7b\"classification\":\"shipment\",\"canonical_state\":\"shipment.delivered\",\"confidence\":" ++ confidence ++
    "\x7d"

def deliveredAnswer (confidence : Json) : JsonObject :=
  [("classification", .str "shipment"), ("canonical_state", .str "shipment.delivered"), ("confidence", confidence)]

def deliveredRuntime : Externals := .ofTables
  [(deliveredText "1", .obj (deliveredAnswer (.int 1))), (deliveredText "null", .obj (deliveredAnswer .null))] [] [] []

/-- The world in which the provider is about to give an answer, for nothing. -/
def deliveredWorld (confidence : String) : World := World.start.facing 0 [.ok ⟨deliveredText confidence, 0⟩]

theorem returns_iff_readable_witness :
    ClassifierReturns deliveredRuntime .defaults "acme" "POD" (deliveredWorld "1") ∧
      ∀ w', ClassifierRemembers deliveredRuntime .defaults "acme" "POD" (deliveredWorld "1") w' →
        ClassifierReturns deliveredRuntime .defaults "acme" "POD" w' := by
  have hparse : parseJson deliveredRuntime (deliveredText "1") = some (deliveredAnswer (.int 1)) := by
    decide +kernel
  have hasked : ClassifierAsked deliveredRuntime .defaults "acme" "POD" (deliveredWorld "1")
      ⟨deliveredText "1", 0⟩ := ⟨rfl, by decide +kernel, [], rfl⟩
  refine (returns_iff_readable hasked).mpr fun data hdata => ?_
  obtain rfl := Option.some.inj (hparse.symm.trans hdata)
  exact ⟨by decide +kernel, by decide +kernel, 0, by decide +kernel⟩

/-- `float(None)` raises, and it raises again for the answer that was cached before. -/
theorem null_confidence_raises :
    ClassifierAsked deliveredRuntime .defaults "acme" "POD" (deliveredWorld "null") ⟨deliveredText "null", 0⟩ ∧
      (Job.run (classifyEventType deliveredRuntime .defaults "acme" "POD") (deliveredWorld "null")).1 =
        .error .typeError ∧
      (Job.run (classifyEventType deliveredRuntime .defaults "acme" "POD")
        (Job.run (classifyEventType deliveredRuntime .defaults "acme" "POD") (deliveredWorld "null")).2).1 =
          .error .typeError :=
  ⟨⟨rfl, by decide +kernel, [], rfl⟩, by decide +kernel, by decide +kernel⟩

end WebhookIngestion
