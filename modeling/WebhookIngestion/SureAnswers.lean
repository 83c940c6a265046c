import WebhookIngestion.FallbackRuns

/-! # Answers that are sure to be given

What the classifier and the orchestrator answer is settled by the cache, the budget guard and
what the provider says next.  The classifier hears an answer or none (`Hears`), or it raises;
the orchestrator gives the answer that it is sure of (`SureAnswer`), and no other. -/
namespace WebhookIngestion
open Tables Text Programs

section Answers
variable (env : Externals) (settings : Settings) (w : World)

/-! ### What is heard and said -/

/-- The world after the provider gave its next answer. -/
def World.asked (w : World) (vendorId : String) (result : LLMResult)
    (answers : List (Except PyError LLMResult)) : World :=
  { w with answers, trace := .called vendorId w.today (some result.costEstimate) :: w.trace }

/-- **What the classifier hears** of a raw event type, and the world it is left with: the cached
answer, else the provider's next one, if the guard lets it be asked; and nothing where there is none. -/
inductive Hears (vendorId rawEventType : String) : Option JsonObject → World → Prop
  | cached {entry : CacheEntry}
      (hentry : w.db.llmCache.lookup (eventTypeCacheKey env vendorId rawEventType) = some entry) :
      Hears vendorId rawEventType (some entry.output) w
  | denied (hmiss : w.db.llmCache.lookup (eventTypeCacheKey env vendorId rawEventType) = none)
      (hdenied : (Job.run (allow settings vendorId (2 / 10000)) w).1 = .ok false) :
      Hears vendorId rawEventType none w
  | unanswered (hmiss : w.db.llmCache.lookup (eventTypeCacheKey env vendorId rawEventType) = none)
      (hallowed : (Job.run (allow settings vendorId (2 / 10000)) w).1 = .ok true)
      (hanswers : ∀ result answers, w.answers ≠ .ok result :: answers) :
      Hears vendorId rawEventType none ((Op.complete vendorId).handle w).2
  | unparsed {result : LLMResult} {answers : List (Except PyError LLMResult)}
      (hmiss : w.db.llmCache.lookup (eventTypeCacheKey env vendorId rawEventType) = none)
      (hallowed : (Job.run (allow settings vendorId (2 / 10000)) w).1 = .ok true)
      (hanswers : w.answers = .ok result :: answers) (hdata : parseJson env result.text = none) :
      Hears vendorId rawEventType none (w.asked vendorId result answers)
  | answered {result : LLMResult} {answers : List (Except PyError LLMResult)} {data : JsonObject} {row : CacheEntry}
      (hmiss : w.db.llmCache.lookup (eventTypeCacheKey env vendorId rawEventType) = none)
      (hallowed : (Job.run (allow settings vendorId (2 / 10000)) w).1 = .ok true)
      (hanswers : w.answers = .ok result :: answers) (hdata : parseJson env result.text = some data)
      (hrow : CacheEntry.toRow ⟨data, result.costEstimate⟩ = .ok row) :
      Hears vendorId rawEventType (some data) { w.asked vendorId result answers with
        db := w.db.insertCache (eventTypeCacheKey env vendorId rawEventType) row }

/-- What the classifier makes of what it hears. -/
def heardAnswer : Option JsonObject → Except PyError (Option (Json × Json × PyFloat))
  | some data => eventTypeAnswer env data
  | none => .ok none

/-- What the orchestrator takes from the provider: a valid completion, or a valid one after
an invalid one. -/
inductive Says : List (Except PyError LLMResult) → LLMResult → JsonObject → Prop
  | first {result : LLMResult} {data : JsonObject} {answers : List (Except PyError LLMResult)}
      (hdata : parseAndValidate env result.text = .ok data) : Says (.ok result :: answers) result data
  | second {invalid result : LLMResult} {e : PyError} {data : JsonObject}
      {answers : List (Except PyError LLMResult)}
      (hinvalid : parseAndValidate env invalid.text = .error e) (hkind : isInvalidOutput e = true)
      (hdata : parseAndValidate env result.text = .ok data) :
      Says (.ok invalid :: .ok result :: answers) result data
  /-- The provider may raise what an invalid output raises. -/
  | retried {result : LLMResult} {e : PyError} {data : JsonObject} {answers : List (Except PyError LLMResult)}
      (hkind : isInvalidOutput e = true) (hdata : parseAndValidate env result.text = .ok data) :
      Says (.error e :: .ok result :: answers) result data

/-- **The answers for a payload that the orchestrator is sure of**: the cached one, else what
the provider says, if the guard lets it be asked, and the answer can be cached. -/
inductive SureAnswer (vendorId : String) (payload : JsonObject) : Source → JsonObject → Prop
  | cached {entry : CacheEntry} {cost : Rat}
      (hentry : w.db.llmCache.lookup (extractCacheKey env settings vendorId payload) = some entry)
      (hcost : toNumeric 10 6 entry.costEstimate = .ok cost) : SureAnswer vendorId payload .llmCache entry.output
  | asked {result : LLMResult} {data : JsonObject} {row : CacheEntry}
      (hmiss : w.db.llmCache.lookup (extractCacheKey env settings vendorId payload) = none)
      (hallowed : (Job.run (allow settings vendorId (1 / 1000)) w).1 = .ok true)
      (hsaid : Says env w.answers result data) (hrow : CacheEntry.toRow ⟨data, result.costEstimate⟩ = .ok row) :
      SureAnswer vendorId payload .llm data

variable {env settings w} {payload : JsonObject} {eventId : EventId} {vendorId : String}

/-! ### The orchestrator -/

/-- The guard answers, and changes nothing. -/
theorem run_allow {estimatedCost : Rat} {allowed : Bool}
    (h : (Job.run (allow settings vendorId estimatedCost) w).1 = .ok allowed) :
    Program.run Op.handle (allow settings vendorId estimatedCost) w = (.ok allowed, w) := by
  have hsame : (Program.run Op.handle (allow settings vendorId estimatedCost) w).2 = w :=
    (allow_keeps settings (· = w) vendorId estimatedCost).run rfl
  exact Prod.ext h hsame

theorem allow_returns (settings : Settings) (w : World) (vendorId : String) (estimatedCost : Rat) :
    ∃ allowed, (Job.run (allow settings vendorId estimatedCost) w).1 = .ok allowed := by
  rw [Job.run, allow, Program.run_perform_bind Op.handle rfl]
  simp only []
  split
  · exact ⟨false, rfl⟩
  · split
    · exact ⟨false, rfl⟩
    · exact ⟨true, rfl⟩

/-- One call takes the provider's next completion. -/
theorem run_attemptExtract {result : LLMResult} {answers : List (Except PyError LLMResult)}
    (hanswers : w.answers = .ok result :: answers) :
    Program.run Op.handle (attemptExtract env vendorId) w =
      ((parseAndValidate env result.text).map fun data => (result, data), { w with
        answers, trace := .called vendorId w.today (some result.costEstimate) :: w.trace }) := by
  rw [attemptExtract, Program.run_perform_bind Op.handle (by rw [Op.handle, hanswers])]
  cases parseAndValidate env result.text with
  | ok data => rfl
  | error e => rfl

theorem run_attemptExtract_error {e : PyError} {answers : List (Except PyError LLMResult)}
    (hanswers : w.answers = .error e :: answers) :
    Program.run Op.handle (attemptExtract env vendorId) w =
      (.error e, { w with answers, trace := .called vendorId w.today none :: w.trace }) := by
  rw [attemptExtract, Program.run_perform_error Op.handle (by rw [Op.handle, hanswers])]

theorem run_attemptExtract_nil (hanswers : w.answers = []) :
    (Program.run Op.handle (attemptExtract env vendorId) w).1 = .error .providerError := by
  rw [attemptExtract, Program.run_perform_error Op.handle (by rw [Op.handle, hanswers])]

theorem completeExtract_says {result : LLMResult} {data : JsonObject} (h : Says env w.answers result data) :
    (Program.run Op.handle (completeExtract env vendorId) w).1 = .ok (result, data) := by
  rw [completeExtract, Program.run_tryCatch]
  generalize hanswers : w.answers = answers at h
  cases h with
  | first hdata =>
    rw [run_attemptExtract hanswers, hdata]
    rfl
  | second hinvalid hkind hdata =>
    rw [run_attemptExtract hanswers, hinvalid]
    simp only [Except.map, hkind, ite_true]
    rw [Program.run_tryCatch, run_attemptExtract rfl, hdata]
    rfl
  | retried hkind hdata =>
    rw [run_attemptExtract_error hanswers]
    simp only [hkind, ite_true]
    rw [Program.run_tryCatch, run_attemptExtract rfl, hdata]
    rfl

/-- A call that returns took a valid completion. -/
theorem answers_of_attemptExtract {r : LLMResult × JsonObject}
    (h : (Program.run Op.handle (attemptExtract env vendorId) w).1 = .ok r) :
    ∃ answers, w.answers = .ok r.1 :: answers ∧ parseAndValidate env r.1.text = .ok r.2 := by
  cases hanswers : w.answers with
  | nil =>
    rw [run_attemptExtract_nil hanswers] at h
    cases h
  | cons answer answers =>
    cases answer with
    | error e =>
      rw [run_attemptExtract_error hanswers] at h
      cases h
    | ok result =>
      rw [run_attemptExtract hanswers] at h
      obtain ⟨data, hdata, rfl⟩ := map_eq_ok.mp h
      exact ⟨answers, rfl, hdata⟩

/-- **Whatever the calls come to, the provider says it.** -/
theorem says_of_completeExtract {result : LLMResult} {data : JsonObject}
    (h : (Program.run Op.handle (completeExtract env vendorId) w).1 = .ok (result, data)) :
    Says env w.answers result data := by
  rw [completeExtract, Program.run_tryCatch] at h
  cases hfirst : Program.run Op.handle (attemptExtract env vendorId) w with
  | mk r w' =>
    rw [hfirst] at h
    cases r with
    | ok answer =>
      cases h
      obtain ⟨answers, hanswers, hdata⟩ := answers_of_attemptExtract (congrArg Prod.fst hfirst)
      rw [hanswers]
      exact .first hdata
    | error e =>
      simp only at h
      split at h
      · rename_i hkind
        rw [Program.run_tryCatch] at h
        have hsecond : (Program.run Op.handle (attemptExtract env vendorId) w').1 = .ok (result, data) := by
          cases hrun : Program.run Op.handle (attemptExtract env vendorId) w' with
          | mk r w'' =>
            rw [hrun] at h
            cases r with
            | ok answer => exact h
            | error e =>
              simp only at h
              split at h
              · cases h
              · cases h
        obtain ⟨answers, hanswers, hdata⟩ := answers_of_attemptExtract hsecond
        cases hall : w.answers with
        | nil =>
          have hr := congrArg Prod.fst hfirst
          rw [run_attemptExtract_nil hall] at hr
          cases hr
          cases hkind
        | cons answer rest =>
          cases answer with
          | error e' =>
            rw [run_attemptExtract_error hall] at hfirst
            cases hfirst
            rw [show rest = .ok result :: answers from hanswers]
            exact .retried hkind hdata
          | ok invalid =>
            rw [run_attemptExtract hall] at hfirst
            cases hinvalid : parseAndValidate env invalid.text with
            | ok data' =>
              rw [hinvalid] at hfirst
              cases hfirst
            | error e' =>
              rw [hinvalid] at hfirst
              cases hfirst
              rw [show rest = .ok result :: answers from hanswers]
              exact .second hinvalid hkind hdata
      · cases h

/-- From the cache, the orchestrator answers if its audit takes the cost. -/
theorem classifyExtract_cached (eventId : EventId) {entry : CacheEntry}
    (hentry : w.db.llmCache.lookup (extractCacheKey env settings vendorId payload) = some entry) :
    (Program.run Op.handle (classifyExtract env settings eventId vendorId payload) w).1 =
      (fun _ => ⟨entry.output, .llmCache, entry.costEstimate⟩) <$> toNumeric 10 6 entry.costEstimate := by
  rw [classifyExtract, Program.run_perform_bind Op.handle (by rw [Op.handle, hentry])]
  simp only []
  cases hcost : toNumeric 10 6 entry.costEstimate with
  | ok cost =>
    rw [Program.run_perform_bind Op.handle (by rw [Op.handle, hcost])]
    rfl
  | error e =>
    rw [Program.run_perform_error Op.handle (by rw [Op.handle, hcost])]
    rfl

/-- What the provider says, the orchestrator answers if the cache takes it. -/
theorem classifyExtract_said (eventId : EventId) {result : LLMResult} {data : JsonObject}
    (hmiss : w.db.llmCache.lookup (extractCacheKey env settings vendorId payload) = none)
    (hallowed : (Job.run (allow settings vendorId (1 / 1000)) w).1 = .ok true)
    (hsaid : Says env w.answers result data) :
    (Program.run Op.handle (classifyExtract env settings eventId vendorId payload) w).1 =
      (fun _ => ⟨data, .llm, result.costEstimate⟩) <$> CacheEntry.toRow ⟨data, result.costEstimate⟩ := by
  rw [classifyExtract, Program.run_perform_bind Op.handle (by rw [Op.handle, hmiss])]
  simp only []
  rw [Program.run_bind, run_allow hallowed]
  simp only [ite_true]
  have hcomplete : (Program.run Op.handle (completeExtract env vendorId) w).1 = .ok (result, data) :=
    completeExtract_says hsaid
  rw [Program.run_bind]
  generalize Program.run Op.handle (completeExtract env vendorId) w = step at hcomplete ⊢
  obtain ⟨r, w'⟩ := step
  cases hcomplete
  simp only []
  cases hrow : CacheEntry.toRow ⟨data, result.costEstimate⟩ with
  | ok row =>
    have hcost : toNumeric 10 6 result.costEstimate = .ok row.costEstimate := (CacheEntry.toRow_eq_ok.mp hrow).2.2
    rw [Program.run_perform_bind Op.handle (by rw [Op.handle, hrow]),
      Program.run_perform_bind Op.handle (by rw [Op.handle, hcost])]
    rfl
  | error e =>
    rw [Program.run_perform_error Op.handle (by rw [Op.handle, hrow])]
    rfl

/-- **The orchestrator gives the answer it is sure of.** -/
theorem classifyExtract_sure {source : Source} {data : JsonObject}
    (h : SureAnswer env settings w vendorId payload source data) :
    ∃ cost, (Program.run Op.handle (classifyExtract env settings eventId vendorId payload) w).1 =
      .ok ⟨data, source, cost⟩ := by
  cases h with
  | cached hentry hcost =>
    rw [classifyExtract_cached eventId hentry, hcost]
    exact ⟨_, rfl⟩
  | asked hmiss hallowed hsaid hrow =>
    rw [classifyExtract_said eventId hmiss hallowed hsaid, hrow]
    exact ⟨_, rfl⟩

/-- **The orchestrator answers only what it is sure of.** -/
theorem sureAnswer_of_classifyExtract {outcome : LLMOutcome}
    (h : (Program.run Op.handle (classifyExtract env settings eventId vendorId payload) w).1 = .ok outcome) :
    SureAnswer env settings w vendorId payload outcome.source outcome.data := by
  cases hcache : w.db.llmCache.lookup (extractCacheKey env settings vendorId payload) with
  | some entry =>
    rw [classifyExtract_cached eventId hcache] at h
    obtain ⟨cost, hcost, rfl⟩ := map_eq_ok.mp h
    exact .cached hcache hcost
  | none =>
    obtain ⟨allowed, hallowed⟩ := allow_returns settings w vendorId (1 / 1000)
    cases allowed with
    | false =>
      rw [classifyExtract, Program.run_perform_bind Op.handle (by rw [Op.handle, hcache])] at h
      simp only [] at h
      rw [Program.run_bind, run_allow hallowed] at h
      cases h
    | true =>
      have hsaid : ∃ result data, Says env w.answers result data := by
        rw [classifyExtract, Program.run_perform_bind Op.handle (by rw [Op.handle, hcache])] at h
        simp only [] at h
        rw [Program.run_bind, run_allow hallowed] at h
        simp only [ite_true] at h
        rw [Program.run_bind] at h
        cases hcomplete : Program.run Op.handle (completeExtract env vendorId) w with
        | mk r w' =>
          rw [hcomplete] at h
          cases r with
          | ok answer => exact ⟨answer.1, answer.2, says_of_completeExtract (congrArg Prod.fst hcomplete)⟩
          | error e => cases h
      obtain ⟨result, data, hsaid⟩ := hsaid
      rw [classifyExtract_said eventId hcache hallowed hsaid] at h
      obtain ⟨row, hrow, rfl⟩ := map_eq_ok.mp h
      exact .asked hcache hallowed hsaid hrow

section Answered
variable {result : LLMResult} {answers : List (Except PyError LLMResult)}
  (hanswers : w.answers = .ok result :: answers)
include hanswers

theorem run_tryComplete :
    Program.run Op.handle ((some <$> Program.perform (Op.complete vendorId)).tryCatch fun _ => return none :
      Job (Option LLMResult)) w = (.ok (some result), w.asked vendorId result answers) := by
  have hcomplete : (Op.complete vendorId).handle w = (.ok result, w.asked vendorId result answers) := by
    rw [Op.handle, hanswers]
    rfl
  have hsome : Program.run Op.handle (some <$> Program.perform (Op.complete vendorId) : Job _) w =
      (.ok (some result), w.asked vendorId result answers) :=
    Program.run_perform_bind Op.handle hcomplete _
  rw [Program.run_tryCatch, hsome]

variable {rawEventType : String}
  (hmiss : w.db.llmCache.lookup (eventTypeCacheKey env vendorId rawEventType) = none)
  (hallowed : (Job.run (allow settings vendorId (2 / 10000)) w).1 = .ok true)
include hmiss hallowed

/-- What the provider says is parsed, and cached before it is read. -/
theorem run_classifyEventType_parsed {data : JsonObject} (hdata : parseJson env result.text = some data) :
    Program.run Op.handle (classifyEventType env settings vendorId rawEventType) w =
      Program.run Op.handle (Program.perform (Op.insertCache (eventTypeCacheKey env vendorId rawEventType)
          ⟨data, result.costEstimate⟩) >>= fun _ => .ofExcept (eventTypeAnswer env data))
        (w.asked vendorId result answers) := by
  rw [classifyEventType, Program.run_perform_bind Op.handle (by rw [Op.handle, hmiss])]
  simp only []
  rw [Program.run_bind, run_allow hallowed]
  simp only [ite_true]
  rw [Program.run_bind, run_tryComplete hanswers]
  simp only [hdata]

/-- What cannot be parsed is no answer. -/
theorem run_classifyEventType_unparsed (hdata : parseJson env result.text = none) :
    Program.run Op.handle (classifyEventType env settings vendorId rawEventType) w =
      (.ok none, w.asked vendorId result answers) := by
  rw [classifyEventType, Program.run_perform_bind Op.handle (by rw [Op.handle, hmiss])]
  simp only []
  rw [Program.run_bind, run_allow hallowed]
  simp only [ite_true]
  rw [Program.run_bind, run_tryComplete hanswers]
  simp only [hdata]
  rfl

end Answered

theorem run_eventTypeAnswer (data : JsonObject) (w : World) :
    Program.run Op.handle (.ofExcept (eventTypeAnswer env data) : Job _) w = (eventTypeAnswer env data, w) := by
  cases eventTypeAnswer env data with
  | ok answer => rfl
  | error e => rfl

/-- The classifier gives the answer it goes on with. -/
theorem classifyEventType_consulted {rawEventType : String} {data : JsonObject}
    (h : Consulted env settings w vendorId rawEventType data) :
    (Program.run Op.handle (classifyEventType env settings vendorId rawEventType) w).1 =
      eventTypeAnswer env data := by
  cases h with
  | cached hentry =>
    rw [classifyEventType, Program.run_perform_bind Op.handle (by rw [Op.handle, hentry])]
    exact congrArg Prod.fst (run_eventTypeAnswer _ w)
  | answered hmiss hallowed hanswers hdata hrow =>
    rw [run_classifyEventType_parsed hanswers hmiss hallowed hdata,
      Program.run_perform_bind Op.handle (by rw [Op.handle, hrow]), run_eventTypeAnswer]

/-- What the classifier hears is what it answers with. -/
theorem run_classifyEventType {rawEventType : String} {heard : Option JsonObject} {w' : World}
    (h : Hears env settings w vendorId rawEventType heard w') :
    Program.run Op.handle (classifyEventType env settings vendorId rawEventType) w = (heardAnswer env heard, w') := by
  cases h with
  | cached hentry =>
    rw [classifyEventType, Program.run_perform_bind Op.handle (by rw [Op.handle, hentry])]
    exact run_eventTypeAnswer _ w
  | denied hmiss hdenied =>
    rw [classifyEventType, Program.run_perform_bind Op.handle (by rw [Op.handle, hmiss])]
    simp only []
    rw [Program.run_bind, run_allow hdenied]
    rfl
  | unanswered hmiss hallowed hanswers =>
    rw [classifyEventType, Program.run_perform_bind Op.handle (by rw [Op.handle, hmiss])]
    simp only []
    rw [Program.run_bind, run_allow hallowed]
    simp only [ite_true]
    have hcomplete : ∃ e, (Op.complete vendorId).handle w = (.error e, ((Op.complete vendorId).handle w).2) := by
      rw [Op.handle]
      cases hall : w.answers with
      | nil => exact ⟨_, rfl⟩
      | cons answer answers =>
        cases answer with
        | error e => exact ⟨e, rfl⟩
        | ok result => exact absurd hall (hanswers result answers)
    obtain ⟨e, hcomplete⟩ := hcomplete
    have hsome : Program.run Op.handle (some <$> Program.perform (Op.complete vendorId) : Job _) w =
        (.error e, ((Op.complete vendorId).handle w).2) :=
      Program.run_map_of_error Op.handle ((Program.run_perform Op.handle _ w).trans hcomplete) some
    rw [Program.run_bind, Program.run_tryCatch, hsome]
    rfl
  | unparsed hmiss hallowed hanswers hdata => exact run_classifyEventType_unparsed hanswers hmiss hallowed hdata
  | answered hmiss hallowed hanswers hdata hrow =>
    rw [run_classifyEventType_parsed hanswers hmiss hallowed hdata,
      Program.run_perform_bind Op.handle (by rw [Op.handle, hrow])]
    exact run_eventTypeAnswer _ _

/-- The classifier hears something, or nothing, or raises. -/
theorem hears_or_raises (env : Externals) (settings : Settings) (w : World) (vendorId rawEventType : String) :
    (∃ heard w', Hears env settings w vendorId rawEventType heard w') ∨
      ∃ e, (Program.run Op.handle (classifyEventType env settings vendorId rawEventType) w).1 = .error e := by
  cases hcache : w.db.llmCache.lookup (eventTypeCacheKey env vendorId rawEventType) with
  | some entry => exact .inl ⟨_, _, .cached hcache⟩
  | none =>
    obtain ⟨allowed, hallowed⟩ := allow_returns settings w vendorId (2 / 10000)
    cases allowed with
    | false => exact .inl ⟨_, _, .denied hcache hallowed⟩
    | true =>
      by_cases hanswers : ∃ result answers, w.answers = .ok result :: answers
      · obtain ⟨result, answers, hanswers⟩ := hanswers
        cases hdata : parseJson env result.text with
        | none => exact .inl ⟨_, _, .unparsed hcache hallowed hanswers hdata⟩
        | some data =>
          cases hrow : CacheEntry.toRow ⟨data, result.costEstimate⟩ with
          | ok row => exact .inl ⟨_, _, .answered hcache hallowed hanswers hdata hrow⟩
          | error e =>
            refine .inr ⟨e, ?_⟩
            rw [run_classifyEventType_parsed hanswers hcache hallowed hdata,
              Program.run_perform_error Op.handle (by rw [Op.handle, hrow])]
      · refine .inl ⟨_, _, .unanswered hcache hallowed fun result answers h => ?_⟩
        exact hanswers ⟨result, answers, h⟩

/-- The orchestrator is sure of one answer at most. -/
theorem SureAnswer.unique {source source' : Source} {data data' : JsonObject}
    (h : SureAnswer env settings w vendorId payload source data)
    (h' : SureAnswer env settings w vendorId payload source' data') : source = source' ∧ data = data' := by
  obtain ⟨cost, hrun⟩ := @classifyExtract_sure _ _ _ _ "" _ _ _ h
  obtain ⟨cost', hrun'⟩ := @classifyExtract_sure _ _ _ _ "" _ _ _ h'
  have hsame := Except.ok.inj (hrun.symm.trans hrun')
  exact ⟨congrArg LLMOutcome.source hsame, congrArg LLMOutcome.data hsame⟩

end Answers

end WebhookIngestion
