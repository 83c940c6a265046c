import WebhookIngestion.Fallback

/-! # What asking the LLM can do

`process_event` reads and asks first, may learn a schema, and only then finalizes.  This
module says what the first of these changes (`Asks`, `Prepares`), and which answers a
step can go on with, cached or about to be given (`EventTypeOffered`, `Offered`). -/
namespace WebhookIngestion
open Tables Text Programs

/-! ### Asking -/

/-- Calls of the provider, among the marks of a run. -/
def Mark.isCall : Mark → Bool
  | .called .. => true
  | _ => false

/-- **What asking the LLM changes**: the cache, the audit table, and the answers left. -/
structure Asks (w w' : World) : Prop where
  db : w'.db = { w.db with llmCache := w'.db.llmCache, llmAudit := w'.db.llmAudit }
  answers : ∀ answer ∈ w'.answers, answer ∈ w.answers
  trace : ∃ calls : List Mark, w'.trace = calls ++ w.trace ∧ ∀ mark ∈ calls, mark.isCall = true

theorem Asks.refl (w : World) : Asks w w := ⟨rfl, fun _ h => h, [], rfl, nofun⟩

section Asks
variable {w w' : World} (h : Asks w w')
include h

theorem Asks.insertCache (cacheKey : String) (entry : CacheEntry) :
    Asks w ((Op.insertCache cacheKey entry).handle w').2 := by
  simp only [Op.handle]
  cases entry.toRow with
  | error e => exact h
  | ok row =>
    refine ⟨?_, h.answers, h.trace⟩
    simp only [Database.insertCache]
    cases w'.db.llmCache.lookup cacheKey with
    | some cached => exact h.db
    | none => rw [h.db]

theorem Asks.insertAudit (eventId : EventId) (source : Source) (cost : Rat) (decision : String) :
    Asks w ((Op.insertAudit eventId source cost decision).handle w').2 := by
  simp only [Op.handle]
  cases toNumeric 10 6 cost with
  | error e => exact h
  | ok costEstimate =>
    refine ⟨?_, h.answers, h.trace⟩
    simp only [Database.insertAudit]
    rw [h.db]

theorem Asks.complete (vendorId : String) : Asks w ((Op.complete vendorId).handle w').2 := by
  obtain ⟨calls, htrace, hcalls⟩ := h.trace
  have hmark : ∀ cost, ∀ mark ∈ Mark.called vendorId w'.today cost :: calls, mark.isCall = true := by
    rintro cost mark hm
    rcases List.mem_cons.mp hm with rfl | hm
    · rfl
    · exact hcalls mark hm
  simp only [Op.handle]
  cases hanswers : w'.answers with
  | nil => exact ⟨h.db, fun _ hm => (nomatch hm), _ :: calls, by rw [htrace]; rfl, hmark _⟩
  | cons answer answers =>
    have hrest : ∀ a ∈ answers, a ∈ w.answers := fun a hm =>
      h.answers a (hanswers ▸ List.mem_cons_of_mem _ hm)
    cases answer with
    | error e => exact ⟨h.db, hrest, _ :: calls, by rw [htrace]; rfl, hmark _⟩
    | ok result => exact ⟨h.db, hrest, _ :: calls, by rw [htrace]; rfl, hmark _⟩

end Asks

/-! ### Where answers come from -/

section Answers
variable (env : Externals) (settings : Settings)

/-- The answers for a raw event type that a step may go on with. -/
inductive EventTypeOffered (w : World) (vendorId rawEventType : String) : JsonObject → Prop
  | cached {entry : CacheEntry}
      (hentry : w.db.llmCache.lookup (eventTypeCacheKey env vendorId rawEventType) = some entry) :
      EventTypeOffered w vendorId rawEventType entry.output
  | answered {result : LLMResult} {data : JsonObject}
      (hmiss : w.db.llmCache.lookup (eventTypeCacheKey env vendorId rawEventType) = none)
      (hresult : .ok result ∈ w.answers) (hdata : parseJson env result.text = some data) :
      EventTypeOffered w vendorId rawEventType data

/-- The answer for a raw event type that the classifier goes on with: the cached one, else the
provider's next, if the guard lets it be asked and the answer can be cached. -/
inductive Consulted (w : World) (vendorId rawEventType : String) : JsonObject → Prop
  | cached {entry : CacheEntry}
      (hentry : w.db.llmCache.lookup (eventTypeCacheKey env vendorId rawEventType) = some entry) :
      Consulted w vendorId rawEventType entry.output
  | answered {result : LLMResult} {answers : List (Except PyError LLMResult)} {data : JsonObject} {row : CacheEntry}
      (hmiss : w.db.llmCache.lookup (eventTypeCacheKey env vendorId rawEventType) = none)
      (hallowed : (Job.run (allow settings vendorId (2 / 10000)) w).1 = .ok true)
      (hresult : w.answers = .ok result :: answers) (hdata : parseJson env result.text = some data)
      (hrow : CacheEntry.toRow ⟨data, result.costEstimate⟩ = .ok row) : Consulted w vendorId rawEventType data

variable {env settings} in
/-- The classifier goes on with an answer that is offered. -/
theorem Consulted.offered {w : World} {vendorId rawEventType : String} {data : JsonObject}
    (h : Consulted env settings w vendorId rawEventType data) :
    EventTypeOffered env w vendorId rawEventType data := by
  cases h with
  | cached hentry => exact .cached hentry
  | answered hmiss hallowed hresult hdata hrow =>
    exact .answered hmiss (hresult ▸ List.mem_cons_self) hdata

/-- **The answers for a payload that a step may go on with**, cached or about to be given. -/
inductive Offered (w : World) (vendorId : String) (payload : JsonObject) : Source → JsonObject → Prop
  | cached {entry : CacheEntry}
      (hentry : w.db.llmCache.lookup (extractCacheKey env settings vendorId payload) = some entry) :
      Offered w vendorId payload .llmCache entry.output
  /-- An answer that the classifier has cached a moment before under the same digest. -/
  | shared {rawEventType : String} {result : LLMResult} {data : JsonObject}
      (hkey : extractCacheKey env settings vendorId payload = eventTypeCacheKey env vendorId rawEventType)
      (hresult : .ok result ∈ w.answers) (hdata : parseJson env result.text = some data) :
      Offered w vendorId payload .llmCache data
  | answered {result : LLMResult} {data : JsonObject}
      (hmiss : w.db.llmCache.lookup (extractCacheKey env settings vendorId payload) = none)
      (hresult : .ok result ∈ w.answers) (hdata : parseAndValidate env result.text = .ok data) :
      Offered w vendorId payload .llm data

/-- A completion is one of the answers that were about to be given. -/
theorem complete_spec (w : World) (vendorId : String) :
    Program.Triple Op.handle (Asks w) (.perform (Op.complete vendorId)) fun r w' =>
      Asks w w' ∧ ∀ result, r = .ok result → .ok result ∈ w.answers := by
  refine .perform fun w' h => ⟨h.complete vendorId, fun result hr => h.answers _ ?_⟩
  simp only [Op.handle] at hr
  cases hanswers : w'.answers with
  | nil => simp only [hanswers, reduceCtorEq] at hr
  | cons answer answers =>
    cases answer with
    | error e => simp only [hanswers, reduceCtorEq] at hr
    | ok result' =>
      simp only [hanswers, Except.ok.injEq] at hr
      exact hr ▸ List.mem_cons_self

/-- An answer that an attempt accepts. -/
def Accepts (w : World) (r : Except PyError (LLMResult × JsonObject)) : Prop :=
  ∀ answer, r = .ok answer → .ok answer.1 ∈ w.answers ∧ parseAndValidate env answer.1.text = .ok answer.2

theorem attemptExtract_spec (w : World) (vendorHint : String) :
    Program.Triple Op.handle (Asks w) (attemptExtract env vendorHint) fun r w' =>
      Asks w w' ∧ Accepts env w r := by
  refine .bind (complete_spec w vendorHint) (fun result => ?_) fun e w' h => ⟨h.1, nofun⟩
  refine .bind (R := fun data w' => (Asks w w' ∧ .ok result ∈ w.answers) ∧
      parseAndValidate env result.text = data)
    (.ofExcept fun w' h => ⟨⟨h.1, h.2 result rfl⟩, rfl⟩) (fun data => .ret fun w' h => ⟨h.1.1, ?_⟩)
    fun e w' h => ⟨h.1.1, nofun⟩
  rintro answer ⟨⟩
  exact ⟨h.1.2, h.2⟩

theorem completeExtract_spec (w : World) (vendorHint : String) :
    Program.Triple Op.handle (Asks w) (completeExtract env vendorHint) fun r w' =>
      Asks w w' ∧ Accepts env w r := by
  refine .tryCatch (attemptExtract_spec env w vendorHint) (fun _ _ h => h) fun firstErr => ?_
  split
  · refine .tryCatch ((attemptExtract_spec env w vendorHint).weaken (fun _ h => h.1) fun _ _ h => h)
      (fun _ _ h => h) fun secondErr => ?_
    split
    · exact .raise fun w' h => ⟨h.1, nofun⟩
    · exact .raise fun w' h => ⟨h.1, nofun⟩
  · exact .raise fun w' h => ⟨h.1, nofun⟩

/-- **`classify_extract` asks, and answers with what was offered.** -/
theorem classifyExtract_spec (w : World) (eventId : EventId) (vendorHint : String)
    (payload : JsonObject) :
    Program.Triple Op.handle (fun w' => w' = w)
      (classifyExtract env settings eventId vendorHint payload) fun r w' =>
        Asks w w' ∧ ∀ outcome, r = .ok outcome →
          Offered env settings w vendorHint payload outcome.source outcome.data := by
  refine .bind (R := fun r w' => Asks w w' ∧
      r = .ok (w.db.llmCache.lookup (extractCacheKey env settings vendorHint payload)))
    (.perform fun w' h => ⟨h ▸ Asks.refl w, h ▸ rfl⟩) (fun cached => ?_) fun e w' h => nomatch h.2
  cases cached with
  | some cached =>
    refine .bind (R := fun _ w' => Asks w w' ∧
        w.db.llmCache.lookup (extractCacheKey env settings vendorHint payload) = some cached)
      (.perform fun w' h => ⟨h.1.insertAudit .., (Except.ok.inj h.2).symm⟩)
      (fun _ => .ret fun w' h => ⟨h.1, ?_⟩) fun e w' h => ⟨h.1, nofun⟩
    rintro outcome ⟨⟩
    exact .cached h.2
  | none =>
    refine .bind (R := fun _ w' => Asks w w' ∧
        w.db.llmCache.lookup (extractCacheKey env settings vendorHint payload) = none)
      (fun w' h => ⟨(allow_keeps settings _ vendorHint _).run h.1, (Except.ok.inj h.2).symm⟩)
      (fun allowed => ?_) fun e w' h => ⟨h.1, nofun⟩
    split
    · refine .bind (R := fun r w' => (Asks w w' ∧ Accepts env w r) ∧
          w.db.llmCache.lookup (extractCacheKey env settings vendorHint payload) = none)
        (fun w' h => ⟨completeExtract_spec env w vendorHint w' h.1, h.2⟩) (fun answer => ?_)
        fun e w' h => ⟨h.1.1, nofun⟩
      obtain ⟨llmResult, data⟩ := answer
      refine .bind (R := fun _ w' => Asks w w' ∧ Offered env settings w vendorHint payload .llm data)
        (.perform fun w' h => ⟨h.1.1.insertCache .., ?_⟩) (fun _ => ?_) fun e w' h => ⟨h.1, nofun⟩
      · obtain ⟨hresult, hdata⟩ := h.1.2 _ rfl
        exact .answered h.2 hresult hdata
      · refine .bind (R := fun _ w' => Asks w w' ∧ Offered env settings w vendorHint payload .llm data)
          (.perform fun w' h => ⟨h.1.insertAudit .., h.2⟩) (fun _ => .ret fun w' h => ⟨h.1, ?_⟩)
          fun e w' h => ⟨h.1, nofun⟩
        rintro outcome ⟨⟩
        exact h.2
    · exact .raise fun w' h => ⟨h.1, nofun⟩

/-! ### The classifier -/

/-- What the classifier leaves in the cache: every entry is an old one or what it was answered. -/
structure Caches (vendorId : String) (w : World) (cache : Table String CacheEntry) : Prop where
  kept : ∀ key entry, w.db.llmCache.lookup key = some entry → cache.lookup key = some entry
  new : ∀ key entry, cache.lookup key = some entry → w.db.llmCache.lookup key = some entry ∨
    (∃ rawEventType, key = eventTypeCacheKey env vendorId rawEventType) ∧
      ∃ result, .ok result ∈ w.answers ∧ parseJson env result.text = some entry.output

theorem Caches.refl (vendorId : String) (w : World) : Caches env vendorId w w.db.llmCache :=
  ⟨fun _ _ h => h, fun _ _ h => .inl h⟩

theorem Caches.insert {vendorId rawEventType : String} {w w' : World} {result : LLMResult}
    {entry : CacheEntry} (h : Caches env vendorId w w'.db.llmCache)
    (hresult : .ok result ∈ w.answers) (hdata : parseJson env result.text = some entry.output) :
    Caches env vendorId w
      ((Op.insertCache (eventTypeCacheKey env vendorId rawEventType) entry).handle w').2.db.llmCache := by
  simp only [Op.handle]
  cases hrow : entry.toRow with
  | error e => exact h
  | ok row =>
    have hout : row.output = entry.output := (CacheEntry.toRow_eq_ok.mp hrow).2.1
    simp only [Database.insertCache]
    cases hkey : w'.db.llmCache.lookup (eventTypeCacheKey env vendorId rawEventType) with
    | some cached => exact h
    | none =>
      refine ⟨fun key old hold => ?_, fun key new hnew => ?_⟩
      · have hkept := h.kept key old hold
        rw [lookup_insert_eq, if_neg]
        · exact hkept
        · rintro rfl
          rw [hkey] at hkept
          cases hkept
      · rw [lookup_insert_eq] at hnew
        split at hnew
        · cases hnew
          exact .inr ⟨⟨_, ‹_›⟩, result, hresult, hout ▸ hdata⟩
        · exact h.new key new hnew

/-- The world after the classifier has been asked. -/
structure Classifies (vendorId : String) (w w' : World) : Prop extends Asks w w' where
  cache : Caches env vendorId w w'.db.llmCache

theorem Classifies.refl (vendorId : String) (w : World) : Classifies env vendorId w w :=
  ⟨.refl w, .refl env vendorId w⟩

/-- The answer of the provider, if it gave one. -/
theorem tryComplete_spec (vendorId : String) (w : World) :
    Program.Triple Op.handle (fun w' => w' = w)
      ((some <$> Program.perform (Op.complete vendorId)).tryCatch fun _ => return none) fun r w' =>
        Classifies env vendorId w w' ∧
          ∀ result, r = .ok (some result) → ∃ answers, w.answers = .ok result :: answers := by
  have hcomplete : Program.Triple Op.handle (fun w' => w' = w) (.perform (Op.complete vendorId)) fun r w' =>
      Classifies env vendorId w w' ∧ ∀ result, r = .ok result → ∃ answers, w.answers = .ok result :: answers := by
    refine .perform ?_
    rintro w' rfl
    refine ⟨⟨(Asks.refl w').complete vendorId, ?_⟩, fun result hr => ?_⟩
    · simp only [Op.handle]
      split <;> exact .refl env vendorId w'
    · simp only [Op.handle] at hr
      cases hanswers : w'.answers with
      | nil => simp only [hanswers, reduceCtorEq] at hr
      | cons answer answers =>
        cases answer with
        | error e => simp only [hanswers, reduceCtorEq] at hr
        | ok result' =>
          simp only [hanswers, Except.ok.injEq] at hr
          exact ⟨answers, hr ▸ rfl⟩
  refine .tryCatch (R := fun r w' => Classifies env vendorId w w' ∧
    ∀ result, r = .ok (some result) → ∃ answers, w.answers = .ok result :: answers) ?_ (fun _ _ h => h) fun e =>
      .ret fun w' h => ⟨h.1, nofun⟩
  refine .bind hcomplete (fun result => .ret fun w' h => ⟨h.1, ?_⟩) fun e w' h => ⟨h.1, nofun⟩
  rintro result' ⟨⟩
  exact h.2 result rfl

/-- **`classify_event_type` asks, and answers with what it has consulted.** -/
theorem classifyEventType_spec (vendorId rawEventType : String) (w : World) :
    Program.Triple Op.handle (fun w' => w' = w)
      (classifyEventType env settings vendorId rawEventType) fun r w' =>
        Classifies env vendorId w w' ∧ ∀ answer, r = .ok (some answer) →
          ∃ data, Consulted env settings w vendorId rawEventType data ∧
            eventTypeAnswer env data = .ok (some answer) := by
  have hrefl := Classifies.refl env vendorId w
  refine .bind (R := fun r w' => w' = w ∧
      r = .ok (w.db.llmCache.lookup (eventTypeCacheKey env vendorId rawEventType)))
    (.perform fun w' h => ⟨h, h ▸ rfl⟩) (fun cached => ?_) fun e w' h => nomatch h.2
  cases cached with
  | some cached =>
    refine .ofExcept fun w' h => ⟨h.1 ▸ hrefl, fun answer hanswer => ⟨_, .cached ?_, hanswer⟩⟩
    exact (Except.ok.inj h.2).symm
  | none =>
    refine .bind (R := fun r w' => w' = w ∧ r = (Job.run (allow settings vendorId (2 / 10000)) w).1 ∧
        w.db.llmCache.lookup (eventTypeCacheKey env vendorId rawEventType) = none)
      (fun w' h => ?_) (fun allowed => ?_) fun e w' h => ⟨h.1 ▸ hrefl, nofun⟩
    · obtain ⟨rfl, hmiss⟩ := h
      exact ⟨(allow_keeps settings (· = w') vendorId _).run rfl, rfl, (Except.ok.inj hmiss).symm⟩
    split
    · rename_i hallowed
      subst hallowed
      refine .bind (R := fun r w' => (Classifies env vendorId w w' ∧
            ∀ result, r = .ok (some result) → ∃ answers, w.answers = .ok result :: answers) ∧
          (Job.run (allow settings vendorId (2 / 10000)) w).1 = .ok true ∧
          w.db.llmCache.lookup (eventTypeCacheKey env vendorId rawEventType) = none)
        (fun w' h => ⟨tryComplete_spec env vendorId w w' h.1, h.2.1.symm, h.2.2⟩) (fun answer => ?_)
        fun e w' h => ⟨h.1.1, nofun⟩
      cases answer with
      | none => exact .ret fun w' h => ⟨h.1.1, nofun⟩
      | some result =>
        dsimp only
        split
        · exact .ret fun w' h => ⟨h.1.1, nofun⟩
        · rename_i data hdata
          refine .bind (R := fun r w' => Classifies env vendorId w w' ∧
              (r = .ok () → Consulted env settings w vendorId rawEventType data))
            (.perform fun w' h => ?_) (fun _ => .ofExcept fun w' h => ⟨h.1, fun answer hanswer => ?_⟩)
            fun e w' h => ⟨h.1, nofun⟩
          · obtain ⟨⟨hclassifies, hresult⟩, hallowed, hmiss⟩ := h
            obtain ⟨answers, hanswers⟩ := hresult result rfl
            have hmem : .ok result ∈ w.answers := hanswers ▸ List.mem_cons_self
            refine ⟨⟨hclassifies.toAsks.insertCache .., hclassifies.cache.insert env hmem hdata⟩, fun hok => ?_⟩
            cases hrow : CacheEntry.toRow ⟨data, result.costEstimate⟩ with
            | ok row => exact .answered hmiss hallowed hanswers hdata hrow
            | error e =>
              simp only [Op.handle, hrow] at hok
              cases hok
          · exact ⟨data, h.2 rfl, hanswer⟩
    · exact .ret fun w' h => ⟨h.1 ▸ hrefl, nofun⟩

end Answers

/-! ### Preparing -/

/-- What a schema row says, its counts apart. -/
def VendorSchema.lesson (row : VendorSchema) : SchemaId × JsonObject × SchemaStatus :=
  (row.id, row.schemaDoc, row.status)

/-- **What a step changes before it learns or finalizes**: what asking changes, counts of
the schemas, and event types that had no mapping. -/
structure Prepares (w w' : World) : Prop where
  db : w'.db = { w.db with
    llmCache := w'.db.llmCache
    llmAudit := w'.db.llmAudit
    vendorSchemas := w'.db.vendorSchemas
    vendorEventTypeMap := w'.db.vendorEventTypeMap }
  schemas : ∀ key, (w'.db.vendorSchemas.lookup key).map VendorSchema.lesson =
    (w.db.vendorSchemas.lookup key).map VendorSchema.lesson
  eventTypes : ∀ key mapping, w.db.vendorEventTypeMap.lookup key = some mapping →
    w'.db.vendorEventTypeMap.lookup key = some mapping
  answers : ∀ answer ∈ w'.answers, answer ∈ w.answers
  trace : ∃ calls : List Mark, w'.trace = calls ++ w.trace ∧ ∀ mark ∈ calls, mark.isCall = true

theorem Asks.prepares {w w' : World} (h : Asks w w') : Prepares w w' := by
  have hschemas : w'.db.vendorSchemas = w.db.vendorSchemas := by rw [h.db]
  have htypes : w'.db.vendorEventTypeMap = w.db.vendorEventTypeMap := by rw [h.db]
  refine ⟨?_, fun key => by rw [hschemas], fun key mapping hkey => htypes ▸ hkey, h.answers, h.trace⟩
  rw [hschemas, htypes]
  exact h.db

theorem Prepares.trans {w w' w'' : World} (h : Prepares w w') (h' : Prepares w' w'') :
    Prepares w w'' := by
  obtain ⟨calls, htrace, hcalls⟩ := h.trace
  obtain ⟨calls', htrace', hcalls'⟩ := h'.trace
  refine ⟨?_, fun key => (h'.schemas key).trans (h.schemas key),
    fun key mapping hkey => h'.eventTypes key mapping (h.eventTypes key mapping hkey),
    fun answer hm => h.answers answer (h'.answers answer hm), calls' ++ calls, ?_, ?_⟩
  · rw [h'.db, h.db]
  · rw [htrace', htrace, List.append_assoc]
  · intro mark hm
    rcases List.mem_append.mp hm with hm | hm
    · exact hcalls' mark hm
    · exact hcalls mark hm

/-- Counting leaves the lessons. -/
theorem lesson_updateSchema (db : Database) (schemaId : SchemaId) {set : VendorSchema → VendorSchema}
    (hset : ∀ row, (set row).lesson = row.lesson) (key : SchemaKey) :
    ((db.updateSchema schemaId set).vendorSchemas.lookup key).map VendorSchema.lesson =
      (db.vendorSchemas.lookup key).map VendorSchema.lesson := by
  rw [Database.updateSchema, lookup_updateRows, Option.map_map]
  congr 1
  funext row
  by_cases hid : row.id = schemaId
  · simp only [Function.comp_apply, if_pos hid, hset]
  · simp only [Function.comp_apply, if_neg hid]

theorem prepares_incrementFailure (schemaId : SchemaId) (w : World) :
    Prepares w ((Op.incrementFailure schemaId).handle w).2 :=
  ⟨rfl, lesson_updateSchema w.db schemaId fun _ => rfl, fun _ _ h => h, fun _ h => h, [], rfl, nofun⟩

end WebhookIngestion
