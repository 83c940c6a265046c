import Mathlib.Data.List.Basic
import WebhookIngestion.Asking
import WebhookIngestion.CanonicalJson
import WebhookIngestion.Library.Delimited
import WebhookIngestion.Library.Runs

/-! # Runs of the LLM fallback

`classify_extract` validates what the provider says and not what the cache has, and
`classify_event_type` writes to the same cache without validating.  The keys keep the two
apart: what a call for a payload finds was written by one (`CacheSound`), and so it meets
its contract in every run of calls (`classifyExtract_contract`). -/
namespace WebhookIngestion
open Tables Text Programs Runs

/-! ### Numbers that are stored -/

/-- A number that its column stores as it is. -/
def Storable (cost : Rat) : Prop := toNumeric 10 6 cost = .ok cost

theorem roundNumeric_units (scale : Nat) (units : Int) :
    roundNumeric scale (units / 10 ^ scale) = units / 10 ^ scale := by
  have hpos : (10 : Rat) ^ scale ≠ 0 := pow_ne_zero _ (by decide +kernel)
  have hhalf : ((1 : Rat) / 2).floor = 0 := by decide +kernel
  have hunits : (units : Rat) / 10 ^ scale * 10 ^ scale = units := by
    rw [div_mul_cancel₀ _ hpos]
  simp only [roundNumeric, hunits]
  split
  · rw [sub_eq_add_neg, ← Int.cast_neg, Rat.floor_add_intCast, hhalf, zero_add, neg_neg]
  · rw [add_comm, Rat.floor_add_intCast, hhalf, zero_add]

/-- **A stored number is stored again as it is.** -/
theorem storable_of_toNumeric {cost stored : Rat} (h : toNumeric 10 6 cost = .ok stored) : Storable stored := by
  rw [toNumeric] at h
  split at h
  · rename_i hbound
    cases h
    obtain ⟨units, hunits⟩ : ∃ units : Int, roundNumeric 6 cost = units / 10 ^ 6 := ⟨_, rfl⟩
    have hsame : roundNumeric 6 (roundNumeric 6 cost) = roundNumeric 6 cost := by
      rw [hunits]
      exact roundNumeric_units 6 units
    rw [Storable, toNumeric, hsame, if_pos hbound]
  · cases h

/-! ### What a call for a payload can do -/

section Extract
variable (env : Externals) (settings : Settings)

/-- The provider was called so often at most, and nothing else has happened. -/
def CalledAtMost (n : Nat) (w w' : World) : Prop :=
  ∃ answers calls, w' = { w with answers, trace := calls ++ w.trace } ∧ calls.length ≤ n ∧
    ∀ mark ∈ calls, mark.isCall = true

theorem CalledAtMost.none (w : World) : CalledAtMost 0 w w := ⟨w.answers, [], rfl, Nat.le_refl 0, nofun⟩

theorem CalledAtMost.mono {n m : Nat} {w w' : World} (h : CalledAtMost n w w') (hle : n ≤ m) :
    CalledAtMost m w w' := by
  obtain ⟨answers, calls, hw, hlength, hcalls⟩ := h
  exact ⟨answers, calls, hw, hlength.trans hle, hcalls⟩

theorem CalledAtMost.complete {n : Nat} {w w' : World} (h : CalledAtMost n w w') (vendorId : String) :
    CalledAtMost (n + 1) w ((Op.complete vendorId).handle w').2 := by
  obtain ⟨answers, calls, rfl, hlength, hcalls⟩ := h
  have hmore : ∀ cost, ∀ mark ∈ Mark.called vendorId w.today cost :: calls, mark.isCall = true := by
    intro cost mark hm
    rcases List.mem_cons.mp hm with rfl | hm
    · rfl
    · exact hcalls mark hm
  rw [Op.handle]
  split
  · exact ⟨_, _ :: calls, rfl, Nat.succ_le_succ hlength, hmore _⟩
  · exact ⟨_, _ :: calls, rfl, Nat.succ_le_succ hlength, hmore _⟩
  · exact ⟨_, _ :: calls, rfl, Nat.succ_le_succ hlength, hmore _⟩

theorem matchesTarget_of_parse {text : String} {data : JsonObject}
    (h : parseAndValidate env text = .ok data) : matchesTarget data = true := by
  rw [parseAndValidate] at h
  split at h
  · cases h
  · split at h
    · cases h
      assumption
    · cases h
  · cases h

/-- An answer is validated before it is returned. -/
def ReturnsValid (r : Except PyError (LLMResult × JsonObject)) : Prop :=
  ∀ answer, r = .ok answer → matchesTarget answer.2 = true

theorem attemptExtract_calls {n : Nat} (w : World) (vendorHint : String) :
    Program.Triple Op.handle (CalledAtMost n w) (attemptExtract env vendorHint) fun r w' =>
      CalledAtMost (n + 1) w w' ∧ ReturnsValid r := by
  refine .bind (R := fun _ w' => CalledAtMost (n + 1) w w') (.perform fun w' h => h.complete vendorHint)
    (fun result => ?_) fun e w' h => ⟨h, nofun⟩
  refine .bind (R := fun data w' => CalledAtMost (n + 1) w w' ∧ parseAndValidate env result.text = data)
    (.ofExcept fun w' h => ⟨h, rfl⟩) (fun data => .ret fun w' h => ⟨h.1, ?_⟩) fun e w' h => ⟨h.1, nofun⟩
  rintro answer ⟨⟩
  exact matchesTarget_of_parse env h.2

/-- **A call and its retry ask the provider twice at most.** -/
theorem completeExtract_calls (w : World) (vendorHint : String) :
    Program.Triple Op.handle (fun w' => w' = w) (completeExtract env vendorHint) fun r w' =>
      CalledAtMost 2 w w' ∧ ReturnsValid r := by
  refine .tryCatch ((attemptExtract_calls env (n := 0) w vendorHint).weaken ?_ fun _ _ h => h)
    (fun answer w' h => ⟨h.1.mono (by omega), h.2⟩) fun firstErr => ?_
  · rintro w' rfl
    exact .none w'
  · split
    · refine .tryCatch ((attemptExtract_calls env (n := 1) w vendorHint).weaken (fun w' h => h.1) fun _ _ h => h)
        (fun _ _ h => h) fun secondErr => ?_
      split
      · exact .raise fun w' h => ⟨h.1, nofun⟩
      · exact .raise fun w' h => ⟨h.1, nofun⟩
    · exact .raise fun w' h => ⟨h.1.mono (by omega), nofun⟩

variable (w : World) (eventId : EventId) (vendorHint : String) (payload : JsonObject)

/-- **What `classify_extract` does**: it serves an answer from the cache, or it stops with
nothing stored, or it stores a valid answer. -/
inductive Serves : Except PyError LLMOutcome → World → Prop
  | hit {entry : CacheEntry}
      (hentry : w.db.llmCache.lookup (extractCacheKey env settings vendorHint payload) = some entry) :
      Serves (.ok ⟨entry.output, .llmCache, entry.costEstimate⟩)
        { w with db := w.db.insertAudit ⟨eventId, .llmCache, entry.costEstimate, vendorHint, w.today⟩ }
  | stopped {e : PyError} {w' : World}
      (hmiss : w.db.llmCache.lookup (extractCacheKey env settings vendorHint payload) = none)
      (hcalled : CalledAtMost 2 w w') : Serves (.error e) w'
  | answered {data : JsonObject} {cost stored : Rat} {w₁ : World}
      (hmiss : w.db.llmCache.lookup (extractCacheKey env settings vendorHint payload) = none)
      (hcalled : CalledAtMost 2 w w₁) (hvalid : matchesTarget data = true)
      (hcost : toNumeric 10 6 cost = .ok stored) :
      Serves (.ok ⟨data, .llm, cost⟩) { w₁ with db :=
        { w.db with llmCache := w.db.llmCache.insert (extractCacheKey env settings vendorHint payload)
                      ⟨data, stored⟩ }.insertAudit ⟨eventId, .llm, stored, vendorHint, w.today⟩ }

/-- Every cached cost is stored again as it is. -/
def CostsStorable (db : Database) : Prop :=
  ∀ key entry, db.llmCache.lookup key = some entry → Storable entry.costEstimate

variable {w}

theorem classifyExtract_serves (hcosts : CostsStorable w.db) :
    Program.Triple Op.handle (fun w' => w' = w) (classifyExtract env settings eventId vendorHint payload)
      (Serves env settings w eventId vendorHint payload) := by
  rintro w' rfl
  rw [classifyExtract]
  cases hentry : w'.db.llmCache.lookup (extractCacheKey env settings vendorHint payload) with
  | some entry =>
    rw [Program.run_perform_bind Op.handle (by rw [Op.handle, hentry])]
    have hcost : toNumeric 10 6 entry.costEstimate = .ok entry.costEstimate := hcosts _ entry hentry
    have haudit : (Op.insertAudit eventId .llmCache entry.costEstimate vendorHint).handle w' = (.ok (), { w' with
        db := w'.db.insertAudit ⟨eventId, .llmCache, entry.costEstimate, vendorHint, w'.today⟩ }) := by
      rw [Op.handle, hcost]
    simp only []
    rw [Program.run_perform_bind Op.handle haudit]
    exact .hit hentry
  | none =>
    rw [Program.run_perform_bind Op.handle (by rw [Op.handle, hentry])]
    have huncalled : ∀ {w''}, w'' = w' → CalledAtMost 2 w' w'' := by
      rintro w'' rfl
      exact (CalledAtMost.none w'').mono (by omega)
    refine Program.Triple.bind (R := fun _ w'' => w'' = w') (Q := Serves env settings w' eventId vendorHint payload)
      (fun w'' h => (allow_keeps settings (· = w') vendorHint _).run h) (fun allowed => ?_) (fun e w'' h => ?_) w' rfl
    · split
      · refine .bind (completeExtract_calls env w' vendorHint) (fun answer => ?_) fun e w'' h => .stopped hentry h.1
        obtain ⟨llmResult, data⟩ := answer
        rintro w'' ⟨hcalled, hvalid⟩
        cases hrow : CacheEntry.toRow ⟨data, llmResult.costEstimate⟩ with
        | error e =>
          -- what cannot be stored is not returned
          have hcache : (Op.insertCache (extractCacheKey env settings vendorHint payload)
              ⟨data, llmResult.costEstimate⟩).handle w'' = (.error e, w'') := by
            rw [Op.handle, hrow]
          simp only []
          rw [Program.run_perform_error Op.handle hcache]
          exact .stopped hentry hcalled
        | ok row =>
          obtain ⟨output, stored⟩ := row
          obtain ⟨-, hout, hcost⟩ := CacheEntry.toRow_eq_ok.mp hrow
          obtain rfl : output = data := hout
          have hanswered : Serves env settings w' eventId vendorHint payload _ _ :=
            .answered hentry hcalled (hvalid _ rfl) hcost
          obtain ⟨answers, calls, rfl, hlength, hcalls⟩ := hcalled
          have hcache : (Op.insertCache (extractCacheKey env settings vendorHint payload)
              ⟨output, llmResult.costEstimate⟩).handle { w' with answers, trace := calls ++ w'.trace } =
              (.ok (), { w' with
                db := { w'.db with llmCache :=
                  w'.db.llmCache.insert (extractCacheKey env settings vendorHint payload) ⟨output, stored⟩ }
                answers, trace := calls ++ w'.trace }) := by
            simp only [Op.handle, hrow, Database.insertCache, hentry]
          simp only []
          rw [Program.run_perform_bind Op.handle hcache, Program.run_perform_bind Op.handle
            (by rw [Op.handle, hcost])]
          exact hanswered
      · exact .raise fun w'' h => .stopped hentry (huncalled h)
    · exact .stopped hentry (huncalled h)

end Extract

/-! ### What a call leaves in the cache -/

/-- A call adds to the cache at most an entry under its key; nothing that is there is replaced. -/
structure CacheGrows (key : String) (valid : JsonObject → Prop) (db db' : Database) : Prop where
  kept : ∀ key' entry, db.llmCache.lookup key' = some entry → db'.llmCache.lookup key' = some entry
  new : ∀ key' entry, db'.llmCache.lookup key' = some entry → db.llmCache.lookup key' = some entry ∨
    key' = key ∧ valid entry.output ∧ Storable entry.costEstimate

theorem CacheGrows.same {key : String} {valid : JsonObject → Prop} {db db' : Database}
    (h : db'.llmCache = db.llmCache) : CacheGrows key valid db db' :=
  ⟨fun _ _ hold => h ▸ hold, fun _ _ hnew => .inl (h ▸ hnew)⟩

theorem CacheGrows.insert {key : String} {valid : JsonObject → Prop} {db db' : Database} {entry : CacheEntry}
    (hmiss : db.llmCache.lookup key = none) (hvalid : valid entry.output) (hcost : Storable entry.costEstimate)
    (h : db'.llmCache = db.llmCache.insert key entry) : CacheGrows key valid db db' := by
  constructor
  · intro key' entry' hold
    rw [h, lookup_insert_eq, if_neg]
    · exact hold
    · rintro rfl
      rw [hmiss] at hold
      cases hold
  · intro key' entry' hnew
    rw [h, lookup_insert_eq] at hnew
    split at hnew
    · cases hnew
      exact .inr ⟨‹_›, hvalid, hcost⟩
    · exact .inl hnew

theorem CacheGrows.trans {key : String} {valid : JsonObject → Prop} {db db' db'' : Database}
    (h : CacheGrows key valid db db') (h' : CacheGrows key valid db' db'') : CacheGrows key valid db db'' := by
  refine ⟨fun key' entry hold => h'.kept key' entry (h.kept key' entry hold), fun key' entry hnew => ?_⟩
  rcases h'.new key' entry hnew with hbefore | hnew
  · exact h.new key' entry hbefore
  · exact .inr hnew

theorem CacheGrows.mono {key : String} {valid valid' : JsonObject → Prop} {db db' : Database}
    (h : CacheGrows key valid db db') (himp : ∀ data, valid data → valid' data) : CacheGrows key valid' db db' := by
  refine ⟨h.kept, fun key' entry hnew => ?_⟩
  rcases h.new key' entry hnew with hold | ⟨hkey, hvalid, hcost⟩
  · exact .inl hold
  · exact .inr ⟨hkey, himp _ hvalid, hcost⟩

section Calls
variable (env : Externals) (settings : Settings)

theorem Serves.cacheGrows {w w' : World} {eventId : EventId} {vendorHint : String} {payload : JsonObject}
    {r : Except PyError LLMOutcome} (h : Serves env settings w eventId vendorHint payload r w') :
    CacheGrows (extractCacheKey env settings vendorHint payload) (fun data => matchesTarget data = true)
      w.db w'.db := by
  cases h with
  | hit hentry => exact .same rfl
  | stopped hmiss hcalled =>
    obtain ⟨answers, calls, rfl, -, -⟩ := hcalled
    exact .same rfl
  | answered hmiss hcalled hvalid hcost => exact .insert hmiss hvalid (storable_of_toNumeric hcost) rfl

/-- **The classifier adds what it was told, unvalidated, under its own key.** -/
theorem classifyEventType_cacheGrows (vendorId rawEventType : String) (w : World) :
    CacheGrows (eventTypeCacheKey env vendorId rawEventType) (fun _ => True) w.db
      (Job.run (classifyEventType env settings vendorId rawEventType) w).2.db := by
  have hkeeps : Program.Keeps Op.handle (fun w' : World =>
      CacheGrows (eventTypeCacheKey env vendorId rawEventType) (fun _ => True) w.db w'.db)
      (classifyEventType env settings vendorId rawEventType) := by
    refine .bind (.perform fun w' h => h) fun cached => ?_
    cases cached with
    | some cached => exact .ofExcept _
    | none =>
      refine .bind (allow_keeps settings _ vendorId _) fun allowed => ?_
      split
      · have hcomplete : ∀ w' : World, ((Op.complete vendorId).handle w').2.db = w'.db := by
          intro w'
          rw [Op.handle]
          split <;> rfl
        refine .bind (.tryCatch (.bind (.perform fun w' h => ?_) fun _ => .ret _) fun _ => .ret _) fun answer => ?_
        · rw [hcomplete]
          exact h
        · cases answer with
          | none => exact .ret _
          | some result =>
            dsimp only
            split
            · exact .ret _
            · refine .bind (.perform fun w' h => ?_) fun _ => .ofExcept _
              rw [Op.handle]
              split
              · rename_i row hrow
                have hcost := (CacheEntry.toRow_eq_ok.mp hrow).2.2
                cases hkey : w'.db.llmCache.lookup (eventTypeCacheKey env vendorId rawEventType) with
                | some cached =>
                  rw [Database.insertCache, hkey]
                  exact h
                | none =>
                  rw [Database.insertCache, hkey]
                  exact h.trans (.insert hkey trivial (storable_of_toNumeric hcost) rfl)
              · exact h
      · exact .ret _
  exact hkeeps.run (.same rfl)

/-! ### Calls and their keys -/

/-- A call of the fallback. -/
inductive FallbackCall where
  | classifyExtract (eventId : EventId) (vendorHint : String) (payload : JsonObject)
  | classifyEventType (vendorId rawEventType : String)

/-- What the cache key of a call is the digest of. -/
def FallbackCall.question : FallbackCall → Bytes
  | .classifyExtract _ vendorHint payload =>
    joinBytes recordSep ([encode settings.promptVersion, canonicalJson env (.obj payload),
      encode settings.targetSchemaVersion] ++ optionalPart (some vendorHint))
  | .classifyEventType vendorId rawEventType =>
    joinBytes recordSep [encode "classify_event_type_v1", encode vendorId, encode rawEventType]

/-- The cache key of a call. -/
def FallbackCall.key (call : FallbackCall) : String := (env.sha256 (call.question env settings)).text

example (eventId : EventId) (vendorHint : String) (payload : JsonObject) :
    (FallbackCall.classifyExtract eventId vendorHint payload).key env settings =
      extractCacheKey env settings vendorHint payload := rfl

/-- What comes before the first separator. -/
theorem first_of_append {sep : UInt8} {first first' rest rest' : Bytes} (hfirst : sep ∉ first)
    (hfirst' : sep ∉ first') (h : first ++ sep :: rest = first' ++ sep :: rest') : first = first' := by
  have hall : ∀ part : Bytes, sep ∉ part → ∀ byte ∈ part, decide (byte ≠ sep) = true := by
    intro part hpart byte hmem
    rw [decide_eq_true_iff]
    rintro rfl
    exact hpart hmem
  have hstops : ∀ rest : Bytes, Delimited.Stops (fun byte => decide (byte ≠ sep)) (sep :: rest) :=
    Delimited.Stops.cons (by simp)
  exact (Delimited.append_inj (hall first hfirst) (hall first' hfirst') (hstops rest) (hstops rest') h).1

/-- **The two kinds of calls ask different questions.** -/
theorem question_ne {env : Externals} {settings : Settings}
    (hprompt : settings.promptVersion ≠ "classify_event_type_v1")
    (hsep : recordSep ∉ encode settings.promptVersion) (eventId : EventId) (vendorHint : String)
    (payload : JsonObject) (vendorId rawEventType : String) :
    (FallbackCall.classifyExtract eventId vendorHint payload).question env settings ≠
      (FallbackCall.classifyEventType vendorId rawEventType).question env settings := by
  intro h
  have hfirst : recordSep ∉ encode "classify_event_type_v1" := by decide +kernel
  simp only [FallbackCall.question, List.cons_append, joinBytes] at h
  exact hprompt (encode_inj.mp (first_of_append hsep hfirst h))

/-- No two calls with different questions have one digest. -/
def NoCollision (calls : List FallbackCall) : Prop :=
  ∀ call ∈ calls, ∀ call' ∈ calls, call.key env settings = call'.key env settings →
    call.question env settings = call'.question env settings

/-! ### Runs of calls -/

/-- A call, on a day, with the answers the provider will give. -/
structure Ask where
  call : FallbackCall
  day : Nat
  answers : List (Except PyError LLMResult)

/-- One call of the fallback. -/
def ask (w : World) (a : Ask) : World :=
  match a.call with
  | .classifyExtract eventId vendorHint payload =>
    (Job.run (classifyExtract env settings eventId vendorHint payload) (w.facing a.day a.answers)).2
  | .classifyEventType vendorId rawEventType =>
    (Job.run (classifyEventType env settings vendorId rawEventType) (w.facing a.day a.answers)).2

/-- **What the cache has** was written by the calls so far, each under its key; what calls for
payloads have written is valid. -/
structure CacheSound (calls : List FallbackCall) (db : Database) : Prop where
  origin : ∀ key entry, db.llmCache.lookup key = some entry →
    (∃ vendorId rawEventType, .classifyEventType vendorId rawEventType ∈ calls ∧
      key = (FallbackCall.classifyEventType vendorId rawEventType).key env settings) ∨
    matchesTarget entry.output = true
  costs : CostsStorable db

theorem cacheSound_start : CacheSound env settings [] World.start.db :=
  ⟨fun key entry h => by simp [World.start, Database.empty] at h,
    fun key entry h => by simp [World.start, Database.empty] at h⟩

variable {env settings} {calls : List FallbackCall} {w : World}

/-- A call keeps every entry, and adds none but its own. -/
theorem ask_cacheGrows (hcosts : CostsStorable w.db) (a : Ask) :
    CacheGrows (a.call.key env settings) (fun data =>
      (∃ vendorId rawEventType, a.call = .classifyEventType vendorId rawEventType) ∨ matchesTarget data = true)
      w.db (ask env settings w a).db := by
  obtain ⟨call, day, answers⟩ := a
  cases call with
  | classifyExtract eventId vendorHint payload =>
    have hserves := classifyExtract_serves env settings eventId vendorHint payload
      (w := w.facing day answers) hcosts _ rfl
    exact hserves.cacheGrows.mono fun data h => .inr h
  | classifyEventType vendorId rawEventType =>
    exact (classifyEventType_cacheGrows env settings vendorId rawEventType (w.facing day answers)).mono
      fun data _ => .inl ⟨vendorId, rawEventType, rfl⟩

theorem cacheSound_ask (h : CacheSound env settings calls w.db) (a : Ask) :
    CacheSound env settings (a.call :: calls) (ask env settings w a).db := by
  have hgrows : CacheGrows _ _ w.db (ask env settings w a).db := ask_cacheGrows h.costs a
  constructor
  · intro key entry hentry
    rcases hgrows.new key entry hentry with hold | ⟨rfl, hvalid, -⟩
    · rcases h.origin key entry hold with ⟨vendorId, rawEventType, hm, hkey⟩ | hvalid
      · exact .inl ⟨vendorId, rawEventType, List.mem_cons_of_mem _ hm, hkey⟩
      · exact .inr hvalid
    · rcases hvalid with ⟨vendorId, rawEventType, hcall⟩ | hvalid
      · exact .inl ⟨vendorId, rawEventType, hcall ▸ List.mem_cons_self, hcall ▸ rfl⟩
      · exact .inr hvalid
  · intro key entry hentry
    rcases hgrows.new key entry hentry with hold | ⟨-, -, hcost⟩
    · exact h.costs key entry hold
    · exact hcost

/-- Entries stay through a run of calls. -/
theorem cacheSound_asks (h : CacheSound env settings calls w.db) (asks : List Ask) :
    CacheSound env settings ((asks.map Ask.call).reverse ++ calls) (asks.foldl (ask env settings) w).db ∧
      ∀ key entry, w.db.llmCache.lookup key = some entry →
        (asks.foldl (ask env settings) w).db.llmCache.lookup key = some entry := by
  induction asks generalizing w calls with
  | nil => exact ⟨h, fun _ _ hold => hold⟩
  | cons a asks ih =>
    obtain ⟨hsound, hkept⟩ := ih (cacheSound_ask h a)
    rw [List.map_cons, List.reverse_cons, List.append_assoc]
    exact ⟨hsound, fun key entry hold => hkept key entry ((ask_cacheGrows h.costs a).kept key entry hold)⟩

/-! ### The contract -/

variable (env) in
/-- Canonical JSON does not depend on the order of keys, in the payloads of some calls. -/
def SortsKeys (calls : List FallbackCall) : Prop :=
  ∀ eventId vendorHint payload, .classifyExtract eventId vendorHint payload ∈ calls →
    ∀ eventId' vendorHint' payload', .classifyExtract eventId' vendorHint' payload' ∈ calls →
      (Json.obj payload).Reordered (.obj payload') → env.dumps (.obj payload) = env.dumps (.obj payload')

variable (env settings) in
/-- **The contract of `classify_extract`** in a state of the cache. -/
structure ExtractContract (w : World) (eventId : EventId) (vendorHint : String) (payload : JsonObject)
    (r : Except PyError LLMOutcome) (w' : World) : Prop where
  valid : ∀ outcome, r = .ok outcome → matchesTarget outcome.data = true
  hit : (w.db.llmCache.lookup (extractCacheKey env settings vendorHint payload)).isSome → w'.trace = w.trace
  calls : ∃ calls, w'.trace = calls ++ w.trace ∧ calls.length ≤ 2 ∧ ∀ mark ∈ calls, mark.isCall = true
  audited : ∀ outcome, r = .ok outcome → ∃ row, w'.db.llmAudit = row :: w.db.llmAudit
  unchanged : ∀ e, r = .error e → e = .llmValidationError ∨ e = .budgetExceeded →
    w'.db.llmCache = w.db.llmCache ∧ w'.db.llmAudit = w.db.llmAudit

theorem Serves.contract {w w' : World} {eventId : EventId} {vendorHint : String} {payload : JsonObject}
    {r : Except PyError LLMOutcome} (h : Serves env settings w eventId vendorHint payload r w')
    (hcached : ∀ entry, w.db.llmCache.lookup (extractCacheKey env settings vendorHint payload) = some entry →
      matchesTarget entry.output = true) :
    ExtractContract env settings w eventId vendorHint payload r w' := by
  cases h with
  | hit hentry =>
    refine ⟨?_, fun _ => rfl, ⟨[], rfl, by decide, nofun⟩, fun _ _ => ⟨_, rfl⟩, nofun⟩
    rintro outcome ⟨⟩
    exact hcached _ hentry
  | stopped hmiss hcalled =>
    obtain ⟨answers, calls, rfl, hlength, hcalls⟩ := hcalled
    refine ⟨nofun, fun hsome => ?_, ⟨calls, rfl, hlength, hcalls⟩, nofun, fun _ _ _ => ⟨rfl, rfl⟩⟩
    rw [hmiss] at hsome
    cases hsome
  | answered hmiss hcalled hvalid hcost =>
    obtain ⟨answers, calls, rfl, hlength, hcalls⟩ := hcalled
    refine ⟨?_, fun hsome => ?_, ⟨calls, rfl, hlength, hcalls⟩, fun _ _ => ⟨_, rfl⟩, nofun⟩
    · rintro outcome ⟨⟩
      exact hvalid
    · rw [hmiss] at hsome
      cases hsome

/-- What a call has returned is cached under its key. -/
theorem Serves.cached {w w' : World} {eventId : EventId} {vendorHint : String} {payload : JsonObject}
    {outcome : LLMOutcome} (h : Serves env settings w eventId vendorHint payload (.ok outcome) w') :
    ∃ entry, w'.db.llmCache.lookup (extractCacheKey env settings vendorHint payload) = some entry ∧
      entry.output = outcome.data := by
  cases h with
  | hit hentry => exact ⟨_, hentry, rfl⟩
  | answered hmiss hcalled hvalid hcost => exact ⟨_, AList.lookup_insert _, rfl⟩

/-- What is cached is served. -/
theorem Serves.of_cached {w w' : World} {eventId : EventId} {vendorHint : String} {payload : JsonObject}
    {r : Except PyError LLMOutcome} (h : Serves env settings w eventId vendorHint payload r w') {entry : CacheEntry}
    (hentry : w.db.llmCache.lookup (extractCacheKey env settings vendorHint payload) = some entry) :
    ∃ outcome, r = .ok outcome ∧ outcome.data = entry.output ∧ w'.trace = w.trace := by
  cases h with
  | hit hentry' =>
    cases hentry.symm.trans hentry'
    exact ⟨_, rfl, rfl, rfl⟩
  | stopped hmiss => cases hmiss.symm.trans hentry
  | answered hmiss => cases hmiss.symm.trans hentry

variable (env settings) in
/-- The world in which a call of a run is made. -/
def facingAfter (before : List Ask) (day : Nat) (answers : List (Except PyError LLMResult)) : World :=
  (before.foldl (ask env settings) World.start).facing day answers

/-- What a call for a payload finds was written by a call for a payload. -/
theorem valid_of_cached (hprompt : settings.promptVersion ≠ "classify_event_type_v1")
    (hsep : recordSep ∉ encode settings.promptVersion) (h : CacheSound env settings calls w.db)
    {all : List FallbackCall} (hcollision : NoCollision env settings all) (hpast : ∀ call ∈ calls, call ∈ all)
    {eventId : EventId} {vendorHint : String} {payload : JsonObject}
    (hcall : .classifyExtract eventId vendorHint payload ∈ all) {entry : CacheEntry}
    (hentry : w.db.llmCache.lookup (extractCacheKey env settings vendorHint payload) = some entry) :
    matchesTarget entry.output = true := by
  rcases h.origin _ entry hentry with ⟨vendorId, rawEventType, hm, hkey⟩ | hvalid
  · exact absurd (hcollision _ hcall _ (hpast _ hm) hkey) 
      (question_ne hprompt hsep eventId vendorHint payload vendorId rawEventType)
  · exact hvalid

/-- **`classify_extract` meets its contract in every run of calls**, and once it has succeeded
for a payload and a vendor hint it serves the same answer again without asking. -/
theorem classifyExtract_contract (hprompt : settings.promptVersion ≠ "classify_event_type_v1")
    (hsep : recordSep ∉ encode settings.promptVersion) {asks : List Ask}
    (hcollision : NoCollision env settings (asks.map Ask.call))
    (hsorts : SortsKeys env (asks.map Ask.call)) {before after : List Ask} {eventId : EventId}
    {vendorHint : String} {payload : JsonObject} {day : Nat} {answers : List (Except PyError LLMResult)}
    (hasks : asks = before ++ ⟨.classifyExtract eventId vendorHint payload, day, answers⟩ :: after) :
    let w := facingAfter env settings before day answers
    let step := Job.run (classifyExtract env settings eventId vendorHint payload) w
    ExtractContract env settings w eventId vendorHint payload step.1 step.2 ∧
      ∀ outcome, step.1 = .ok outcome →
        ∀ middle eventId' payload' day' answers' rest,
          after = middle ++ ⟨.classifyExtract eventId' vendorHint payload', day', answers'⟩ :: rest →
            (Json.obj payload).Reordered (.obj payload') →
              let w' := facingAfter env settings
                (before ++ ⟨.classifyExtract eventId vendorHint payload, day, answers⟩ :: middle) day' answers'
              let step' := Job.run (classifyExtract env settings eventId' vendorHint payload') w'
              (∃ outcome', step'.1 = .ok outcome' ∧ outcome'.data = outcome.data) ∧ step'.2.trace = w'.trace := by
  intro w step
  have hbefore := (cacheSound_asks (cacheSound_start env settings) before).1
  rw [List.append_nil] at hbefore
  have hserves := classifyExtract_serves env settings eventId vendorHint payload (w := w) hbefore.costs w rfl
  have hcall : .classifyExtract eventId vendorHint payload ∈ asks.map Ask.call := by
    rw [hasks, List.map_append]
    exact List.mem_append_right _ List.mem_cons_self
  refine ⟨hserves.contract fun entry hentry => ?_, ?_⟩
  · refine valid_of_cached hprompt hsep hbefore hcollision (fun call hm => ?_) hcall hentry
    rw [hasks, List.map_append]
    exact List.mem_append_left _ (List.mem_reverse.mp hm)
  · rintro outcome houtcome middle eventId' payload' day' answers' rest rfl hreordered w' step'
    have hserves' : Serves env settings w eventId vendorHint payload (.ok outcome) step.2 := houtcome ▸ hserves
    obtain ⟨entry, hentry, hdata⟩ := hserves'.cached
    have hcall' : .classifyExtract eventId' vendorHint payload' ∈ asks.map Ask.call := by
      rw [hasks, List.map_append, List.map_cons, List.map_append, List.map_cons]
      exact List.mem_append_right _ (List.mem_cons_of_mem _ (List.mem_append_right _ List.mem_cons_self))
    have hkey : extractCacheKey env settings vendorHint payload' = extractCacheKey env settings vendorHint payload := by
      rw [extractCacheKey, extractCacheKey, llmCacheKey, llmCacheKey, canonicalJson, canonicalJson,
        hsorts _ _ _ hcall _ _ _ hcall' hreordered]
    -- the entry is still there, whatever was called in between
    obtain ⟨hsound, hkept⟩ := cacheSound_asks
      (cacheSound_ask hbefore ⟨.classifyExtract eventId vendorHint payload, day, answers⟩) middle
    have hlast : w' = World.facing (middle.foldl (ask env settings) (ask env settings
        (before.foldl (ask env settings) World.start) ⟨.classifyExtract eventId vendorHint payload, day, answers⟩))
        day' answers' := by
      simp only [w', facingAfter, List.foldl_append, List.foldl_cons]
    have hstored : w'.db.llmCache.lookup (extractCacheKey env settings vendorHint payload') = some entry := by
      rw [hlast, hkey]
      exact hkept _ entry hentry
    have hagain := classifyExtract_serves env settings eventId' vendorHint payload' (w := w')
      (by rw [hlast]; exact hsound.costs) w' rfl
    obtain ⟨outcome', hr, hsame, htrace⟩ := hagain.of_cached hstored
    exact ⟨⟨outcome', hr, hsame.trans hdata⟩, htrace⟩

end Calls

/-- The invoice is asked about, then its type, then the invoice again. -/
def issuedAsks : List Ask :=
  [⟨.classifyExtract "e1" "globalfreightpay" (issuedPayload "INV-1" "2026-04-28T05:00:00Z"), 1,
      [.ok ⟨answerText ["issued"], 1 / 1000⟩]⟩,
    ⟨.classifyEventType "globalfreightpay" "issued", 1, []⟩,
    ⟨.classifyExtract "e2" "globalfreightpay" (issuedPayload "INV-1" "2026-04-28T05:00:00Z"), 2, []⟩]

/-- The first of the calls calls the provider once and is audited; the last one gets its answer from the
cache, without a call. -/
theorem issuedAsks_contract :
    let w := facingAfter april28Runtime .defaults [] 1 [.ok ⟨answerText ["issued"], 1 / 1000⟩]
    let first := Job.run (classifyExtract april28Runtime .defaults "e1" "globalfreightpay"
      (issuedPayload "INV-1" "2026-04-28T05:00:00Z")) w
    let w' := facingAfter april28Runtime .defaults (issuedAsks.take 2) 2 []
    let last := Job.run (classifyExtract april28Runtime .defaults "e2" "globalfreightpay"
      (issuedPayload "INV-1" "2026-04-28T05:00:00Z")) w'
    ∃ outcome, first.1 = .ok outcome ∧
      ExtractContract april28Runtime .defaults w "e1" "globalfreightpay"
        (issuedPayload "INV-1" "2026-04-28T05:00:00Z") first.1 first.2 ∧
      (∃ row, first.2.db.llmAudit = row :: w.db.llmAudit) ∧
      (∃ outcome', last.1 = .ok outcome' ∧ outcome'.data = outcome.data) ∧ last.2.trace = w'.trace := by
  intro w first w' last
  have hcollision : NoCollision april28Runtime .defaults (issuedAsks.map Ask.call) := by
    rw [NoCollision]
    decide +kernel
  have hsorts : SortsKeys april28Runtime (issuedAsks.map Ask.call) := by
    intro eventId vendorHint payload hm eventId' vendorHint' payload' hm' _
    have hpayload : ∀ {eventId vendorHint payload}, .classifyExtract eventId vendorHint payload ∈
        issuedAsks.map Ask.call → payload = issuedPayload "INV-1" "2026-04-28T05:00:00Z" := by
      intro eventId vendorHint payload hm
      simp only [issuedAsks, List.map_cons, List.map_nil, List.mem_cons, FallbackCall.classifyExtract.injEq,
        reduceCtorEq, List.not_mem_nil, false_or, or_false] at hm
      rcases hm with ⟨-, -, rfl⟩ | ⟨-, -, rfl⟩ <;> rfl
    rw [hpayload hm, hpayload hm']
  have hasks : issuedAsks = [] ++ ⟨.classifyExtract "e1" "globalfreightpay"
      (issuedPayload "INV-1" "2026-04-28T05:00:00Z"), 1, [.ok ⟨answerText ["issued"], 1 / 1000⟩]⟩ ::
        issuedAsks.tail := rfl
  obtain ⟨hcontract, hagain⟩ := classifyExtract_contract (by decide) (by decide +kernel) hcollision hsorts hasks
  have hreturns : (first.1.toOption).isSome = true := by decide +kernel
  cases hfirst : first.1 with
  | error e =>
    rw [hfirst] at hreturns
    cases hreturns
  | ok outcome =>
    obtain ⟨hanswer, htrace⟩ := hagain outcome hfirst
      [⟨.classifyEventType "globalfreightpay" "issued", 1, []⟩] "e2" _ 2 [] [] rfl (.refl _)
    exact ⟨outcome, rfl, hfirst ▸ hcontract, hcontract.audited outcome hfirst, hanswer, htrace⟩

end WebhookIngestion
