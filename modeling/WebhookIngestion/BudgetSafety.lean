import WebhookIngestion.Fallback
import Mathlib.Algebra.Order.Ring.Rat
import Mathlib.Tactic.Linarith

/-! # The daily budgets

The guard reads the audit table, the provider is paid for completions.  The budgets
hold as far as every completion that costs something leaves an audit row with at
least that cost, which accepted extractions do that can be stored, and the other completions do not. -/
namespace WebhookIngestion
open Tables Programs

/-! ### What was received -/

/-- The cost of a completion received that day on behalf of a vendor that passes a test. -/
def Mark.cost (day : Nat) (test : String → Bool) : Mark → Rat
  | .called vendorId d (some cost) => if d = day ∧ test vendorId then cost else 0
  | _ => 0

/-- The costs of all completions received that day, on behalf of the vendors that pass a test. -/
def receivedCost (trace : List Mark) (day : Nat) (test : String → Bool) : Rat :=
  (trace.map (Mark.cost day test)).sum

theorem receivedCost_cons (mark : Mark) (trace : List Mark) (day : Nat) (test : String → Bool) :
    receivedCost (mark :: trace) day test = mark.cost day test + receivedCost trace day test := rfl

theorem auditSum_insertAudit (db : Database) (row : AuditRow) (day : Nat) (test : AuditRow → Bool) :
    (db.insertAudit row).auditSum day test =
      (if row.day = day ∧ row.source = .llm ∧ test row then row.costEstimate else 0) +
        db.auditSum day test := by
  rw [Database.auditSum, Database.insertAudit, Database.auditSum, List.filter_cons]
  by_cases h : row.day = day ∧ row.source = .llm ∧ test row
  · rw [if_pos h, if_pos (by simpa [and_assoc] using h), List.map_cons, List.sum_cons]
  · rw [if_neg h, if_neg (by simpa [and_assoc] using h), zero_add]

/-! ### Accounts -/

/-- All but `debt`, owed for a vendor's completion of today, is in the audit table. -/
def Owing (vendorId : String) (debt : Rat) (w : World) : Prop :=
  ∀ day test, receivedCost w.trace day test ≤
    w.db.auditSum day (fun row => test row.decision) + if w.today = day ∧ test vendorId then debt else 0

/-- **Whatever was received is in the audit table**, for every day and any vendors. -/
def Accounted (w : World) : Prop :=
  ∀ day test, receivedCost w.trace day test ≤ w.db.auditSum day fun row => test row.decision

theorem Owing.accounted {w : World} {vendorId : String} {debt : Rat} (h : Owing vendorId debt w)
    (hdebt : debt ≤ 0) : Accounted w := by
  intro day test
  have := h day test
  split at this
  · linarith
  · simpa using this

/-- The answers the provider has yet to give pass a test. -/
def Yet (ok : LLMResult → Prop) (w : World) : Prop := ∀ result, .ok result ∈ w.answers → ok result

section Steps
variable {ok : LLMResult → Prop} {vendorId : String} {debt : Rat}

/-- A completion is owed for when it is received. -/
theorem complete_owing : Program.Triple Op.handle (fun w => Accounted w ∧ Yet ok w)
    (.perform (Op.complete vendorId)) fun r w =>
      match r with
      | .ok result => (Owing vendorId result.costEstimate w ∧ ok result) ∧ Yet ok w
      | .error _ => Accounted w ∧ Yet ok w := by
  refine .perform fun w ⟨haccounted, hyet⟩ => ?_
  simp only [Op.handle]
  cases hanswers : w.answers with
  | nil =>
    refine ⟨fun day test => ?_, fun result hm => by cases hm⟩
    rw [receivedCost_cons]
    exact (zero_add _).trans_le (haccounted day test)
  | cons answer answers =>
    have hrest : ∀ result, .ok result ∈ answers → ok result := fun result hm =>
      hyet result (hanswers ▸ List.mem_cons_of_mem _ hm)
    cases answer with
    | error e =>
      refine ⟨fun day test => ?_, hrest⟩
      rw [receivedCost_cons]
      exact (zero_add _).trans_le (haccounted day test)
    | ok result =>
      refine ⟨⟨fun day test => ?_, hyet result (hanswers ▸ List.mem_cons_self)⟩, hrest⟩
      rw [receivedCost_cons, Mark.cost, add_comm]
      exact add_le_add (haccounted day test) le_rfl

theorem insertCache_frame (cacheKey : String) (entry : CacheEntry) (w : World) :
    ((Op.insertCache cacheKey entry).handle w).2.db.llmAudit = w.db.llmAudit ∧
      ((Op.insertCache cacheKey entry).handle w).2.trace = w.trace ∧
      ((Op.insertCache cacheKey entry).handle w).2.today = w.today := by
  simp only [Op.handle]
  cases entry.toRow with
  | error e => exact ⟨rfl, rfl, rfl⟩
  | ok row =>
    simp only [Database.insertCache]
    split <;> simp only [and_self]

/-- An audit row settles a debt that it records in full. -/
theorem insertAudit_settles {eventId : EventId} {cost recorded : Rat} {w : World}
    (hrecorded : toNumeric 10 6 cost = .ok recorded) (hle : debt ≤ recorded) (h : Owing vendorId debt w) :
    Accounted ((Op.insertAudit eventId .llm cost vendorId).handle w).2 := by
  intro day test
  simp only [Op.handle, hrecorded, auditSum_insertAudit]
  have hday := h day test
  by_cases hpaid : w.today = day ∧ test vendorId
  · rw [if_pos hpaid] at hday
    rw [if_pos ⟨hpaid.1, trivial, hpaid.2⟩]
    linarith
  · rw [if_neg hpaid] at hday
    rw [if_neg fun h => hpaid ⟨h.1, h.2.2⟩]
    linarith

end Steps

/-! ### What a call may cost -/

/-- An accepted output that the books can carry: one that can be stored is recorded in full, and
any other one is free. -/
def OutputRecorded (result : LLMResult) (data : JsonObject) : Prop :=
  match CacheEntry.toRow ⟨data, result.costEstimate⟩ with
  | .ok row => result.costEstimate ≤ row.costEstimate
  | .error _ => result.costEstimate ≤ 0

/-- A completion of `classify_extract` that the books can carry: its output is, if it is accepted, and
any other one is free. -/
def ExtractRecorded (env : Externals) (result : LLMResult) : Prop :=
  match parseAndValidate env result.text with
  | .ok data => OutputRecorded result data
  | .error _ => result.costEstimate ≤ 0

/-- A completion of `classify_event_type` that the books can carry: one that is free. -/
def EventTypeRecorded (result : LLMResult) : Prop := result.costEstimate ≤ 0

section Calls
variable (env : Externals) (settings : Settings)

/-- What is known after an attempt: an accepted completion is owed for. -/
def AfterAttempt (vendorHint : String) :
    Except PyError (LLMResult × JsonObject) → World → Prop
  | .ok (result, data), w => Owing vendorHint result.costEstimate w ∧ OutputRecorded result data
  | .error _, w => Accounted w ∧ Yet (ExtractRecorded env) w

theorem attemptExtract_triple (vendorHint : String) :
    Program.Triple Op.handle (fun w => Accounted w ∧ Yet (ExtractRecorded env) w)
      (attemptExtract env vendorHint) (AfterAttempt env vendorHint) := by
  refine .bind complete_owing (fun result => ?_) fun e w h => h
  refine .bind (R := fun data w => match data with
      | .ok data => Owing vendorHint result.costEstimate w ∧ OutputRecorded result data
      | .error _ => Accounted w ∧ Yet (ExtractRecorded env) w)
    (.ofExcept fun w ⟨⟨howing, hrecorded⟩, hyet⟩ => ?_) (fun data => .ret fun w h => h) fun e w h => h
  rw [ExtractRecorded] at hrecorded
  cases hparse : parseAndValidate env result.text with
  | ok data =>
    rw [hparse] at hrecorded
    exact ⟨howing, hrecorded⟩
  | error e =>
    rw [hparse] at hrecorded
    exact ⟨howing.accounted hrecorded, hyet⟩

theorem completeExtract_triple (vendorHint : String) :
    Program.Triple Op.handle (fun w => Accounted w ∧ Yet (ExtractRecorded env) w)
      (completeExtract env vendorHint) (AfterAttempt env vendorHint) := by
  refine .tryCatch (attemptExtract_triple env vendorHint) (fun _ _ h => h) fun firstErr => ?_
  split
  · refine .tryCatch (attemptExtract_triple env vendorHint) (fun _ _ h => h) fun secondErr => ?_
    split
    · exact .raise fun w h => h
    · exact .raise fun w h => h
  · exact .raise fun w h => h

/-- A row of a cache hit is in no sum. -/
theorem insertAudit_cached {eventId : EventId} {cost : Rat} {vendorHint : String} {w : World} :
    let w' := ((Op.insertAudit eventId .llmCache cost vendorHint).handle w).2
    w'.trace = w.trace ∧ ∀ day test, w'.db.auditSum day test = w.db.auditSum day test := by
  simp only [Op.handle]
  cases toNumeric 10 6 cost with
  | error e => exact ⟨rfl, fun _ _ => rfl⟩
  | ok recorded =>
    refine ⟨rfl, fun day test => ?_⟩
    rw [auditSum_insertAudit, if_neg fun h => by cases h.2.1]
    exact zero_add _

/-- **`classify_extract` keeps the accounts**, as far as its completions are recorded. -/
theorem classifyExtract_accounted (eventId : EventId) (vendorHint : String) (payload : JsonObject) :
    Program.Triple Op.handle (fun w => Accounted w ∧ Yet (ExtractRecorded env) w)
      (classifyExtract env settings eventId vendorHint payload) fun _ w => Accounted w := by
  refine .bind (Program.Keeps.perform fun w h => h).triple (fun cached => ?_) fun e w h => h.1
  cases cached with
  | some cached =>
    refine .bind (R := fun _ w => Accounted w) (.perform fun w h => ?_)
      (fun _ => .ret fun w h => h) fun e w h => h
    obtain ⟨htrace, hsum⟩ := @insertAudit_cached eventId cached.costEstimate vendorHint w
    intro day test
    rw [htrace, hsum]
    exact h.1 day test
  | none =>
    refine .bind (allow_keeps settings _ vendorHint _).triple (fun allowed => ?_) fun e w h => h.1
    split
    · refine .bind (completeExtract_triple env vendorHint) (fun answer => ?_) fun e w h => h.1
      obtain ⟨result, data⟩ := answer
      -- an output that cannot be stored is not audited
      refine .bind (R := fun r w => match r with
          | .ok _ => Owing vendorHint result.costEstimate w ∧
            ∃ row, CacheEntry.toRow ⟨data, result.costEstimate⟩ = .ok row ∧ result.costEstimate ≤ row.costEstimate
          | .error _ => Accounted w)
        ?_ (fun _ => ?_) fun e w h => h
      · refine .perform fun w ⟨howing, hrecorded⟩ => ?_
        obtain ⟨haudit, htrace, htoday⟩ := insertCache_frame (extractCacheKey env settings vendorHint payload)
          ⟨data, result.costEstimate⟩ w
        have howing' : Owing vendorHint result.costEstimate ((Op.insertCache
            (extractCacheKey env settings vendorHint payload) ⟨data, result.costEstimate⟩).handle w).2 := by
          intro day test
          rw [htrace, htoday, Database.auditSum, haudit]
          exact howing day test
        rw [OutputRecorded] at hrecorded
        cases hrow : CacheEntry.toRow ⟨data, result.costEstimate⟩ with
        | ok row =>
          rw [hrow] at hrecorded
          simp only [Op.handle, hrow] at howing' ⊢
          exact ⟨howing', row, rfl, hrecorded⟩
        | error e =>
          rw [hrow] at hrecorded
          simp only [Op.handle, hrow] at howing' ⊢
          exact howing'.accounted hrecorded
      · refine .bind (R := fun _ w => Accounted w) (.perform fun w h => ?_) (fun _ => .ret fun w h => h)
          fun e w h => h
        obtain ⟨howing, row, hrow, hle⟩ := h
        exact insertAudit_settles (CacheEntry.toRow_eq_ok.mp hrow).2.2 hle howing
    · exact .raise fun w h => h.1

/-- Writing to the cache keeps the accounts. -/
theorem insertCache_keeps (cacheKey : String) (entry : CacheEntry) :
    Program.Keeps Op.handle Accounted (.perform (Op.insertCache cacheKey entry)) := by
  refine .perform fun w h day test => ?_
  obtain ⟨haudit, htrace, -⟩ := insertCache_frame cacheKey entry w
  rw [htrace, Database.auditSum, haudit]
  exact h day test

/-- **`classify_event_type` keeps the accounts**, as far as its completions are free. -/
theorem classifyEventType_accounted (vendorId rawEventType : String) :
    Program.Triple Op.handle (fun w => Accounted w ∧ Yet EventTypeRecorded w)
      (classifyEventType env settings vendorId rawEventType) fun _ w => Accounted w := by
  refine .bind (Program.Keeps.perform fun w h => h).triple (fun cached => ?_) fun e w h => h.1
  cases cached with
  | some cached => exact .ofExcept fun w h => h.1
  | none =>
    refine .bind (allow_keeps settings _ vendorId _).triple (fun allowed => ?_) fun e w h => h.1
    split
    · refine .bind (R := fun _ w => Accounted w) ?_ (fun answer => ?_) fun e w h => h
      · refine .tryCatch (R := fun _ w => Accounted w) ?_ (fun _ _ h => h) fun e => .ret fun w h => h
        refine .bind complete_owing (fun result => ?_) fun e w h => h.1
        exact .ret fun w ⟨⟨howing, hfree⟩, _⟩ => howing.accounted hfree
      · cases answer with
        | none => exact .ret fun w h => h
        | some result =>
          dsimp only
          split
          · exact .ret fun w h => h
          · refine .bind (insertCache_keeps _ _).triple (fun _ => ?_) fun e w h => h
            exact .ofExcept fun w h => h
    · exact .ret fun w h => h.1

end Calls

/-! ### Runs -/

/-- The two calls of the fallback. -/
inductive LLMRequest where
  | extract (eventId : EventId) (vendorHint : String) (payload : JsonObject)
  | eventType (vendorId rawEventType : String)

/-- A call on some day, with what the provider answers it. -/
structure LLMCall where
  request : LLMRequest
  day : Nat
  answers : List (Except PyError LLMResult)

section Runs
variable (env : Externals) (settings : Settings)

def LLMCall.step (w : World) (call : LLMCall) : World :=
  match call.request with
  | .extract eventId vendorHint payload =>
    (Job.run (classifyExtract env settings eventId vendorHint payload) (w.facing call.day call.answers)).2
  | .eventType vendorId rawEventType =>
    (Job.run (classifyEventType env settings vendorId rawEventType) (w.facing call.day call.answers)).2

/-- Every completion of a call that costs something is recorded in full: it is an
accepted extraction that can be stored, and the `NUMERIC(10, 6)` column does not round its cost down. -/
def LLMCall.Recorded (call : LLMCall) : Prop :=
  ∀ result, .ok result ∈ call.answers →
    match call.request with
    | .extract .. => ExtractRecorded env result
    | .eventType .. => EventTypeRecorded result

theorem accounted_step {w : World} (hw : Accounted w) {call : LLMCall} (hcall : call.Recorded env) :
    Accounted (call.step env settings w) := by
  unfold LLMCall.step
  unfold LLMCall.Recorded at hcall
  cases hrequest : call.request with
  | extract eventId vendorHint payload =>
    rw [hrequest] at hcall
    exact classifyExtract_accounted env settings eventId vendorHint payload _ ⟨hw, hcall⟩
  | eventType vendorId rawEventType =>
    rw [hrequest] at hcall
    exact classifyEventType_accounted env settings vendorId rawEventType _ ⟨hw, hcall⟩

theorem accounted_run {calls : List LLMCall} (hcalls : ∀ call ∈ calls, call.Recorded env) :
    ∀ {w : World}, Accounted w → Accounted (calls.foldl (LLMCall.step env settings) w) := by
  induction calls with
  | nil => exact fun hw => hw
  | cons call calls ih =>
    intro w hw
    exact ih (fun c hc => hcalls c (List.mem_cons_of_mem _ hc))
      (accounted_step env settings hw (hcalls call List.mem_cons_self))

/-- What the guard has seen when it allows a call. -/
theorem within_of_allow {settings : Settings} {vendorId : String} {estimatedCost : Rat} {w : World}
    (h : (Job.run (allow settings vendorId estimatedCost) w).1 = .ok true) :
    w.db.auditSum w.today (fun _ => true) + estimatedCost ≤ settings.llmGlobalDailyBudgetUsd ∧
      w.db.auditSum w.today (fun row => row.decision = vendorId) + estimatedCost ≤
        settings.llmPerVendorDailyBudgetUsd := by
  rw [Job.run, allow, Program.run_perform_bind (s := w) Op.handle rfl] at h
  dsimp only at h
  split at h
  · cases h
  · split at h
    · cases h
    · rename_i hglobal hvendor
      exact ⟨not_lt.mp hglobal, not_lt.mp hvendor⟩

end Runs

/-- A call for the payload of 28 April, answered at the cost of a tenth of a cent. -/
def issuedCall : LLMCall :=
  { request := .extract "e1" "globalfreightpay" (issuedPayload "INV-1" "2026-04-28T05:00:00Z")
    day := 1
    answers := [.ok ⟨answerText ["issued"], 1 / 1000⟩] }

end WebhookIngestion
