import WebhookIngestion.Database
import WebhookIngestion.LLMUniversal

/-! # The LLM fallback

Cache, budget guard, call, validation, audit: `classify_extract` for whole payloads,
`classify_event_type` for one raw event type.  Prompts, models, token counts and
latencies are left out: nothing reads them. -/
namespace WebhookIngestion
open Text Programs

/-- The settings that are read. -/
structure Settings where
  llmGlobalDailyBudgetUsd : Rat
  llmPerVendorDailyBudgetUsd : Rat
  promptVersion : String
  targetSchemaVersion : String
  receiverMaxPayloadBytes : Nat
  webhookVendorSecrets : List (String × String)
  webhookSignatureHeader : String
  webhookSignatureEnforce : Bool

/-- The default values of the settings. -/
def Settings.defaults : Settings where
  llmGlobalDailyBudgetUsd := 5
  llmPerVendorDailyBudgetUsd := 1
  promptVersion := "v1.1"
  targetSchemaVersion := "v1"
  receiverMaxPayloadBytes := 1000000
  webhookVendorSecrets := []
  webhookSignatureHeader := "X-Signature"
  webhookSignatureEnforce := false

/-- `LLMOutcome`. -/
structure LLMOutcome where
  data : JsonObject
  source : Source
  costEstimate : Rat

/-! ### Reading an answer -/

/-- The line boundaries of `str.splitlines`. -/
def isLineBreak (c : Char) : Bool :=
  (10 ≤ c.toNat && c.toNat ≤ 13) || (28 ≤ c.toNat && c.toNat ≤ 30) || c.toNat = 0x85 ||
    c.toNat = 0x2028 || c.toNat = 0x2029

/-- `s.splitlines()`; `current` is the line begun. -/
def splitLines (current : Chars) : Chars → List Chars
  | [] => if current = [] then [] else [current]
  | '\r' :: '\n' :: rest => current :: splitLines [] rest
  | c :: rest => if isLineBreak c then current :: splitLines [] rest else splitLines (current ++ [c]) rest

/-- The backticks of a markdown fence. -/
def fence : Chars := ['`', '`', '`']

/-- The first line without its fence. -/
def dropOpeningFence : List Chars → List Chars
  | [] => []
  | line :: lines => if fence.isPrefixOf (line.dropWhile isSpace) then lines else line :: lines

/-- The last line without its fence. -/
def dropClosingFence (lines : List Chars) : List Chars :=
  if lines.getLast?.any fun line => fence.isPrefixOf (stripWhere isSpace line) then lines.dropLast
  else lines

/-- "Strip accidental markdown code fences." -/
def stripFences (text : String) : String :=
  let cleaned := stripWhere isSpace text.toList
  if fence.isPrefixOf cleaned then
    strip (String.ofList (join ['\n'] (dropClosingFence (dropOpeningFence (splitLines [] cleaned)))))
  else String.ofList cleaned

section
variable (env : Externals) (settings : Settings)

/-- `_parse_and_validate`. -/
def parseAndValidate (text : String) : Except PyError JsonObject :=
  match env.loads (stripFences text) with
  | none => .error .jsonDecodeError
  | some (.obj data) => if matchesTarget data then .ok data else .error .schemaValidationError
  | some _ => .error .schemaValidationError

/-- `_parse_json`. -/
def parseJson (text : String) : Option JsonObject := (env.loads (stripFences text)).bind Json.asObject?

/-- `except (json.JSONDecodeError, jsonschema.ValidationError)`. -/
def isInvalidOutput (e : PyError) : Bool := e = .jsonDecodeError || e = .schemaValidationError

/-- What `classify_event_type` makes of an answer or of a cached one. -/
def eventTypeAnswer (data : JsonObject) : Except PyError (Option (Json × Json × PyFloat)) := do
  let classification := (data.lookup "classification").getD (.str "unclassified")
  let canonicalState := data.get "canonical_state"
  let confidence ← ((data.lookup "confidence").getD (.float (.finite false 0 0))).toFloat env
  return if classification = .str "unclassified" ∨ canonicalState = .null then none
    else some (classification, canonicalState, confidence)

/-! ### The orchestrator -/

/-- `BudgetGuard.allow`. -/
def allow (vendorId : String) (estimatedCost : Rat) : Job Bool := do
  let (todayTotal, todayVendor) ← .perform (Op.sumAudit vendorId)
  if settings.llmGlobalDailyBudgetUsd < todayTotal + estimatedCost then return false
  if settings.llmPerVendorDailyBudgetUsd < todayVendor + estimatedCost then return false
  return true

/-- One call for a payload, with its output validated. -/
def attemptExtract (vendorHint : String) : Job (LLMResult × JsonObject) := do
  let llmResult ← .perform (Op.complete vendorHint)
  let data ← Program.ofExcept (parseAndValidate env llmResult.text)
  return (llmResult, data)

/-- The call, and the corrective retry of an invalid output. -/
def completeExtract (vendorHint : String) : Job (LLMResult × JsonObject) :=
  (attemptExtract env vendorHint).tryCatch fun firstErr =>
    if isInvalidOutput firstErr then
      (attemptExtract env vendorHint).tryCatch fun secondErr =>
        if isInvalidOutput secondErr then .raise .llmValidationError else .raise secondErr
    else .raise firstErr

/-- The key of a whole payload's answer. -/
def extractCacheKey (vendorHint : String) (payload : JsonObject) : String :=
  llmCacheKey env settings.promptVersion (.obj payload) settings.targetSchemaVersion (some vendorHint)

/-- `classify_extract`. -/
def classifyExtract (eventId : EventId) (vendorHint : String) (payload : JsonObject) :
    Job LLMOutcome := do
  let cacheKey := extractCacheKey env settings vendorHint payload
  match ← .perform (Op.selectCache cacheKey) with
  | some cached =>
    .perform (Op.insertAudit eventId .llmCache cached.costEstimate vendorHint)
    return ⟨cached.output, .llmCache, cached.costEstimate⟩
  | none =>
    -- Budget guard before any network call.
    if ← allow settings vendorHint (1 / 1000) then
      let (llmResult, data) ← completeExtract env vendorHint
      .perform (Op.insertCache cacheKey ⟨data, llmResult.costEstimate⟩)
      .perform (Op.insertAudit eventId .llm llmResult.costEstimate vendorHint)
      return ⟨data, .llm, llmResult.costEstimate⟩
    else .raise .budgetExceeded

/-- The key of a raw event type's answer. -/
def eventTypeCacheKey (vendorId rawEventType : String) : String :=
  sha256Hex env [encode "classify_event_type_v1", encode vendorId, encode rawEventType]

/-- `classify_event_type`. -/
def classifyEventType (vendorId rawEventType : String) : Job (Option (Json × Json × PyFloat)) := do
  let cacheKey := eventTypeCacheKey env vendorId rawEventType
  match ← .perform (Op.selectCache cacheKey) with
  | some cached => .ofExcept (eventTypeAnswer env cached.output)
  | none =>
    if ← allow settings vendorId (2 / 10000) then
      match ← (some <$> Program.perform (Op.complete vendorId)).tryCatch fun _ => return none with
      | none => return none
      | some llmResult =>
        match parseJson env llmResult.text with
        | none => return none
        | some data =>
          .perform (Op.insertCache cacheKey ⟨data, llmResult.costEstimate⟩)
          .ofExcept (eventTypeAnswer env data)
    else return none

end

/-- The guard only looks. -/
theorem allow_keeps (settings : Settings) (I : World → Prop) (vendorId : String) (estimatedCost : Rat) :
    Program.Keeps Op.handle I (allow settings vendorId estimatedCost) := by
  refine .bind (.perform fun w h => h) fun sums => ?_
  dsimp only
  split
  · exact .ret _
  · split <;> exact .ret _

end WebhookIngestion
