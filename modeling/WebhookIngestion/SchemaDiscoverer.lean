import WebhookIngestion.SchemaDriven
import Mathlib.Data.List.Sort

/-! # Schema discovery

From an LLM's answer for a payload back to the places its values came from: the
schema document that Path A will read later payloads of the shape with.  The answer is
one the target schema has accepted, so its fields have the types named there. -/
namespace WebhookIngestion
open Text

/-! ### Searching a payload -/

mutual
/-- The nodes of a document that are neither objects nor arrays, with their paths. -/
def leaves (path : String) : Json → List (String × Json)
  | .obj fields => leavesOfFields path fields
  | .arr items => leavesOfItems path 0 items
  | leaf => [(path, leaf)]
/-- The leaves under the fields of an object. -/
def leavesOfFields (path : String) : List (String × Json) → List (String × Json)
  | [] => []
  | (key, value) :: fields => leaves (path ++ "." ++ key) value ++ leavesOfFields path fields
/-- The leaves under the items of an array, from index `i` on. -/
def leavesOfItems (path : String) (i : Nat) : List Json → List (String × Json)
  | [] => []
  | item :: items =>
    leaves (path ++ "[" ++ toString i ++ "]") item ++ leavesOfItems path (i + 1) items
end

/-- The paths of the leaves that pass a test, in the order of the walk. -/
def pathsWhere (test : Json → Bool) (payload : JsonObject) : List String :=
  ((leaves "$" (.obj payload)).filter fun leaf => test leaf.2).map Prod.fst

/-- `results.sort(key=…); return results[0]`, or `None`. -/
def firstBy (before : String → String → Bool) (results : List String) : Option String :=
  (results.insertionSort fun a b => before a b).head?

/-- `_find_value_path`. -/
def findValuePath (u : Unicode) (payload : JsonObject) (value : Json) : Option String :=
  if value = .null then none
  else
    let target := strip (value.text u)
    firstBy (fun a b => a.length ≤ b.length)
      (pathsWhere (fun node => node ≠ .null && strip (node.text u) = target) payload)

/-- `re.match(r"(\d{4})-(\d{2})-(\d{2})", ts_value)`. -/
def matchDate (u : Unicode) (s : Chars) : Option (Chars × Chars × Chars) :=
  match s with
  | y₁ :: y₂ :: y₃ :: y₄ :: '-' :: m₁ :: m₂ :: '-' :: d₁ :: d₂ :: _ =>
    if [y₁, y₂, y₃, y₄, m₁, m₂, d₁, d₂].all (isDigit u) then
      some ([y₁, y₂, y₃, y₄], [m₁, m₂], [d₁, d₂])
    else none
  | _ => none

/-- `_looks_like_timestamp`. -/
def looksLikeTimestamp (year val : Chars) : Bool :=
  contains year val && val.any (fun c => c = '/' || c = '-' || c = '.') && val.contains ':'

/-- `_date_matches`: the components in ISO, European or US order. -/
def dateMatches (year month day val : Chars) : Bool :=
  contains (join ['-'] [year, month, day]) val || contains (join ['/'] [day, month, year]) val ||
    contains (join ['.'] [day, month, year]) val || contains (join ['/'] [month, day, year]) val

/-- `time_keys`. -/
def timeKeys : List String := ["time", "at", "date", "timestamp", "ts", "issued", "settled"]

/-- Whether the last key of a path has to do with time: the first component of `_score`. -/
def hasTimeKey (path : String) : Bool :=
  timeKeys.any fun key => contains key.toList (lower (afterLast '.' path.toList))

/-- The order of `_score`. -/
def scoreLe (a b : String) : Bool :=
  if hasTimeKey a = hasTimeKey b then a.length ≤ b.length else hasTimeKey a

/-- `_find_timestamp_path`. -/
def findTimestampPath (u : Unicode) (payload : JsonObject) (tsValue : String) : Option String :=
  match matchDate u tsValue.toList with
  | none => none
  | some (year, month, day) =>
    firstBy scoreLe (pathsWhere (fun node => match node with
      | .str s => looksLikeTimestamp year s.toList && dateMatches year month day s.toList
      | _ => false) payload)

/-- `_find_money_path`. -/
def findMoneyPath (payload : JsonObject) (currency : String) : Option String :=
  if currency = "" then none
  else (pathsWhere (fun node => match node with
    | .str s => contains currency.toList (upper s.toList)
    | _ => false) payload).head?

/-- The placeholder for one part of a composite value. -/
def compositePart (u : Unicode) (payload : JsonObject) (part : Chars) : Option Chars :=
  let part := stripWhere isSpace part
  if part = [] then none
  else (findValuePath u payload (.str (String.ofList part))).map fun path =>
    '{' :: path.toList.drop 2 ++ ['}']

/-- The template for one separator, if the value has two to four parts there and the
payload has each of them. -/
def compositeTemplate (u : Unicode) (payload : JsonObject) (composite : Chars) (sep : Char) :
    Option String :=
  let parts := splitChar sep composite
  if 2 ≤ parts.length ∧ parts.length ≤ 4 then
    (parts.mapM (compositePart u payload)).map fun paths => String.ofList (join [sep] paths)
  else none

/-- `_infer_composite_template`. -/
def inferCompositeTemplate (u : Unicode) (payload : JsonObject) (composite : String) :
    Option String :=
  [':', '-', '_', '/'].findSome? (compositeTemplate u payload composite.toList)

/-! ### Inference -/

/-- `fields[key] = spec`, if there is a specification. -/
def fieldAt (key : String) : Option Json → JsonObject
  | some spec => [(key, spec)]
  | none => []

/-- Where `_map_field` finds an extracted value: at a path, else, for an id, in the parts
of a template, and for a timestamp at a path with the same date. -/
def fieldSpec (u : Unicode) (payload : JsonObject) (canonicalKey : String) (extractedValue : Json) :
    Option Json :=
  match findValuePath u payload extractedValue, extractedValue with
  | some path, _ => some (.str path)
  | none, .str value =>
    if canonicalKey = "entity_external_id" then
      (inferCompositeTemplate u payload value).map fun template => .obj [("template", .str template)]
    else if canonicalKey = "event_timestamp" ∨ canonicalKey = "due_at" then
      (findTimestampPath u payload value).map .str
    else none
  | none, _ => none

/-- `_map_field`. -/
def mapField (u : Unicode) (payload : JsonObject) (canonicalKey : String) (extractedValue : Json) :
    JsonObject :=
  fieldAt canonicalKey (fieldSpec u payload canonicalKey extractedValue)

/-- `_map_raw_event_type`. -/
def mapRawEventType (u : Unicode) (payload : JsonObject) (rawValue : Json) : JsonObject :=
  fieldAt "event_type" ((findValuePath u payload rawValue).map .str)

/-- The paths of the values of a dictionary, under its keys. -/
def mapValues (u : Unicode) (payload : JsonObject) (values : JsonObject) : JsonObject :=
  values.filterMap fun (key, val) =>
    (findValuePath u payload val).map fun path => (key, .str path)

/-- `fields[key] = mapped`, if anything was mapped. -/
def nestedField (key : String) (mapped : JsonObject) : JsonObject :=
  fieldAt key (if mapped = [] then none else some (.obj mapped))

/-- `_map_location`. -/
def mapLocation (u : Unicode) (payload : JsonObject) (location : Json) : JsonObject :=
  nestedField "location" (match nestedSpec location with
    | none => []
    | some location => mapValues u payload
        (["code", "name", "latitude", "longitude"].map fun key => (key, location.get key)))

/-- `_map_reference_ids`. -/
def mapReferenceIds (u : Unicode) (payload : JsonObject) (refs : Json) : JsonObject :=
  nestedField "reference_ids" (mapValues u payload ((nestedSpec refs).getD []))

/-- `_map_linked_references`. -/
def mapLinkedReferences (u : Unicode) (payload : JsonObject) (refs : Json) : JsonObject :=
  nestedField "linked_references" (mapValues u payload ((nestedSpec refs).getD []))

/-- `_map_amount`. -/
def mapAmount (payload : JsonObject) (amount : Json) : JsonObject :=
  fieldAt "amount" (match nestedSpec amount with
    | none => none
    | some amount =>
      match amount.get "currency" with
      | .str currency => (findMoneyPath payload currency).map .str
      | _ => none)

/-- The fields that a shipment or invoice answer leads to. -/
def inferFields (u : Unicode) (payload llmOutput : JsonObject) : EntityType → JsonObject
  | .shipment =>
    let eventType := mapRawEventType u payload (llmOutput.get "raw_milestone")
    mapField u payload "entity_external_id" (llmOutput.get "entity_external_id") ++
      mapField u payload "event_timestamp" (llmOutput.get "event_timestamp") ++
      eventType ++ [("raw_milestone", eventType.get "event_type")] ++
      mapLocation u payload (llmOutput.get "location") ++
      mapReferenceIds u payload (llmOutput.get "reference_ids")
  | .invoice =>
    let eventType := mapRawEventType u payload (llmOutput.get "raw_kind")
    mapField u payload "entity_external_id" (llmOutput.get "entity_external_id") ++
      mapField u payload "event_timestamp" (llmOutput.get "event_timestamp") ++
      eventType ++ [("raw_kind", eventType.get "event_type")] ++
      mapAmount payload (llmOutput.get "amount") ++
      mapField u payload "due_at" (llmOutput.get "due_at") ++
      mapLinkedReferences u payload (llmOutput.get "linked_references")

/-- A schema document. -/
def schemaDocument (classification : Classification) (fields : JsonObject) : JsonObject :=
  [("classification", .str classification.value), ("fields", .obj fields)]

/-- `_infer_schema_doc` for an entity, which needs a path for its id and timestamp. -/
def inferEntityDoc (u : Unicode) (payload llmOutput : JsonObject) (k : EntityType) :
    Option JsonObject :=
  let fields := inferFields u payload llmOutput k
  if (fields.lookup "entity_external_id").isNone ∨ (fields.lookup "event_timestamp").isNone then none
  else some (schemaDocument k.classification fields)

/-- `_infer_schema_doc`. -/
def inferSchemaDoc (u : Unicode) (payload llmOutput : JsonObject) (classification : Json) :
    Option JsonObject :=
  if classification = .str "shipment" then inferEntityDoc u payload llmOutput .shipment
  else if classification = .str "invoice" then inferEntityDoc u payload llmOutput .invoice
  else if classification = .str "unclassified" then
    some (schemaDocument .unclassified
      (mapField u payload "summary" (llmOutput.get "summary") ++
        mapField u payload "reason" (llmOutput.get "reason")))
  else none

/-! ### Validation -/

/-- The check of the extracted id against the expected one: equal, or one within the other. -/
def idsMatch (expected : Json) (extracted : String) : Bool :=
  match expected with
  | .str expected => expected = "" || extracted = expected ||
      contains expected.toList extracted.toList || contains extracted.toList expected.toList
  | _ => true

/-- The external id of an event about an entity. -/
def CanonicalEvent.entityExternalId? : CanonicalEvent → Option String
  | .entity _ ev => some ev.entityExternalId
  | .unclassified _ => none

/-- `_validate_schema`. -/
def validateSchema (env : Externals) (payload : JsonObject) (eventId vendorId : String)
    (schemaDoc llmOutput : JsonObject) : Except PyError Bool :=
  if schemaDoc.get "classification" = .str "unclassified" then do
    let result ← extract env payload eventId vendorId schemaDoc none none
    return result.success
  else
    match llmOutput.get "event_type" with
    | .str eventType =>
      if eventType = "" then .ok false
      else do
        let result ← extract env payload eventId vendorId schemaDoc (some eventType) none
        match result.event with
        | .error _ => return false
        | .ok ev => return (ev.entityExternalId?.map (idsMatch (llmOutput.get "entity_external_id"))).getD true
    | _ => .ok false

/-- The document `discover_and_persist` goes on to persist, if any. -/
def discoverSchema (env : Externals) (payload : JsonObject) (eventId vendorId : String)
    (llmOutput : JsonObject) : Except PyError (Option JsonObject) :=
  let classification := llmOutput.get "classification"
  if !classification.truthy then return none
  else
    match inferSchemaDoc env.toUnicode payload llmOutput classification with
    | none => return none
    | some schemaDoc => do
      if ← validateSchema env payload eventId vendorId schemaDoc llmOutput then return some schemaDoc
      else return none

/-- `_find_raw_event_type`. -/
def findRawEventType (u : Unicode) (payload schemaDoc : JsonObject) : Except PyError Json := do
  let fields ← schemaFields schemaDoc
  match fields.get "event_type" with
  | .str path => resolvePath u payload (.str path)
  | _ => return .null

end WebhookIngestion
