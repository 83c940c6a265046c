import WebhookIngestion.Parsers

/-! # The schema-driven adapter

Path A's extraction: a `schema_doc` names, for each canonical field, the path in the
payload it is read at.  Paths may come from a curated document, so any JSON value can
stand where a path should. -/
namespace WebhookIngestion
open Text Programs

/-! ### Paths -/

/-- The segments of a path after its leading `$`: keys between dots, a bracketed
part belonging to its key.  `path.index("]", i)` raises for an open bracket. -/
def parseSegments (inBracket : Bool) (current : Chars) : Chars → Except PyError (List Chars)
  | [] => if inBracket then .error .valueError else .ok (if current = [] then [] else [current])
  | c :: rest =>
    if inBracket then parseSegments (c ≠ ']') (current ++ [c]) rest
    else if c = '.' then do
      let segments ← parseSegments false [] rest
      return if current = [] then segments else current :: segments
    else parseSegments (c = '[') (current ++ [c]) rest

/-- `_parse_path`. -/
def parsePath (path : String) : Except PyError (List Chars) :=
  match path.toList with
  | '$' :: '.' :: rest | '$' :: rest => parseSegments false [] rest
  | rest => parseSegments false [] rest

/-- `x.get(key)` where `x` is a dictionary; anything else has no fields. -/
def Json.field (key : Chars) : Json → Json
  | .obj fields => JsonObject.get fields (String.ofList key)
  | _ => .null

/-- `items[i]`, where a negative index counts from the end. -/
def Json.index (items : List Json) (i : Int) : Option Json :=
  if 0 ≤ i then items[i.toNat]? else if 0 ≤ items.length + i then items[(items.length + i).toNat]? else none

/-- One step of a path; from `None` no step leads anywhere. -/
def walkSegment (u : Unicode) (current : Json) (part : Chars) : Except PyError Json :=
  if current = .null then .ok .null
  else if part = ['$'] then .ok current
  else if ['[', ']'].isSuffixOf part then
    let key := part.take (part.length - 2)
    let target := if key = [] then current else current.field key
    match target with
    | .arr items => .ok (items.head?.getD .null)
    | target => .ok target
  else if [']'].isSuffixOf part then
    if '[' ∈ part then
      let key := part.takeWhile (· ≠ '[')
      let idx := (part.drop (key.length + 1)).dropLast
      let target := if key = [] then current else current.field key
      match target, int? u idx with
      | .arr items, some i => .ok ((Json.index items i).getD .null)
      | _, _ => .ok .null
    else .error .valueError
  else .ok (current.field part)

/-- `_resolve_path`. -/
def resolvePath (u : Unicode) (payload : JsonObject) (path : Json) : Except PyError Json :=
  if path.truthy then
    match path with
    | .str path => do
      let parts ← parsePath path
      parts.foldlM (walkSegment u) (.obj payload)
    | _ => .error .attributeError
  else .ok .null

/-! ### Templates -/

/-- `re.split(r"(\{[^}]+\})", template)`: the texts between placeholders, and the
placeholders, in turn. -/
def splitTemplate (inside : Bool) (part : Chars) : Chars → List Chars
  | [] => [part]
  | c :: rest =>
    if inside then
      if c = '}' then (part ++ [c]) :: splitTemplate false [] rest
      else splitTemplate true (part ++ [c]) rest
    else if c = '{' && rest.head? ≠ some '}' && rest.contains '}' then
      part :: splitTemplate true [c] rest
    else splitTemplate false (part ++ [c]) rest

/-- The path a part of a template stands for, if it stands for one. -/
def placeholder? (part : Chars) : Option String :=
  if ['{'].isPrefixOf part && ['}'].isSuffixOf part then
    some (String.ofList ('$' :: '.' :: (part.drop 1).dropLast))
  else none

/-- A part of a template with its placeholder resolved, and whether it had a value. -/
def resolvePart (u : Unicode) (payload : JsonObject) (part : Chars) : Except PyError (Chars × Bool) :=
  match placeholder? part with
  | some path => do
    let val ← resolvePath u payload (.str path)
    return if val.truthy then ((val.text u).toList, true) else ([], false)
  | none => .ok (part, false)

/-- `_resolve_template`. -/
def resolveTemplate (u : Unicode) (payload : JsonObject) (template : Json) :
    Except PyError (Option String) :=
  match template with
  | .str template => do
    let parts ← (splitTemplate false [] template.toList).mapM (resolvePart u payload)
    if parts.any Prod.snd then
      let result := stripChar '-' (stripChar ':' (parts.flatMap Prod.fst))
      return if result = [] then none else some (String.ofList result)
    else return none
  | _ => .error .typeError

/-! ### Field specifications -/

/-- The first path of a fallback list that leads to a value. -/
def resolveFirst (u : Unicode) (payload : JsonObject) : List Json → Except PyError Json
  | [] => .ok .null
  | path :: paths => do
    let val ← resolvePath u payload path
    if val = .null then resolveFirst u payload paths else return val

/-- `str` or `None` as a value. -/
def Json.ofText : Option String → Json
  | some s => .str s
  | none => .null

/-- The `"template"` of a specification, where it counts as one. -/
def templateOf (spec : JsonObject) : Option Json :=
  let template := spec.get "template"
  if template.truthy then some template else none

/-- A template that is not empty is a specification. -/
theorem templateOf_template (template : String) :
    templateOf [("template", .str template)] = if template = "" then none else some (.str template) := by
  by_cases h : template = ""
  · rw [if_pos h, h]
    rfl
  · rw [if_neg h, templateOf, if_pos (by simpa [JsonObject.get, Json.truthy] using h)]
    rfl

/-- `_resolve_field`. -/
def resolveField (u : Unicode) (payload : JsonObject) (spec : Json) : Except PyError Json :=
  match spec with
  | .arr paths => resolveFirst u payload paths
  | .obj spec =>
    match templateOf spec with
    | some template => return Json.ofText (← resolveTemplate u payload template)
    | none => return .null
  | .str path => resolvePath u payload (.str path)
  | _ => return .null

/-- `_resolve_entity_id`. -/
def resolveEntityId (u : Unicode) (payload fields : JsonObject) : Except PyError (Option String) :=
  match fields.get "entity_external_id" with
  | .obj spec =>
    match templateOf spec with
    | some template => resolveTemplate u payload template
    | none => return none
  | .str path => return (← resolvePath u payload (.str path)).textIfTruthy u
  | _ => return none

/-- A nested specification: a dictionary that is not empty. -/
def nestedSpec (spec : Json) : Option JsonObject :=
  if spec.truthy then spec.asObject? else none

/-- `_extract_location`. -/
def extractLocation (env : Externals) (payload : JsonObject) (locSpec : Json) :
    Except PyError (Option Location) :=
  match nestedSpec locSpec with
  | none => return none
  | some locSpec => do
    let code ← resolvePath env.toUnicode payload (locSpec.get "code")
    let name ← resolvePath env.toUnicode payload (locSpec.get "name")
    let lat ← resolvePath env.toUnicode payload (locSpec.get "latitude")
    let lon ← resolvePath env.toUnicode payload (locSpec.get "longitude")
    if !code.truthy && !name.truthy then return none
    let coordinate (x : Json) : Except PyError (Option PyFloat) :=
      if x = .null then return none else return some (← x.toFloat env)
    return some
      { code := code.textIfTruthy env.toUnicode
        name := name.textIfTruthy env.toUnicode
        latitude := ← coordinate lat
        longitude := ← coordinate lon }

/-- What the code makes of an exception it expects: `except ValueError: return None`. -/
def orNone {α : Type} (expected : PyError → Bool) (x : Except PyError α) : Except PyError (Option α) :=
  match x with
  | .ok a => .ok (some a)
  | .error e => if expected e then .ok none else .error e

/-- The `(ValueError, TypeError)` around `parse_timestamp`. -/
def badTimestamp (e : PyError) : Bool := e.isValueError || e = .typeError

/-- `_extract_amount`. -/
def extractAmount (env : Externals) (payload : JsonObject) (spec : Json) :
    Except PyError (Option Money) := do
  let amountRaw ← resolveField env.toUnicode payload spec
  if !amountRaw.truthy then return none
  orNone PyError.isValueError do
    let (currency, amountMinor) ← parseMoney env (amountRaw.text env.toUnicode)
    Money.validate currency amountMinor

/-- `_extract_map`. -/
def extractMap (u : Unicode) (payload : JsonObject) (mapSpec : Json) : Except PyError JsonObject :=
  match nestedSpec mapSpec with
  | none => return []
  | some mapSpec => do
    let entries ← mapSpec.mapM fun (key, path) => do
      return (key, ← resolvePath u payload path)
    return entries.filter fun (_, val) => val ≠ .null

/-! ### Extraction -/

/-- Why an extraction failed. -/
inductive ExtractionError where
  | noClassification
  | canonicalStateNotResolved
  | missingFields (missing : List String)
  | timestampParseFailed
  | invalidState (k : EntityType) (canonicalState : String)
  | unknownClassification (classification : Json)
  deriving DecidableEq

/-- `ExtractionResult`; `success` is `event` being a canonical event. -/
structure ExtractionResult where
  rawEventType : Option String
  event : Except ExtractionError CanonicalEvent
  deriving DecidableEq

/-- `success`. -/
def ExtractionResult.success (result : ExtractionResult) : Bool := result.event.isOk

/-- The due date, where a value that counts as one was read and can be parsed. -/
def extractDueAt (env : Externals) (dueRaw : Json) : Except PyError (Option DateTime) :=
  if dueRaw.truthy then orNone badTimestamp (parseTimestamp env (dueRaw.text env.toUnicode))
  else .ok none

/-- The fields of `_extract_shipment` and `_extract_invoice` that are their own. -/
def extractDetail (env : Externals) (payload fields : JsonObject) :
    (k : EntityType) → Except PyError (DetailOf k)
  | .shipment => do
    let location ← extractLocation env payload (fields.get "location")
    let referenceIds ← extractMap env.toUnicode payload (fields.get "reference_ids")
    let rawMilestone ← resolveField env.toUnicode payload (fields.get "raw_milestone")
    return ShipmentDetail.mk referenceIds location (rawMilestone.textIfTruthy env.toUnicode)
  | .invoice => do
    let amount ← extractAmount env payload (fields.get "amount")
    let dueRaw ← resolveField env.toUnicode payload (fields.get "due_at")
    let dueAt ← extractDueAt env dueRaw
    let linkedReferences ← extractMap env.toUnicode payload (fields.get "linked_references")
    let rawKind ← resolveField env.toUnicode payload (fields.get "raw_kind")
    return InvoiceDetail.mk amount dueAt linkedReferences (rawKind.textIfTruthy env.toUnicode)

/-- `confidence` of an entity event, and of an unclassified one. -/
def entityConfidence : Rat := 92 / 100

def unclassifiedConfidence : Rat := 9 / 10

/-- The base of an event that a schema extracted. -/
def deterministicBase (eventId vendorId : String) (confidence : Rat) : CanonicalBase :=
  { eventId, vendorId, schemaVersion := "v1", source := .deterministic, confidence }

/-- What `_extract_shipment` and `_extract_invoice` read before they build an event. -/
structure EntityReading (k : EntityType) where
  entityExternalId : String
  eventType : EventTypeOf k
  eventTimestamp : DateTime
  detail : DetailOf k

/-- `missing`: the required fields that were not found. -/
def missingFields (extId : Option String) (tsRaw : Json) : List String :=
  (if extId.getD "" = "" then ["entity_external_id"] else []) ++
    if tsRaw.truthy then [] else ["event_timestamp"]

/-- The required fields, then the timestamp, the event type and the fields of the kind. -/
def readEntity (env : Externals) (k : EntityType) (payload fields : JsonObject)
    (canonicalState : String) : Except PyError (Except ExtractionError (EntityReading k)) := do
  let extId ← resolveEntityId env.toUnicode payload fields
  let tsRaw ← resolveField env.toUnicode payload (fields.get "event_timestamp")
  if missingFields extId tsRaw ≠ [] then return .error (.missingFields (missingFields extId tsRaw))
  match ← orNone badTimestamp (parseTimestamp env (tsRaw.text env.toUnicode)) with
  | none => return .error .timestampParseFailed
  | some eventTimestamp =>
    match EventTypeOf.ofValue? k canonicalState with
    | none => return .error (.invalidState k canonicalState)
    | some eventType =>
      let detail ← extractDetail env payload fields k
      return .ok ⟨extId.getD "", eventType, eventTimestamp, detail⟩

/-- The event a reading makes. -/
def EntityReading.event {k : EntityType} (reading : EntityReading k) (eventId vendorId : String) :
    CanonicalEntityEvent k :=
  { deterministicBase eventId vendorId entityConfidence with
    entityExternalId := reading.entityExternalId
    eventType := reading.eventType
    eventTimestamp := reading.eventTimestamp
    detail := reading.detail }

/-- `_extract_shipment` and `_extract_invoice`. -/
def extractEntity (env : Externals) (k : EntityType) (payload : JsonObject) (eventId vendorId : String)
    (fields : JsonObject) (canonicalState : String) :
    Except PyError (Except ExtractionError (CanonicalEntityEvent k)) := do
  match ← readEntity env k payload fields canonicalState with
  | .error e => return .error e
  | .ok reading => return .ok (← (reading.event eventId vendorId).validate)

/-- `_extract_shipment`. -/
def extractShipment (env : Externals) := extractEntity env .shipment

/-- `_extract_invoice`. -/
def extractInvoice (env : Externals) := extractEntity env .invoice

/-- `_extract_unclassified`. -/
def extractUnclassified (env : Externals) (payload : JsonObject) (eventId vendorId : String)
    (fields : JsonObject) : Except PyError CanonicalUnclassifiedEvent := do
  let summaryRaw ← resolveField env.toUnicode payload (fields.get "summary")
  let reasonRaw ← resolveField env.toUnicode payload (fields.get "reason")
  CanonicalUnclassifiedEvent.validate
    { deterministicBase eventId vendorId unclassifiedConfidence with
      summary := (summaryRaw.textIfTruthy env.toUnicode).map fun s => String.ofList (s.toList.take 500)
      reason := some ((reasonRaw.textIfTruthy env.toUnicode).getD "schema_driven_unclassified") }

/-- `schema_doc.get("fields", {})`, whose `get` only a dictionary has. -/
def schemaFields (schemaDoc : JsonObject) : Except PyError JsonObject :=
  match schemaDoc.lookup "fields" with
  | none => .ok []
  | some (.obj fields) => .ok fields
  | some _ => .error .attributeError

/-- `classification or schema_doc.get("classification")`. -/
def schemaClassification (schemaDoc : JsonObject) (classification : Option String) : Json :=
  let override := Json.ofText classification
  if override.truthy then override else schemaDoc.get "classification"

/-- `SchemaDrivenAdapter.extract`. -/
def extract (env : Externals) (payload : JsonObject) (eventId vendorId : String)
    (schemaDoc : JsonObject) (canonicalState classification : Option String) :
    Except PyError ExtractionResult := do
  let cls := schemaClassification schemaDoc classification
  if !cls.truthy then return ⟨none, .error .noClassification⟩
  let fields ← schemaFields schemaDoc
  let rawEventType := (← resolveField env.toUnicode payload (fields.get "event_type")).textIfTruthy env.toUnicode
  if cls = .str "unclassified" then
    let canonical ← extractUnclassified env payload eventId vendorId fields
    return ⟨rawEventType, .ok (.unclassified canonical)⟩
  match canonicalState with
  | none => return ⟨rawEventType, .error .canonicalStateNotResolved⟩
  | some canonicalState =>
    if cls = .str "shipment" then
      let result ← extractShipment env payload eventId vendorId fields canonicalState
      return ⟨rawEventType, result.map (.entity .shipment)⟩
    if cls = .str "invoice" then
      let result ← extractInvoice env payload eventId vendorId fields canonicalState
      return ⟨rawEventType, result.map (.entity .invoice)⟩
    return ⟨none, .error (.unknownClassification cls)⟩

/-! ### What an extraction reads

An extraction sees the payload only at the paths the document names. -/

/-- The paths of a template's placeholders. -/
def placeholderPaths (template : String) : List Json :=
  ((splitTemplate false [] template.toList).filterMap placeholder?).map .str

/-- The paths a field specification names. -/
def specPaths : Json → List Json
  | .str path => [.str path]
  | .arr paths => paths
  | .obj spec =>
    match templateOf spec with
    | some (.str template) => placeholderPaths template
    | _ => []
  | _ => []

/-- The paths a nested specification names. -/
def mapPaths (spec : Json) : List Json :=
  match nestedSpec spec with
  | some spec => spec.map Prod.snd
  | none => []

/-- The fields that are read through `_resolve_field` or `_resolve_entity_id`. -/
def scalarFields : List String :=
  ["entity_external_id", "event_type", "event_timestamp", "raw_milestone", "raw_kind", "amount",
    "due_at", "summary", "reason"]

/-- The fields that name a path for each of their keys. -/
def nestedFields : List String := ["location", "reference_ids", "linked_references"]

/-- Every path a document's fields name. -/
def namedPaths (fields : JsonObject) : List Json :=
  scalarFields.flatMap (fun key => specPaths (fields.get key)) ++
    nestedFields.flatMap fun key => mapPaths (fields.get key)

/-- Two payloads read the same at each of some paths. -/
def ReadAlike (u : Unicode) (p q : JsonObject) (paths : List Json) : Prop :=
  ∀ path ∈ paths, resolvePath u p path = resolvePath u q path

section ReadAlike
variable {u : Unicode} {p q : JsonObject}

theorem resolveFirst_congr : ∀ {paths : List Json}, ReadAlike u p q paths →
    resolveFirst u p paths = resolveFirst u q paths
  | [], _ => rfl
  | path :: paths, h => by
    rw [resolveFirst, resolveFirst, h path List.mem_cons_self,
      resolveFirst_congr fun path' h' => h path' (List.mem_cons_of_mem _ h')]

theorem resolveTemplate_congr {template : String}
    (h : ReadAlike u p q (placeholderPaths template)) :
    resolveTemplate u p (.str template) = resolveTemplate u q (.str template) := by
  have hparts : ∀ part ∈ splitTemplate false [] template.toList,
      resolvePart u p part = resolvePart u q part := by
    intro part hpart
    unfold resolvePart
    cases hplaceholder : placeholder? part with
    | none => rfl
    | some path =>
      have hnamed : Json.str path ∈ placeholderPaths template :=
        List.mem_map_of_mem (List.mem_filterMap.mpr ⟨part, hpart, hplaceholder⟩)
      simp only [h _ hnamed]
  rw [resolveTemplate, resolveTemplate, mapM_congr hparts]

theorem resolveSpec_congr {spec : JsonObject} {template : Json}
    (htemplate : templateOf spec = some template) (h : ReadAlike u p q (specPaths (.obj spec))) :
    resolveTemplate u p template = resolveTemplate u q template := by
  cases template with
  | str template => exact resolveTemplate_congr (by rwa [specPaths, htemplate] at h)
  | _ => rfl

theorem resolveField_congr {spec : Json} (h : ReadAlike u p q (specPaths spec)) :
    resolveField u p spec = resolveField u q spec := by
  cases spec with
  | str path => exact h _ List.mem_cons_self
  | arr paths => exact resolveFirst_congr h
  | obj spec =>
    rw [resolveField, resolveField]
    cases htemplate : templateOf spec with
    | none => rfl
    | some template => simp only [resolveSpec_congr htemplate h]
  | _ => rfl

theorem resolveEntityId_congr {fields : JsonObject}
    (h : ReadAlike u p q (specPaths (fields.get "entity_external_id"))) :
    resolveEntityId u p fields = resolveEntityId u q fields := by
  rw [resolveEntityId, resolveEntityId]
  cases hspec : fields.get "entity_external_id" with
  | str path =>
    rw [hspec] at h
    simp only [h _ List.mem_cons_self]
  | obj spec =>
    rw [hspec] at h
    cases htemplate : templateOf spec with
    | none => simp only [htemplate]
    | some template => simp only [htemplate, resolveSpec_congr htemplate h]
  | _ => rfl

/-- A nested specification names the paths under its keys; a key it lacks reads as null. -/
theorem resolve_nested_congr {spec : Json} {nested : JsonObject} (hspec : nestedSpec spec = some nested)
    (h : ReadAlike u p q (mapPaths spec)) (key : String) :
    resolvePath u p (nested.get key) = resolvePath u q (nested.get key) := by
  rw [mapPaths, hspec] at h
  rw [JsonObject.get]
  cases hkey : nested.lookup key with
  | none => rfl
  | some path =>
    obtain ⟨before, rest, rfl, -⟩ := List.lookup_eq_some_iff.mp hkey
    exact h path (List.mem_map_of_mem (List.mem_append_right _ List.mem_cons_self))

theorem extractMap_congr {spec : Json} (h : ReadAlike u p q (mapPaths spec)) :
    extractMap u p spec = extractMap u q spec := by
  rw [extractMap, extractMap]
  cases hspec : nestedSpec spec with
  | none => rfl
  | some nested =>
    rw [mapPaths, hspec] at h
    have hentries : ∀ entry ∈ nested, (do return (entry.1, ← resolvePath u p entry.2) :
        Except PyError (String × Json)) = (do return (entry.1, ← resolvePath u q entry.2)) := by
      intro entry hentry
      rw [h _ (List.mem_map_of_mem hentry)]
    simp only [mapM_congr hentries]

variable {env : Externals}

theorem extractLocation_congr {spec : Json} (h : ReadAlike env.toUnicode p q (mapPaths spec)) :
    extractLocation env p spec = extractLocation env q spec := by
  rw [extractLocation, extractLocation]
  cases hspec : nestedSpec spec with
  | none => rfl
  | some nested => simp only [resolve_nested_congr hspec h]

theorem extractAmount_congr {spec : Json} (h : ReadAlike env.toUnicode p q (specPaths spec)) :
    extractAmount env p spec = extractAmount env q spec := by
  rw [extractAmount, extractAmount, resolveField_congr h]

variable {fields : JsonObject}

theorem ReadAlike.scalar (h : ReadAlike u p q (namedPaths fields)) {key : String}
    (hkey : key ∈ scalarFields) : ReadAlike u p q (specPaths (fields.get key)) :=
  fun path hpath => h path (List.mem_append_left _ (List.mem_flatMap.mpr ⟨key, hkey, hpath⟩))

theorem ReadAlike.nested (h : ReadAlike u p q (namedPaths fields)) {key : String}
    (hkey : key ∈ nestedFields) : ReadAlike u p q (mapPaths (fields.get key)) :=
  fun path hpath => h path (List.mem_append_right _ (List.mem_flatMap.mpr ⟨key, hkey, hpath⟩))

theorem resolveScalar_congr (h : ReadAlike u p q (namedPaths fields)) {key : String}
    (hkey : key ∈ scalarFields) :
    resolveField u p (fields.get key) = resolveField u q (fields.get key) :=
  resolveField_congr (h.scalar hkey)

theorem extractDetail_congr (h : ReadAlike env.toUnicode p q (namedPaths fields)) :
    ∀ k, extractDetail env p fields k = extractDetail env q fields k
  | .shipment => by
    rw [extractDetail, extractDetail, extractLocation_congr (h.nested (by decide)),
      extractMap_congr (h.nested (by decide)), resolveScalar_congr h (by decide)]
  | .invoice => by
    rw [extractDetail, extractDetail, extractAmount_congr (h.scalar (by decide)),
      resolveScalar_congr h (by decide), extractMap_congr (h.nested (by decide)),
      resolveScalar_congr h (show "raw_kind" ∈ scalarFields by decide)]

theorem readEntity_congr (h : ReadAlike env.toUnicode p q (namedPaths fields)) (k : EntityType)
    (canonicalState : String) :
    readEntity env k p fields canonicalState = readEntity env k q fields canonicalState := by
  rw [readEntity, readEntity, resolveEntityId_congr (h.scalar (by decide)),
    resolveScalar_congr h (by decide), extractDetail_congr h]

theorem extractUnclassified_congr (h : ReadAlike env.toUnicode p q (namedPaths fields))
    (eventId vendorId : String) :
    extractUnclassified env p eventId vendorId fields =
      extractUnclassified env q eventId vendorId fields := by
  rw [extractUnclassified, extractUnclassified, resolveScalar_congr h (by decide),
    resolveScalar_congr h (show "reason" ∈ scalarFields by decide)]

/-- **Payloads that agree at the named paths are extracted alike.** -/
theorem extract_congr {schemaDoc : JsonObject}
    (h : ∀ fields, schemaFields schemaDoc = .ok fields →
      ReadAlike env.toUnicode p q (namedPaths fields))
    (eventId vendorId : String) (canonicalState classification : Option String) :
    extract env p eventId vendorId schemaDoc canonicalState classification =
      extract env q eventId vendorId schemaDoc canonicalState classification := by
  rw [extract, extract]
  cases hfields : schemaFields schemaDoc with
  | error e => rfl
  | ok fields =>
    have h := h fields hfields
    simp only [bind, Except.bind, resolveScalar_congr h (show "event_type" ∈ scalarFields by decide),
      extractUnclassified_congr h, extractShipment, extractInvoice,
      extractEntity, readEntity_congr h]

end ReadAlike

/-! ### The event id -/

/-- The same event under another id. -/
def CanonicalEvent.withEventId (eventId : String) : CanonicalEvent → CanonicalEvent
  | .entity k ev => .entity k { ev with eventId := eventId }
  | .unclassified ev => .unclassified { ev with eventId := eventId }

section EventId
variable {eventId eventId' : String} (h : strip eventId ≠ "") (h' : strip eventId' ≠ "")
include h h'

/-- Fields that are valid with one event id are valid with another. -/
theorem validateBase_eventId (base : CanonicalBase) (hbase : base.eventId = eventId) :
    { base with eventId := eventId' }.validate = base.validate := by
  simp only [CanonicalBase.validate, hbase, h, h', false_or]

variable (env : Externals) (payload : JsonObject) (vendorId : String)

theorem validateReading_eventId {k : EntityType} (reading : EntityReading k) :
    (reading.event eventId' vendorId).validate =
      (reading.event eventId vendorId).validate.map fun ev => { ev with eventId := eventId' } := by
  have hbase := validateBase_eventId h h' (reading.event eventId vendorId).toCanonicalBase rfl
  rw [CanonicalEntityEvent.validate, CanonicalEntityEvent.validate,
    show (reading.event eventId' vendorId).toCanonicalBase.validate = _ from hbase]
  cases (reading.event eventId vendorId).toCanonicalBase.validate <;> rfl

theorem extractEntity_eventId (k : EntityType) (fields : JsonObject) (canonicalState : String) :
    extractEntity env k payload eventId' vendorId fields canonicalState =
      (extractEntity env k payload eventId vendorId fields canonicalState).map
        (Except.map fun ev => { ev with eventId := eventId' }) := by
  rw [extractEntity, extractEntity]
  cases readEntity env k payload fields canonicalState with
  | error e => rfl
  | ok result =>
    cases result with
    | error e => rfl
    | ok reading =>
      simp only [bind, Except.bind, validateReading_eventId h h']
      cases (reading.event eventId vendorId).validate <;> rfl

theorem extractUnclassified_eventId (fields : JsonObject) :
    extractUnclassified env payload eventId' vendorId fields =
      (extractUnclassified env payload eventId vendorId fields).map
        fun ev => { ev with eventId := eventId' } := by
  rw [extractUnclassified, extractUnclassified]
  cases resolveField env.toUnicode payload (fields.get "summary") with
  | error e => rfl
  | ok summaryRaw =>
    cases resolveField env.toUnicode payload (fields.get "reason") with
    | error e => rfl
    | ok reasonRaw =>
      have hbase := validateBase_eventId h h'
        (deterministicBase eventId vendorId unclassifiedConfidence) rfl
      simp only [bind, Except.bind, CanonicalUnclassifiedEvent.validate]
      rw [show (deterministicBase eventId' vendorId unclassifiedConfidence).validate = _ from hbase]
      cases (deterministicBase eventId vendorId unclassifiedConfidence).validate <;> rfl

/-- **The event id only labels what is extracted**, as long as it is not blank. -/
theorem extract_eventId (schemaDoc : JsonObject) (canonicalState classification : Option String) :
    extract env payload eventId' vendorId schemaDoc canonicalState classification =
      (extract env payload eventId vendorId schemaDoc canonicalState classification).map
        fun result => { result with event := result.event.map (CanonicalEvent.withEventId eventId') } := by
  simp only [extract, extractShipment, extractInvoice, extractUnclassified_eventId h h',
    extractEntity_eventId h h', bind, Except.bind]
  split
  · rfl
  · cases schemaFields schemaDoc with
    | error e => rfl
    | ok fields =>
      cases hraw : resolveField env.toUnicode payload (fields.get "event_type") with
      | error e => simp only [hraw]; rfl
      | ok raw =>
        simp only [hraw]
        split
        · cases extractUnclassified env payload eventId vendorId fields <;> rfl
        · cases canonicalState with
          | none => rfl
          | some canonicalState =>
            simp only []
            split
            · cases hresult : extractEntity env .shipment payload eventId vendorId fields canonicalState with
              | error e => rfl
              | ok result => cases result <;> rfl
            · split
              · cases hresult : extractEntity env .invoice payload eventId vendorId fields canonicalState with
                | error e => rfl
                | ok result => cases result <;> rfl
              · rfl

end EventId

section BlankId
variable {eventId' : String} (h' : strip eventId' = "")
include h'

/-- Fields with a blank event id are refused. -/
theorem validateBase_blank {base : CanonicalBase} (hbase : base.eventId = eventId') :
    base.validate = .error .validationError := by
  rw [CanonicalBase.validate, hbase, if_pos (.inl h')]

variable {env : Externals} {payload : JsonObject} {eventId vendorId : String}

theorem extractEntity_blank {k : EntityType} {fields : JsonObject} {canonicalState : String}
    {result : Except ExtractionError (CanonicalEntityEvent k)}
    (h : extractEntity env k payload eventId vendorId fields canonicalState = .ok result) :
    extractEntity env k payload eventId' vendorId fields canonicalState =
      match result with
      | .ok _ => .error .validationError
      | .error e => .ok (.error e) := by
  obtain ⟨outcome, hread, h⟩ := bind_eq_ok.mp h
  rw [extractEntity, hread]
  cases outcome with
  | error e =>
    cases h
    rfl
  | ok reading =>
    obtain ⟨ev, -, h⟩ := bind_eq_ok.mp h
    cases h
    have hblank : (reading.event eventId' vendorId).toCanonicalBase.validate = .error .validationError :=
      validateBase_blank h' rfl
    simp only [bind, Except.bind, CanonicalEntityEvent.validate, hblank]

/-- **With a blank event id an extraction fails as with any other, and raises where that succeeds.** -/
theorem extract_blank {schemaDoc : JsonObject} {canonicalState classification : Option String}
    {result : ExtractionResult}
    (h : extract env payload eventId vendorId schemaDoc canonicalState classification = .ok result) :
    extract env payload eventId' vendorId schemaDoc canonicalState classification =
      match result.event with
      | .ok _ => .error .validationError
      | .error _ => .ok result := by
  simp only [extract] at h ⊢
  split at h
  · next hcls =>
    cases h
    rw [if_pos hcls]
    rfl
  · next hcls =>
    obtain ⟨fields, hfields, h⟩ := bind_eq_ok.mp h
    obtain ⟨raw, hraw, h⟩ := bind_eq_ok.mp h
    rw [if_neg hcls, hfields]
    simp only [bind, Except.bind, hraw]
    split at h
    · next hunclassified =>
      obtain ⟨ev, hev, h⟩ := bind_eq_ok.mp h
      cases h
      obtain ⟨summary, hsummary, hev⟩ := bind_eq_ok.mp hev
      obtain ⟨reason, hreason, -⟩ := bind_eq_ok.mp hev
      have hblank : (deterministicBase eventId' vendorId unclassifiedConfidence).validate = .error .validationError :=
        validateBase_blank h' rfl
      simp only [if_pos hunclassified, extractUnclassified, bind, Except.bind, hsummary, hreason,
        CanonicalUnclassifiedEvent.validate, hblank]
    · next hentity =>
      rw [if_neg hentity]
      cases canonicalState with
      | none =>
        cases h
        rfl
      | some canonicalState =>
        simp only at h ⊢
        split at h
        · next hshipment =>
          obtain ⟨outcome, houtcome, h⟩ := bind_eq_ok.mp h
          cases h
          rw [if_pos hshipment, extractShipment, extractEntity_blank h' houtcome]
          cases outcome <;> rfl
        · next hnot =>
          split at h
          · next hinvoice =>
            obtain ⟨outcome, houtcome, h⟩ := bind_eq_ok.mp h
            cases h
            rw [if_neg hnot, if_pos hinvoice, extractInvoice, extractEntity_blank h' houtcome]
            cases outcome <;> rfl
          · next hinvoice =>
            cases h
            rw [if_neg hnot, if_neg hinvoice]
            rfl

end BlankId

end WebhookIngestion
