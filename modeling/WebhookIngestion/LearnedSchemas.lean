import WebhookIngestion.LessonLeaves
import WebhookIngestion.LLMUniversal
import WebhookIngestion.Normalizer

/-! # What a learned schema reproduces

Discovery validates a document by extracting the payload it was inferred from, and
checks that the extraction succeeds and that the external ids match loosely.  Whether
the extraction then says what the LLM said is a matter of the leaves that discovery goes by:
whether their places are legible, and whether they say it (`learned_schema_reproduces_iff`). -/
namespace WebhookIngestion
open Text Programs

/-! ### The LLM's event -/

/-- What an answer says that makes an event about an entity. -/
structure AnswersFor (env : Externals) (llmOutput : JsonObject) {k : EntityType}
    (ev : CanonicalEntityEvent k) (eventType : String) : Prop where
  classification : llmOutput.get "classification" = .str k.classification.value
  eventType_eq : llmOutput.get "event_type" = .str eventType
  eventType_ofValue : EventTypeOf.ofValue? k eventType = some ev.eventType
  entityExternalId : llmOutput.get "entity_external_id" = .str ev.entityExternalId
  eventTimestamp : ∃ ts, llmOutput.get "event_timestamp" = .str ts ∧
    parseTimestamp env ts = .ok ev.eventTimestamp
  base : ev.toCanonicalBase.validate = .ok ()
  dueAt : ∀ t, DetailOf.dueAt? ev.detail = some t → toUtc t = .ok t
  amount : k = .invoice → moneyField (llmOutput.get "amount") = .ok (DetailOf.amount? ev.detail)

theorem get_of_requireKey {data : JsonObject} {key : String} {value : Json}
    (h : requireKey data key = .ok value) : data.get key = value := by
  rw [requireKey] at h
  rw [JsonObject.get]
  split at h
  · rename_i found
    rw [found]
    exact Except.ok.inj h
  · cases h

theorem stringField_eq_ok {x : Json} {s : String} : stringField x = .ok s ↔ x = .str s := by
  cases x <;> simp [stringField]

theorem eventTypeField_eq_ok {k : EntityType} {x : Json} {type : EventTypeOf k}
    (h : eventTypeField k x = .ok type) : ∃ s, x = .str s ∧ EventTypeOf.ofValue? k s = some type := by
  cases x with
  | str s =>
    rw [eventTypeField] at h
    split at h
    · rename_i found
      cases h
      exact ⟨s, rfl, found⟩
    · cases h
  | _ => cases h

theorem parseTimestampField_eq_ok {env : Externals} {x : Json} {t : DateTime}
    (h : parseTimestampField env x = .ok t) : ∃ s, x = .str s ∧ parseTimestamp env s = .ok t := by
  cases x with
  | str s => exact ⟨s, rfl, h⟩
  | _ => cases h

/-- **The event built from an answer says what the answer says.** -/
theorem answersFor_of_buildCanonical {env : Externals} {eventId : String} {data : JsonObject}
    {source : Source} {k : EntityType} {ev : CanonicalEntityEvent k}
    (h : buildCanonical env eventId data source = .ok (.entity k ev)) :
    ∃ eventType, AnswersFor env data ev eventType := by
  simp only [buildCanonical, bind_eq_ok] at h
  obtain ⟨classification, hclassification, vendorId, hvendor, confidence, -, h⟩ := h
  have hget := get_of_requireKey hclassification
  split at h
  · rename_i hshipment
    subst hshipment
    simp only [bind_eq_ok] at h
    obtain ⟨ev', hev, h⟩ := h
    cases h
    simp only [buildShipment] at hev
    split at hev
    · cases hev
    · simp only [bind_eq_ok, CanonicalEntityEvent.validate_eq_ok] at hev
      obtain ⟨type, htype, ts, hts, location, -, base, -, id, hid, refs, -, raw, -, hbase, rfl⟩ := hev
      obtain ⟨s, hs, hvalue⟩ := eventTypeField_eq_ok htype
      exact ⟨s, hget, hs, hvalue, stringField_eq_ok.mp hid, parseTimestampField_eq_ok hts, hbase,
        nofun, nofun⟩
  · split at h
    · rename_i hinvoice
      subst hinvoice
      simp only [bind_eq_ok] at h
      obtain ⟨ev', hev, h⟩ := h
      cases h
      simp only [buildInvoice] at hev
      split at hev
      · cases hev
      · simp only [bind_eq_ok, CanonicalEntityEvent.validate_eq_ok] at hev
        obtain ⟨amount, hamount, dueAt, hdue, type, htype, ts, hts, base, -, id, hid, refs, -, raw, -,
          hbase, rfl⟩ := hev
        obtain ⟨s, hs, hvalue⟩ := eventTypeField_eq_ok htype
        refine ⟨s, hget, hs, hvalue, stringField_eq_ok.mp hid, parseTimestampField_eq_ok hts, hbase,
          fun t ht => ?_, fun _ => hamount⟩
        rw [dueAtField] at hdue
        split at hdue
        · obtain ⟨t', ht', rfl⟩ := map_eq_ok.mp hdue
          obtain ⟨s', -, hparse⟩ := parseTimestampField_eq_ok ht'
          cases ht
          exact parseTimestamp_utc hparse
        · cases hdue
          cases ht
    · simp only [bind_eq_ok] at h
      obtain ⟨ev', -, h⟩ := h
      cases h

/-! ### The fields of an inferred document -/

theorem lookup_fieldAt (key key' : String) (spec : Option Json) :
    (fieldAt key spec).lookup key' = if key' = key then spec else none := by
  cases spec with
  | none => simp [fieldAt]
  | some spec =>
    by_cases h : key' = key
    · simp [fieldAt, h]
    · rw [fieldAt, List.lookup_cons, beq_false_of_ne h, if_neg h]
      rfl

/-- The path discovery takes for a timestamp: where its text stands, else where a
timestamp of the same date does. -/
def timestampPath (env : Externals) (payload : JsonObject) (ts : String) : Option String :=
  (findValuePath env.toUnicode payload (.str ts)).or (findTimestampPath env.toUnicode payload ts)

theorem fieldSpec_of_path {u : Unicode} {payload : JsonObject} {key path : String} {value : Json}
    (h : findValuePath u payload value = some path) : fieldSpec u payload key value = some (.str path) := by
  simp only [fieldSpec, h]

theorem fieldSpec_id {u : Unicode} {payload : JsonObject} {id : String}
    (h : findValuePath u payload (.str id) = none) :
    fieldSpec u payload "entity_external_id" (.str id) =
      (inferCompositeTemplate u payload id).map fun template => .obj [("template", .str template)] := by
  simp only [fieldSpec, h, if_true]

theorem fieldSpec_timestamp (env : Externals) (payload : JsonObject) (ts : String) :
    fieldSpec env.toUnicode payload "event_timestamp" (.str ts) =
      (timestampPath env payload ts).map .str := by
  rw [timestampPath]
  cases h : findValuePath env.toUnicode payload (.str ts) with
  | some path => rw [fieldSpec_of_path h]; rfl
  | none =>
    simp only [fieldSpec, h]
    rfl

section Inferred
variable (u : Unicode) (payload llmOutput : JsonObject)

theorem lookup_inferFields_id (k : EntityType) :
    (inferFields u payload llmOutput k).lookup "entity_external_id" =
      fieldSpec u payload "entity_external_id" (llmOutput.get "entity_external_id") := by
  cases k <;>
  simp [inferFields, mapField, mapRawEventType, mapLocation, mapReferenceIds, mapAmount,
    mapLinkedReferences, nestedField, List.lookup_append, lookup_fieldAt, List.lookup_cons]

theorem lookup_inferFields_timestamp (k : EntityType) :
    (inferFields u payload llmOutput k).lookup "event_timestamp" =
      fieldSpec u payload "event_timestamp" (llmOutput.get "event_timestamp") := by
  cases k <;>
  simp [inferFields, mapField, mapRawEventType, mapLocation, mapReferenceIds, mapAmount,
    mapLinkedReferences, nestedField, List.lookup_append, lookup_fieldAt, List.lookup_cons]

theorem lookup_inferFields_amount :
    (inferFields u payload llmOutput .invoice).lookup "amount" =
      (mapAmount payload (llmOutput.get "amount")).lookup "amount" := by
  simp [inferFields, mapField, mapRawEventType, mapAmount,
    mapLinkedReferences, nestedField, List.lookup_append, lookup_fieldAt, List.lookup_cons]

end Inferred

/-! ### Reading a document back -/

/-- What a successful reading read. -/
structure ReadAt (env : Externals) {k : EntityType} (payload fields : JsonObject) (canonicalState : String)
    (reading : EntityReading k) : Prop where
  entityExternalId : resolveEntityId env.toUnicode payload fields = .ok (some reading.entityExternalId)
  eventTimestamp : ∃ tsRaw, resolveField env.toUnicode payload (fields.get "event_timestamp") = .ok tsRaw ∧
    tsRaw.truthy = true ∧ parseTimestamp env (tsRaw.text env.toUnicode) = .ok reading.eventTimestamp
  eventType : EventTypeOf.ofValue? k canonicalState = some reading.eventType
  detail : extractDetail env payload fields k = .ok reading.detail

theorem orNone_eq_some {α : Type} {expected : PyError → Bool} {x : Except PyError α} {a : α} :
    orNone expected x = .ok (some a) ↔ x = .ok a := by
  cases x with
  | ok b => simp [orNone]
  | error e =>
    rw [orNone]
    split <;> simp

theorem readAt_of_readEntity {env : Externals} {k : EntityType} {payload fields : JsonObject}
    {canonicalState : String} {reading : EntityReading k}
    (h : readEntity env k payload fields canonicalState = .ok (.ok reading)) :
    ReadAt env payload fields canonicalState reading := by
  simp only [readEntity, bind_eq_ok] at h
  obtain ⟨extId, hextId, tsRaw, htsRaw, h⟩ := h
  split at h
  · cases h
  · rename_i hmissing
    have htruthy : tsRaw.truthy = true := by
      by_contra hfalsy
      simp [missingFields, hfalsy] at hmissing
    have hid : extId = some (extId.getD "") := by
      cases extId with
      | none => simp [missingFields] at hmissing
      | some id => rfl
    obtain ⟨ts, hts, h⟩ := bind_eq_ok.mp h
    cases ts with
    | none => cases h
    | some ts =>
      have hparse := orNone_eq_some.mp hts
      simp only at h
      split at h
      · cases h
      · rename_i type htype
        obtain ⟨detail, hdetail, h⟩ := bind_eq_ok.mp h
        cases h
        exact ⟨hid ▸ hextId, ⟨tsRaw, htsRaw, htruthy, hparse⟩, htype, hdetail⟩

/-- **The events an extraction gives**, and what it read for them. -/
inductive ExtractedAs (env : Externals) (payload : JsonObject) (eventId vendorId : String) (schemaDoc : JsonObject)
    (classification : Option String) : Option String → CanonicalEvent → Prop
  | entity {k : EntityType} {canonicalState : String} {fields : JsonObject} {reading : EntityReading k}
      (hclass : schemaClassification schemaDoc classification = .str k.classification.value)
      (hfields : schemaFields schemaDoc = .ok fields) (hread : ReadAt env payload fields canonicalState reading)
      (hbase : (reading.event eventId vendorId).toCanonicalBase.validate = .ok ()) :
      ExtractedAs env payload eventId vendorId schemaDoc classification (some canonicalState)
        (.entity k (reading.event eventId vendorId))
  | unclassified {canonicalState : Option String} {ev : CanonicalUnclassifiedEvent}
      (hclass : schemaClassification schemaDoc classification = .str Classification.unclassified.value)
      (hev : ev.toCanonicalBase = deterministicBase eventId vendorId unclassifiedConfidence)
      (hbase : ev.toCanonicalBase.validate = .ok ()) :
      ExtractedAs env payload eventId vendorId schemaDoc classification canonicalState (.unclassified ev)

theorem extractedAs_of_extract {env : Externals} {payload : JsonObject} {eventId vendorId : String}
    {schemaDoc : JsonObject} {canonicalState classification rawEventType : Option String} {event : CanonicalEvent}
    (h : extract env payload eventId vendorId schemaDoc canonicalState classification =
      .ok ⟨rawEventType, .ok event⟩) :
    ExtractedAs env payload eventId vendorId schemaDoc classification canonicalState event := by
  have hentity : ∀ {k : EntityType} {fields : JsonObject} {state : String}
      {result : Except ExtractionError (CanonicalEntityEvent k)},
      schemaClassification schemaDoc classification = .str k.classification.value →
        schemaFields schemaDoc = .ok fields → extractEntity env k payload eventId vendorId fields state = .ok result →
          result.map (CanonicalEvent.entity k) = .ok event →
            ExtractedAs env payload eventId vendorId schemaDoc classification (some state) event := by
    intro k fields state result hclass hfields hresult hevent
    obtain ⟨outcome, hread, hresult⟩ := bind_eq_ok.mp hresult
    cases outcome with
    | error e =>
      cases hresult
      cases hevent
    | ok reading =>
      obtain ⟨ev, hev, hresult⟩ := bind_eq_ok.mp hresult
      obtain ⟨hbase, rfl⟩ := CanonicalEntityEvent.validate_eq_ok.mp hev
      cases hresult
      cases hevent
      exact .entity hclass hfields (readAt_of_readEntity hread) hbase
  simp only [extract] at h
  split at h
  · cases h
  · simp only [bind_eq_ok] at h
    obtain ⟨fields, hfields, raw, -, h⟩ := h
    split at h
    · rename_i hunclassified
      simp only [bind_eq_ok, extractUnclassified, CanonicalUnclassifiedEvent.validate] at h
      obtain ⟨ev, ⟨_, -, _, -, _, hbase, hev⟩, h⟩ := h
      cases hev
      cases h
      exact .unclassified hunclassified rfl hbase
    · split at h
      · cases h
      · split at h
        · rename_i hshipment
          obtain ⟨result, hresult, h⟩ := bind_eq_ok.mp h
          exact hentity (k := .shipment) hshipment hfields hresult (congrArg ExtractionResult.event (Except.ok.inj h))
        · split at h
          · rename_i hinvoice
            obtain ⟨result, hresult, h⟩ := bind_eq_ok.mp h
            exact hentity (k := .invoice) hinvoice hfields hresult (congrArg ExtractionResult.event (Except.ok.inj h))
          · cases h

/-- A document for an entity extracts an entity of its kind. -/
theorem extract_schemaDocument (env : Externals) (k : EntityType) (payload fields : JsonObject)
    (eventId vendorId canonicalState : String) :
    extract env payload eventId vendorId (schemaDocument k.classification fields) (some canonicalState) none =
      (do
        let raw ← resolveField env.toUnicode payload (fields.get "event_type")
        let result ← extractEntity env k payload eventId vendorId fields canonicalState
        return ⟨raw.textIfTruthy env.toUnicode, result.map (.entity k)⟩) := by
  cases k <;> rfl

/-- An extraction that succeeds is the event of a reading. -/
theorem readAt_of_extract {env : Externals} {k : EntityType} {payload fields : JsonObject}
    {eventId vendorId canonicalState : String} {result : ExtractionResult} {event : CanonicalEvent}
    (h : extract env payload eventId vendorId (schemaDocument k.classification fields)
      (some canonicalState) none = .ok result) (hevent : result.event = .ok event) :
    ∃ reading : EntityReading k, event = .entity k (reading.event eventId vendorId) ∧
      ReadAt env payload fields canonicalState reading ∧
      (reading.event eventId vendorId).toCanonicalBase.validate = .ok () := by
  rw [extract_schemaDocument] at h
  simp only [bind_eq_ok] at h
  obtain ⟨raw, -, outcome, houtcome, h⟩ := h
  cases h
  simp only [extractEntity, bind_eq_ok] at houtcome
  obtain ⟨readOutcome, hread, h⟩ := houtcome
  cases readOutcome with
  | error e =>
    cases h
    cases hevent
  | ok reading =>
    obtain ⟨ev, hev, h⟩ := bind_eq_ok.mp h
    cases h
    obtain ⟨hbase, rfl⟩ := CanonicalEntityEvent.validate_eq_ok.mp hev
    cases hevent
    exact ⟨reading, rfl, readAt_of_readEntity hread, hbase⟩

/-- **A document that discovery goes on to persist extracts the payload it was learned from.** -/
theorem extract_of_discoverSchema {env : Externals} {payload llmOutput schemaDoc : JsonObject}
    {eventId vendorId eventType : String} {k : EntityType} {ev : CanonicalEntityEvent k}
    (hanswer : AnswersFor env llmOutput ev eventType)
    (h : discoverSchema env payload eventId vendorId llmOutput = .ok (some schemaDoc)) :
    schemaDoc = schemaDocument k.classification (inferFields env.toUnicode payload llmOutput k) ∧
      ∃ result event, extract env payload eventId vendorId schemaDoc (some eventType) none = .ok result ∧
        result.event = .ok event := by
  rw [discoverSchema, hanswer.classification] at h
  have hinfer : inferSchemaDoc env.toUnicode payload llmOutput (.str k.classification.value) =
      inferEntityDoc env.toUnicode payload llmOutput k := by cases k <;> rfl
  have htruthy : (Json.str k.classification.value).truthy = true := by cases k <;> rfl
  simp only [htruthy, hinfer, Bool.not_true, Bool.false_eq_true, if_false] at h
  cases hdoc : inferEntityDoc env.toUnicode payload llmOutput k with
  | none =>
    rw [hdoc] at h
    cases h
  | some doc =>
    rw [hdoc] at h
    obtain ⟨valid, hvalid, h⟩ := bind_eq_ok.mp h
    cases valid with
    | false => cases h
    | true =>
      cases h
      rw [inferEntityDoc] at hdoc
      split at hdoc
      · cases hdoc
      · cases hdoc
        refine ⟨rfl, ?_⟩
        have hclass : (schemaDocument k.classification
            (inferFields env.toUnicode payload llmOutput k)).get "classification" ≠ .str "unclassified" := by
          cases k <;> simp [schemaDocument, JsonObject.get, EntityType.classification, Classification.value]
        rw [validateSchema, if_neg hclass, hanswer.eventType_eq] at hvalid
        simp only at hvalid
        split at hvalid
        · cases hvalid
        · obtain ⟨result, hresult, hvalid⟩ := bind_eq_ok.mp hvalid
          split at hvalid
          · cases hvalid
          · rename_i event hevent
            exact ⟨result, event, hresult, hevent⟩

/-! ### Reading the lesson back -/

section ReadsBack
variable (env : Externals) (payload : JsonObject)

/-- **The id comes back**: the first leaf with its text is read as a value of the same text, or,
where there is none, the leaves with its parts are read as the id. -/
def ReadsBackId (id : String) : Prop :=
  (∃ loc leaf y, FirstMatch env.toUnicode payload (.str id) loc leaf ∧ ReadAs env.toUnicode payload loc y ∧
    strip (y.text env.toUnicode) = strip id) ∨
  (∀ loc leaf, ¬ FirstMatch env.toUnicode payload (.str id) loc leaf) ∧
    ∃ sep locs text, CompositeAt env.toUnicode payload id.toList sep locs ∧
      CompositeReads env.toUnicode payload sep locs text ∧ strip (String.ofList text) = strip id

/-- **The timestamp comes back**: its leaf is read as a text of the same instant. -/
def ReadsBackTimestamp (ts : String) : Prop :=
  ∃ loc leaf y t t', TimestampLeaf env.toUnicode payload ts loc leaf ∧ ReadAs env.toUnicode payload loc y ∧
    parseTimestamp env (y.text env.toUnicode) = .ok t ∧ parseTimestamp env ts = .ok t' ∧ t.instant = t'.instant

/-- **The amount comes back**: the first text with the currency is read as one of the amount. -/
def ReadsBackAmount (money : Money) : Prop :=
  ∃ loc leaf y, FirstLeaf (fun _ _ => true) (isTextOfCurrency money.currency) payload loc leaf ∧
    ReadAs env.toUnicode payload loc y ∧ y.truthy = true ∧
    parseMoney env (y.text env.toUnicode) = .ok (money.currency, money.amountMinor)

end ReadsBack

theorem ne_null_of_truthy {x : Json} (h : x.truthy = true) : x ≠ .null := by
  rintro rfl
  cases h

/-- `Money(…)` of money's own currency and amount. -/
theorem Money.validate_eq_ok {currency : String} {amountMinor : Int} {money : Money} :
    Money.validate currency amountMinor = .ok money ↔
      currency = money.currency ∧ amountMinor = money.amountMinor := by
  unfold Money.validate
  constructor
  · intro h
    split at h
    · split at h
      · cases h
      · rename_i hnonneg
        cases h
        exact ⟨rfl, by simp only; omega⟩
    · cases h
  · rintro ⟨rfl, rfl⟩
    rw [dif_pos money.currency_ok, if_neg (by omega)]
    rfl

section Fields
variable {env : Externals} {payload llmOutput : JsonObject} {k : EntityType}
  {ev : CanonicalEntityEvent k} {eventType : String} {reading : EntityReading k}
  (hdicts : (Json.obj payload).Dicts)
  (hread : ReadAt env payload (inferFields env.toUnicode payload llmOutput k) eventType reading)
include hdicts hread

/-- The id read is the LLM's, up to surrounding space, just when the id comes back. -/
theorem readsBackId_iff (hanswer : AnswersFor env llmOutput ev eventType) :
    ReadsBackId env payload ev.entityExternalId ↔
      strip reading.entityExternalId = strip ev.entityExternalId := by
  have hvalue : Json.str ev.entityExternalId ≠ .null := fun h => by cases h
  have hid := hread.entityExternalId
  rw [resolveEntityId, JsonObject.get, lookup_inferFields_id, hanswer.entityExternalId] at hid
  cases hpath : findValuePath env.toUnicode payload (.str ev.entityExternalId) with
  | some path =>
    obtain ⟨loc, leaf, hfirst, rfl⟩ := (findValuePath_eq_some hvalue).mp hpath
    obtain ⟨hloc, hleaf, -, -⟩ := hfirst.matches hdicts
    rw [fieldSpec_of_path hpath] at hid
    obtain ⟨val, hval, htext⟩ := bind_eq_ok.mp hid
    have htext := Except.ok.inj htext
    rw [Json.textIfTruthy] at htext
    split at htext
    · rename_i htruthy
      have htext := Option.some.inj htext
      constructor
      · rintro (⟨loc', leaf', y, hfirst', hreads, hstrip⟩ | ⟨hnone, -⟩)
        · obtain ⟨rfl, rfl⟩ := hfirst.unique hfirst'
          obtain ⟨-, hy⟩ := (readAs_iff hleaf hloc).mp hreads
          cases hval.symm.trans hy
          rw [← htext]
          exact hstrip
        · exact absurd hfirst (hnone loc leaf)
      · intro hstrip
        exact .inl ⟨loc, leaf, val, hfirst, (readAs_iff hleaf hloc).mpr ⟨ne_null_of_truthy htruthy, hval⟩,
          by rw [htext]; exact hstrip⟩
    · cases htext
  | none =>
    have hnone (loc : Place) (leaf : Json) :
        ¬ FirstMatch env.toUnicode payload (.str ev.entityExternalId) loc leaf := by
      intro hfirst
      rw [(findValuePath_eq_some hvalue).mpr ⟨loc, leaf, hfirst, rfl⟩] at hpath
      cases hpath
    rw [fieldSpec_id hpath] at hid
    cases htemplate : inferCompositeTemplate env.toUnicode payload ev.entityExternalId with
    | none =>
      rw [htemplate] at hid
      cases hid
    | some template =>
      obtain ⟨sep, locs, hcomposite, rfl⟩ := inferCompositeTemplate_eq_some.mp htemplate
      rw [htemplate] at hid
      simp only [Option.map_some, Option.getD_some, templateOf_template] at hid
      split at hid
      · rename_i found
        split at found
        · cases found
        · cases found
          constructor
          · rintro (⟨loc, leaf, y, hfirst, -⟩ | ⟨-, sep', locs', text, hcomposite', hreads, hstrip⟩)
            · exact absurd hfirst (hnone loc leaf)
            · -- both are the template that was inferred
              have hsame := inferCompositeTemplate_eq_some.mpr ⟨sep', locs', hcomposite', rfl⟩
              rw [htemplate, Option.some.injEq] at hsame
              rw [hsame] at hid
              rw [(compositeReads_iff hdicts hcomposite' hid).mp hreads, String.ofList_toList] at hstrip
              exact hstrip
          · intro hstrip
            refine .inr ⟨hnone, sep, locs, reading.entityExternalId.toList, hcomposite, ?_, ?_⟩
            · exact (compositeReads_iff hdicts hcomposite hid).mpr rfl
            · rw [String.ofList_toList]
              exact hstrip
      · cases hid

/-- The timestamp read is the LLM's instant just when the timestamp comes back. -/
theorem readsBackTimestamp_iff {ts : String} (hts : llmOutput.get "event_timestamp" = .str ts)
    (hparse : parseTimestamp env ts = .ok ev.eventTimestamp) :
    ReadsBackTimestamp env payload ts ↔
      reading.eventTimestamp.instant = ev.eventTimestamp.instant := by
  obtain ⟨tsRaw, htsRaw, htruthy, hraw⟩ := hread.eventTimestamp
  rw [JsonObject.get, lookup_inferFields_timestamp, hts, fieldSpec_timestamp, timestampPath] at htsRaw
  constructor
  · rintro ⟨loc, leaf, y, t, t', hstamp, hreads, ht, ht', hinstant⟩
    obtain ⟨hloc, hleaf⟩ := hstamp.nodeAt hdicts
    obtain ⟨-, hy⟩ := (readAs_iff hleaf hloc).mp hreads
    rw [timestampPath_eq_some.mpr ⟨loc, leaf, hstamp, rfl⟩] at htsRaw
    cases hy.symm.trans htsRaw
    cases hraw.symm.trans ht
    cases hparse.symm.trans ht'
    exact hinstant
  · intro hinstant
    cases hpath : (findValuePath env.toUnicode payload (.str ts)).or (findTimestampPath env.toUnicode payload ts) with
    | none =>
      -- a document without a path reads nothing
      rw [hpath] at htsRaw
      cases htsRaw
      cases htruthy
    | some path =>
      obtain ⟨loc, leaf, hstamp, rfl⟩ := timestampPath_eq_some.mp hpath
      obtain ⟨hloc, hleaf⟩ := hstamp.nodeAt hdicts
      rw [hpath] at htsRaw
      exact ⟨loc, leaf, tsRaw, _, _, hstamp,
        (readAs_iff hleaf hloc).mpr ⟨ne_null_of_truthy htruthy, htsRaw⟩, hraw, hparse, hinstant⟩

end Fields

/-- An answer's amount that is read is an object with the money's currency. -/
theorem currency_of_moneyField {x : Json} {money : Money} (h : moneyField x = .ok (some money)) :
    ∃ fields : JsonObject, x = .obj fields ∧ fields.get "currency" = .str money.currency := by
  cases x with
  | obj fields =>
    simp only [moneyField, bind_eq_ok] at h
    obtain ⟨-, -, currency, hcurrency, h⟩ := h
    split at h
    · obtain ⟨money', hmoney, h⟩ := bind_eq_ok.mp h
      cases h
      rw [Money.validate_eq_ok] at hmoney
      exact ⟨fields, rfl, hmoney.1 ▸ stringField_eq_ok.mp hcurrency⟩
    · cases h
  | null | bool | int | float | str | arr => cases h

/-- The amount read is the LLM's just when the amount comes back. -/
theorem readsBackAmount_iff {env : Externals} {payload llmOutput : JsonObject} {money : Money}
    {amount : Option Money} (hdicts : (Json.obj payload).Dicts)
    (hmoney : moneyField (llmOutput.get "amount") = .ok (some money))
    (hamount : extractAmount env payload
      ((inferFields env.toUnicode payload llmOutput .invoice).get "amount") = .ok amount) :
    ReadsBackAmount env payload money ↔ amount = some money := by
  obtain ⟨fields, hfields, hcurrency⟩ := currency_of_moneyField hmoney
  have hne : fields ≠ [] := by
    rintro rfl
    cases hcurrency
  have hnested : nestedSpec (.obj fields) = some fields := by
    simp [nestedSpec, Json.truthy, hne, Json.asObject?]
  have hcode : money.currency ≠ "" := by
    intro h
    have hok := money.currency_ok
    rw [h] at hok
    exact absurd hok (by decide)
  rw [JsonObject.get, lookup_inferFields_amount, hfields, mapAmount, lookup_fieldAt, if_pos rfl, hnested] at hamount
  simp only [hcurrency] at hamount
  cases hpath : findMoneyPath payload money.currency with
  | none =>
    rw [hpath] at hamount
    cases hamount
    refine iff_of_false ?_ (fun h => by cases h)
    rintro ⟨loc, leaf, y, hfirst, -⟩
    rw [(findMoneyPath_eq_some hcode).mpr ⟨loc, leaf, hfirst, rfl⟩] at hpath
    cases hpath
  | some path =>
    obtain ⟨loc, leaf, hfirst, rfl⟩ := (findMoneyPath_eq_some hcode).mp hpath
    obtain ⟨hloc, hleaf, -⟩ := FirstLeaf.nodeAt hdicts hfirst
    -- what the amount's leaf is read as is what the path resolves to
    have hresolves : ReadsBackAmount env payload money ↔ ∃ y,
        (y ≠ .null ∧ resolvePath env.toUnicode payload (.str loc.path) = .ok y) ∧ y.truthy = true ∧
          parseMoney env (y.text env.toUnicode) = .ok (money.currency, money.amountMinor) := by
      constructor
      · rintro ⟨loc', leaf', y, hfirst', hreads, htruthy, hparse⟩
        obtain ⟨rfl, rfl⟩ := FirstLeaf.unique hfirst hfirst'
        exact ⟨y, (readAs_iff hleaf hloc).mp hreads, htruthy, hparse⟩
      · rintro ⟨y, hy, htruthy, hparse⟩
        exact ⟨loc, leaf, y, hfirst, (readAs_iff hleaf hloc).mpr hy, htruthy, hparse⟩
    rw [hpath] at hamount
    obtain ⟨val, hval, hamount⟩ := bind_eq_ok.mp hamount
    rw [hresolves]
    split at hamount
    · rename_i hfalsy
      cases hamount
      refine iff_of_false ?_ (fun h => by cases h)
      rintro ⟨y, ⟨-, hy⟩, htruthy, -⟩
      cases hval.symm.trans hy
      rw [htruthy] at hfalsy
      cases hfalsy
    · rename_i htruthy
      constructor
      · rintro ⟨y, ⟨-, hy⟩, -, hparse⟩
        cases hval.symm.trans hy
        have hvalid : Money.validate money.currency money.amountMinor = .ok money :=
          Money.validate_eq_ok.mpr ⟨rfl, rfl⟩
        simp only [hparse, bind, Except.bind, hvalid] at hamount
        exact (Except.ok.inj hamount).symm
      · rintro rfl
        obtain ⟨⟨currency, amountMinor⟩, hparse, hvalid⟩ := bind_eq_ok.mp (orNone_eq_some.mp hamount)
        obtain ⟨rfl, rfl⟩ := Money.validate_eq_ok.mp hvalid
        have htruthy : val.truthy = true := by simpa using htruthy
        exact ⟨val, ⟨ne_null_of_truthy htruthy, hval⟩, htruthy, hparse⟩

/-! ### The lesson -/

/-- The instant of an event about an entity. -/
def CanonicalEvent.instant? : CanonicalEvent → Option Int
  | .entity _ ev => some ev.eventTimestamp.instant
  | .unclassified _ => none

/-- The amount of an invoice event. -/
def CanonicalEvent.amount? : CanonicalEvent → Option Money
  | .entity _ ev => DetailOf.amount? ev.detail
  | .unclassified _ => none

/-- **The document reproduces the lesson**: extracting the payload with the LLM's event
type succeeds, and normalized it has the external id, the instant and, where the LLM
gave one, the amount of the normalized event built from the answer. -/
def Reproduces (env : Externals) (payload : JsonObject) (eventId vendorId : String)
    (schemaDoc : JsonObject) (eventType : String) (lesson : CanonicalEvent) : Prop :=
  ∃ result extracted extracted' lesson',
    extract env payload eventId vendorId schemaDoc (some eventType) none = .ok result ∧
    result.event = .ok extracted ∧
    normalize extracted = .ok extracted' ∧ normalize lesson = .ok lesson' ∧
    extracted'.entityExternalId? = lesson'.entityExternalId? ∧
    extracted'.instant? = lesson'.instant? ∧
    ∀ money, lesson'.amount? = some money → extracted'.amount? = some money

/-- An extracted due date is in UTC. -/
theorem dueAt_of_extractDetail {env : Externals} {payload fields : JsonObject} :
    ∀ {k : EntityType} {detail : DetailOf k}, extractDetail env payload fields k = .ok detail →
      ∀ t, DetailOf.dueAt? detail = some t → toUtc t = .ok t
  | .shipment, _, _, _, ht => nomatch ht
  | .invoice, detail, h, t, ht => by
    simp only [extractDetail, bind_eq_ok] at h
    obtain ⟨amount, -, dueRaw, -, dueAt, hdue, refs, -, raw, -, h⟩ := h
    cases h
    rw [extractDueAt] at hdue
    split at hdue
    · cases ht
      exact parseTimestamp_utc (orNone_eq_some.mp hdue)
    · cases hdue
      cases ht

/-- The amount of an extracted invoice is the one read at the amount's path. -/
theorem amount_of_extractDetail {env : Externals} {payload fields : JsonObject} {detail : InvoiceDetail}
    (h : extractDetail env payload fields .invoice = .ok detail) :
    extractAmount env payload (fields.get "amount") = .ok detail.amount := by
  simp only [extractDetail, bind_eq_ok] at h
  obtain ⟨amount, hamount, dueRaw, -, dueAt, -, refs, -, raw, -, h⟩ := h
  cases h
  exact hamount

/-- **A schema that discovery goes on to persist reproduces the lesson exactly when the leaves it
was learned from are read as the LLM's values**: those with the id's text or parts as the id, the one
with the timestamp's text or date as its instant, and the first with the currency as the amount. -/
theorem learned_schema_reproduces_iff {env : Externals} {payload llmOutput schemaDoc : JsonObject}
    {eventId vendorId ts eventType : String} {source : Source} {k : EntityType}
    {ev : CanonicalEntityEvent k} (hdicts : (Json.obj payload).Dicts)
    (hbuild : buildCanonical env eventId llmOutput source = .ok (.entity k ev))
    (htype : llmOutput.get "event_type" = .str eventType)
    (hts : llmOutput.get "event_timestamp" = .str ts)
    (hdiscover : discoverSchema env payload eventId vendorId llmOutput = .ok (some schemaDoc)) :
    Reproduces env payload eventId vendorId schemaDoc eventType (.entity k ev) ↔
      ReadsBackId env payload ev.entityExternalId ∧ ReadsBackTimestamp env payload ts ∧
        ∀ money, DetailOf.amount? ev.detail = some money → ReadsBackAmount env payload money := by
  obtain ⟨eventType', hanswer⟩ := answersFor_of_buildCanonical hbuild
  cases htype.symm.trans hanswer.eventType_eq
  obtain ⟨ts', hts', hparse⟩ := hanswer.eventTimestamp
  cases hts.symm.trans hts'
  obtain ⟨rfl, result, event, hresult, hevent⟩ := extract_of_discoverSchema hanswer hdiscover
  obtain ⟨reading, rfl, hread, hbase⟩ := readAt_of_extract hresult hevent
  obtain ⟨tsRaw, -, -, hraw⟩ := hread.eventTimestamp
  -- both events can be normalized
  obtain ⟨extracted, hextracted, hnormal⟩ := @exists_normalized _
    (reading.event eventId vendorId) hbase (parseTimestamp_utc hraw)
    (dueAt_of_extractDetail hread.detail)
  obtain ⟨lesson, hlesson, hnormal'⟩ := exists_normalized hanswer.base (parseTimestamp_utc hparse) hanswer.dueAt
  have hid := readsBackId_iff hdicts hread hanswer
  have hinstant := readsBackTimestamp_iff hdicts hread hts hparse
  have hamount : (∀ money, DetailOf.amount? ev.detail = some money →
      DetailOf.amount? reading.detail = some money) ↔
      ∀ money, DetailOf.amount? ev.detail = some money → ReadsBackAmount env payload money := by
    cases k with
    | shipment => exact ⟨fun _ _ h => (nomatch h), fun _ _ h => (nomatch h)⟩
    | invoice =>
      have hmoney := hanswer.amount rfl
      refine forall₂_congr fun money hev => ?_
      rw [hev] at hmoney
      exact (readsBackAmount_iff hdicts hmoney (amount_of_extractDetail hread.detail)).symm
  rw [hid, hinstant, ← hamount]
  constructor
  · rintro ⟨result', extracted₀, extracted', lesson', hresult', hevent', hext', hlesson', hids, hinstants, hamounts⟩
    cases hresult.symm.trans hresult'
    cases hevent.symm.trans hevent'
    cases hextracted.symm.trans hext'
    cases hlesson.symm.trans hlesson'
    simp only [CanonicalEvent.entityExternalId?, CanonicalEvent.instant?, CanonicalEvent.amount?,
      Option.some.injEq, hnormal.entityExternalId, hnormal'.entityExternalId, hnormal.eventTimestamp,
      hnormal'.eventTimestamp, hnormal.amount, hnormal'.amount] at hids hinstants hamounts
    exact ⟨hids, hinstants, hamounts⟩
  · rintro ⟨hids, hinstants, hamounts⟩
    refine ⟨result, _, _, _, hresult, hevent, hextracted, hlesson, ?_⟩
    simp only [CanonicalEvent.entityExternalId?, CanonicalEvent.instant?, CanonicalEvent.amount?,
      Option.some.injEq, hnormal.entityExternalId, hnormal'.entityExternalId, hnormal.eventTimestamp,
      hnormal'.eventTimestamp, hnormal.amount, hnormal'.amount]
    exact ⟨hids, hinstants, hamounts⟩

/-! ### An invoice that was created when it was issued, and one that was not -/

/-- The document learned from either payload. -/
def issuedSchema : JsonObject :=
  schemaDocument .invoice [("entity_external_id", .str "$.doc_ref"), ("event_timestamp", .str "$.created_at"),
    ("event_type", .str "$.kind"), ("raw_kind", .str "$.kind"), ("amount", .str "$.total")]

/-- Where the invoice was created as it was issued, the lesson is reproduced. -/
theorem issued_when_created_reproduces :
    Reproduces april28Runtime (issuedPayload "INV-1" "2026-04-28T05:00:00Z") "e1" "globalfreightpay" issuedSchema
      "invoice.issued" (.entity .invoice (issuedEvent "e1" .llm 1 5)) := by
  have hbuild : buildCanonical april28Runtime "e1" (issuedAnswer ["issued"]) .llm =
      .ok (.entity .invoice (issuedEvent "e1" .llm 1 5)) := by decide +kernel
  have hdiscover : discoverSchema april28Runtime (issuedPayload "INV-1" "2026-04-28T05:00:00Z") "e1"
      "globalfreightpay" (issuedAnswer ["issued"]) = .ok (some issuedSchema) := by decide +kernel
  have hdicts : (Json.obj (issuedPayload "INV-1" "2026-04-28T05:00:00Z")).Dicts :=
    Json.dicts_of_everyObject (by decide +kernel)
  -- a leaf under a key of the payload is read as it stands
  have hread {k : String} {leaf : Json} (hk : keyAlone k = true) (hne : leaf ≠ .null)
      (hloc : (Json.obj (issuedPayload "INV-1" "2026-04-28T05:00:00Z")).nodeAt [.key k] = some leaf) :
      ReadAs april28Runtime.toUnicode (issuedPayload "INV-1" "2026-04-28T05:00:00Z") [.key k] leaf :=
    ⟨hne, _, .itself (by simp [Place.legible, hk]), hloc⟩
  refine (learned_schema_reproduces_iff hdicts hbuild rfl rfl hdiscover).mpr ⟨.inl ?_, ?_, ?_⟩
  · exact ⟨[.key "doc_ref"], .str "INV-1", .str "INV-1", ⟨[], [], by decide +kernel, by simp, by simp⟩,
      hread (by decide) (by decide) (by decide +kernel), rfl⟩
  · exact ⟨[.key "created_at"], .str "2026-04-28T05:00:00Z", .str "2026-04-28T05:00:00Z", ⟨april28 5, 0⟩,
      ⟨april28 5, 0⟩, .text ⟨[], [], by decide +kernel, by simp, by simp⟩,
      hread (by decide) (by decide) (by decide +kernel), by decide +kernel, by decide +kernel, rfl⟩
  · rintro money ⟨⟩
    exact ⟨[.key "total"], .str "EUR 24.350,75", .str "EUR 24.350,75", ⟨[], [], by decide +kernel, by simp, by simp⟩,
      hread (by decide) (by decide) (by decide +kernel), by decide, by decide +kernel⟩

/-- **A persisted schema may read another time than the LLM did**: the answer satisfies
the target schema, discovery persists a document, and the payload extracted with it
was issued when the record was created. -/
theorem learned_schema_may_misread :
    matchesTarget (issuedAnswer ["issued"]) = true ∧
    buildCanonical april28Runtime "e1" (issuedAnswer ["issued"]) .llm =
      .ok (.entity .invoice (issuedEvent "e1" .llm 1 5)) ∧
    discoverSchema april28Runtime (issuedPayload "INV-1" "2026-04-28T01:00:00Z") "e1" "globalfreightpay"
      (issuedAnswer ["issued"]) = .ok (some issuedSchema) ∧
    ¬ Reproduces april28Runtime (issuedPayload "INV-1" "2026-04-28T01:00:00Z") "e1" "globalfreightpay" issuedSchema
      "invoice.issued" (.entity .invoice (issuedEvent "e1" .llm 1 5)) := by
  refine ⟨by decide +kernel, by decide +kernel, by decide +kernel, ?_⟩
  rintro ⟨result, extracted, extracted', lesson', hresult, hevent, hextracted, hlesson, -, hinstant, -⟩
  have hread : extract april28Runtime (issuedPayload "INV-1" "2026-04-28T01:00:00Z") "e1" "globalfreightpay"
      issuedSchema (some "invoice.issued") none =
      .ok ⟨some "issued", .ok (.entity .invoice (issuedEvent "e1" .deterministic entityConfidence 1))⟩ := by
    decide +kernel
  cases hread.symm.trans hresult
  cases hevent
  have hread' : normalize (.entity .invoice (issuedEvent "e1" .deterministic entityConfidence 1)) =
      .ok (.entity .invoice (issuedEvent "e1" .deterministic entityConfidence 1)) := by decide +kernel
  have hlesson' : normalize (.entity .invoice (issuedEvent "e1" .llm 1 5)) =
      .ok (.entity .invoice (issuedEvent "e1" .llm 1 5)) := by decide +kernel
  cases hread'.symm.trans hextracted
  cases hlesson'.symm.trans hlesson
  revert hinstant
  decide

end WebhookIngestion
