import WebhookIngestion.ExtractionFailures
import WebhookIngestion.SureDrafts

/-! # Which failures are reported

`extract` and `LLMUniversalAdapter.normalize` are to answer with a result whatever they are
given.  Both do unless something is raised that neither expects: for `extract` the exact
condition on the payload is `Extractable`, for every document that discovery goes on to
persist; for `normalize` it is `AnswerInCalendar`, on the answer. -/
namespace WebhookIngestion
open Text Programs

/-! ### Documents that discovery persists -/

/-- An entry of a document's fields as discovery writes it. -/
def LearnedEntry (entry : String × Json) : Prop :=
  if entry.1 ∈ nestedFields then NestedSpec entry.2 else FieldSpec entry.2

section Learned
variable {u : Unicode} {payload llmOutput : JsonObject}

theorem learnedFields_of_entries {fields : JsonObject} (h : ∀ entry ∈ fields, LearnedEntry entry) :
    LearnedFields fields := by
  have hentry : ∀ key, fields.get key = .null ∨ LearnedEntry (key, fields.get key) := by
    intro key
    rw [JsonObject.get]
    cases hkey : fields.lookup key with
    | none => exact .inl rfl
    | some spec => exact .inr (h _ (mem_of_lookup hkey))
  constructor
  · intro key hkey
    rcases hentry key with hnull | hlearned
    · rw [hnull]
      exact .absent
    · rwa [LearnedEntry, if_neg hkey] at hlearned
  · intro key hkey
    rcases hentry key with hnull | hlearned
    · rw [hnull]
      exact .absent
    · rwa [LearnedEntry, if_pos hkey] at hlearned

theorem learned_fieldAt {key : String} {spec : Option Json} (h : ∀ s, spec = some s → LearnedEntry (key, s)) :
    ∀ entry ∈ fieldAt key spec, LearnedEntry entry := by
  intro entry hentry
  cases spec with
  | none => cases hentry
  | some s =>
    cases List.mem_singleton.mp hentry
    exact h s rfl

/-- A field that names one path at most. -/
theorem learned_path {key : String} (hkey : key ∉ nestedFields) (path : Option String) :
    ∀ entry ∈ fieldAt key (path.map .str), LearnedEntry entry := by
  refine learned_fieldAt fun s hs => ?_
  obtain ⟨path, -, rfl⟩ := Option.map_eq_some_iff.mp hs
  rw [LearnedEntry, if_neg hkey]
  exact .path path

theorem fieldSpec_learned {key : String} {value s : Json} (h : fieldSpec u payload key value = some s) :
    FieldSpec s := by
  unfold fieldSpec at h
  split at h
  · cases h
    exact .path _
  · split at h
    · obtain ⟨template, -, rfl⟩ := Option.map_eq_some_iff.mp h
      exact .template template
    · split at h
      · obtain ⟨path, -, rfl⟩ := Option.map_eq_some_iff.mp h
        exact .path path
      · cases h
  · cases h

theorem learned_mapField {key : String} (hkey : key ∉ nestedFields) (value : Json) :
    ∀ entry ∈ mapField u payload key value, LearnedEntry entry := by
  refine learned_fieldAt fun s hs => ?_
  rw [LearnedEntry, if_neg hkey]
  exact fieldSpec_learned hs

theorem learned_nestedField {key : String} (hkey : key ∈ nestedFields) {mapped : JsonObject}
    (h : ∀ entry ∈ mapped, ∃ path, entry.2 = .str path) :
    ∀ entry ∈ nestedField key mapped, LearnedEntry entry := by
  refine learned_fieldAt fun s hs => ?_
  rw [LearnedEntry, if_pos hkey]
  split at hs
  · cases hs
  · cases hs
    exact .paths h

theorem mapValues_paths (values : JsonObject) :
    ∀ entry ∈ mapValues u payload values, ∃ path, entry.2 = .str path := by
  intro entry hentry
  obtain ⟨value, -, hvalue⟩ := List.mem_filterMap.mp hentry
  obtain ⟨path, -, rfl⟩ := Option.map_eq_some_iff.mp hvalue
  exact ⟨path, rfl⟩

/-- The field under which the raw event type is kept repeats its path. -/
theorem learned_rawEventType {key : String} (hkey : key ∉ nestedFields) (value : Json) :
    LearnedEntry (key, (mapRawEventType u payload value).get "event_type") := by
  rw [LearnedEntry, if_neg hkey, mapRawEventType, JsonObject.get, lookup_fieldAt, if_pos rfl]
  cases findValuePath u payload value with
  | none => exact .absent
  | some path => exact .path path

theorem learned_mapAmount (amount : Json) : ∀ entry ∈ mapAmount payload amount, LearnedEntry entry := by
  refine learned_fieldAt fun s hs => ?_
  rw [LearnedEntry, if_neg (show "amount" ∉ nestedFields by decide)]
  split at hs
  · cases hs
  · split at hs
    · obtain ⟨path, -, rfl⟩ := Option.map_eq_some_iff.mp hs
      exact .path path
    · cases hs

theorem learned_mapLocation (location : Json) : ∀ entry ∈ mapLocation u payload location, LearnedEntry entry := by
  refine learned_nestedField (by decide) ?_
  split
  · exact fun entry hentry => absurd hentry List.not_mem_nil
  · exact mapValues_paths _

theorem learned_inferFields (k : EntityType) :
    ∀ entry ∈ inferFields u payload llmOutput k, LearnedEntry entry := by
  cases k with
  | shipment =>
    simp only [inferFields, List.forall_mem_append, List.forall_mem_singleton]
    exact ⟨⟨⟨⟨⟨learned_mapField (by decide) _, learned_mapField (by decide) _⟩, learned_path (by decide) _⟩,
      learned_rawEventType (by decide) _⟩, learned_mapLocation _⟩,
      learned_nestedField (by decide) (mapValues_paths _)⟩
  | invoice =>
    simp only [inferFields, List.forall_mem_append, List.forall_mem_singleton]
    exact ⟨⟨⟨⟨⟨⟨learned_mapField (by decide) _, learned_mapField (by decide) _⟩, learned_path (by decide) _⟩,
      learned_rawEventType (by decide) _⟩, learned_mapAmount _⟩, learned_mapField (by decide) _⟩,
      learned_nestedField (by decide) (mapValues_paths _)⟩

/-- **The documents that discovery infers.** -/
theorem learned_of_inferSchemaDoc {classification : Json} {schemaDoc : JsonObject}
    (h : inferSchemaDoc u payload llmOutput classification = some schemaDoc) :
    ∃ c fields, schemaDoc = schemaDocument c fields ∧ LearnedFields fields := by
  have hentity : ∀ k, inferEntityDoc u payload llmOutput k = some schemaDoc →
      ∃ c fields, schemaDoc = schemaDocument c fields ∧ LearnedFields fields := by
    intro k hdoc
    rw [inferEntityDoc] at hdoc
    split at hdoc
    · cases hdoc
    · cases hdoc
      exact ⟨_, _, rfl, learnedFields_of_entries (learned_inferFields k)⟩
  rw [inferSchemaDoc] at h
  split at h
  · exact hentity .shipment h
  · split at h
    · exact hentity .invoice h
    · split at h
      · cases h
        refine ⟨_, _, rfl, learnedFields_of_entries (List.forall_mem_append.mpr ⟨?_, ?_⟩)⟩
        · exact learned_mapField (by decide) _
        · exact learned_mapField (by decide) _
      · cases h

/-- What discovery goes on to persist has been inferred and validated. -/
theorem discoverSchema_inferred {env : Externals} {eventId vendorId : String} {schemaDoc : JsonObject}
    (h : discoverSchema env payload eventId vendorId llmOutput = .ok (some schemaDoc)) :
    inferSchemaDoc env.toUnicode payload llmOutput (llmOutput.get "classification") = some schemaDoc ∧
      validateSchema env payload eventId vendorId schemaDoc llmOutput = .ok true := by
  rw [discoverSchema] at h
  split at h
  · cases h
  · split at h
    · cases h
    · next doc hdoc =>
      obtain ⟨valid, hvalidate, hvalid⟩ := bind_eq_ok.mp h
      split at hvalid
      · next htrue =>
        cases hvalid
        exact ⟨hdoc, htrue ▸ hvalidate⟩
      · cases hvalid

theorem learned_of_discoverSchema {env : Externals} {eventId vendorId : String} {schemaDoc : JsonObject}
    (h : discoverSchema env payload eventId vendorId llmOutput = .ok (some schemaDoc)) :
    ∃ classification fields, schemaDoc = schemaDocument classification fields ∧ LearnedFields fields :=
  learned_of_inferSchemaDoc (discoverSchema_inferred h).1

theorem schemaClassification_truthy (c : Classification) (fields : JsonObject) (classification : Option String) :
    (schemaClassification (schemaDocument c fields) classification).truthy = true := by
  rw [schemaClassification]
  split
  · next h => exact h
  · cases c <;> rfl

end Learned

/-! ### Answers that satisfy the target schema -/

/-- **No date that an answer is read for is outside the calendar.**  The amount of an invoice is read
first and then its due date; the event's timestamp once there is a type to go with it. -/
structure AnswerInCalendar (env : Externals) (data : JsonObject) : Prop where
  dueAt : data.get "classification" = .str Classification.invoice.value → hasRequired data = true →
    Returns (moneyField (data.get "amount")) →
    ∀ due, data.get "due_at" = .str due → due ≠ "" → ¬ TimestampOverflows env due
  eventTimestamp : ∀ k, data.get "classification" = .str (EntityType.classification k).value →
    hasRequired data = true → Returns (eventTypeField k (data.get "event_type")) →
    (k = .invoice → Returns (moneyField (data.get "amount")) ∧ Returns (dueAtField env (data.get "due_at"))) →
    ∀ ts, data.get "event_timestamp" = .str ts → ¬ TimestampOverflows env ts

section Answers
variable {env : Externals} {data : JsonObject}

theorem hasOnly_get {property : String → Option (Json → Bool)} {fields : JsonObject}
    (h : hasOnly property fields = true) {key : String} {value : Json} (hmem : (key, value) ∈ fields) :
    ∃ ok, property key = some ok ∧ ok value = true := by
  have hentry := List.all_eq_true.mp h _ hmem
  simp only [] at hentry
  split at hentry
  · next ok hok => exact ⟨ok, hok, hentry⟩
  · cases hentry

/-- A field of an answer passes its check, or is missing and reads as `None`. -/
theorem target_get (htarget : matchesTarget data = true) (key : String) :
    data.get key = .null ∨ ∃ ok, targetProperty key = some ok ∧ ok (data.get key) = true := by
  rw [matchesTarget, Bool.and_eq_true] at htarget
  rw [JsonObject.get]
  cases hkey : data.lookup key with
  | none => exact .inl rfl
  | some value => exact .inr (hasOnly_get htarget.2 (mem_of_lookup hkey))

theorem returns_requireKey (htarget : matchesTarget data = true) {key : String}
    (hkey : key ∈ ["classification", "vendor_id", "confidence"]) : requireKey data key = .ok (data.get key) := by
  rw [matchesTarget, Bool.and_eq_true] at htarget
  have hsome := List.all_eq_true.mp htarget.1 key hkey
  rw [requireKey, JsonObject.get]
  cases hvalue : data.lookup key with
  | none =>
    rw [hvalue] at hsome
    cases hsome
  | some value => rfl

theorem returns_confidenceField (htarget : matchesTarget data = true) :
    Returns (confidenceField env (data.get "confidence")) := by
  rw [confidenceField]
  split
  · next htruthy =>
    rcases target_get htarget "confidence" with hnull | ⟨ok, hok, hvalue⟩
    · rw [hnull] at htruthy
      cases htruthy
    · cases Option.some.inj hok
      rw [Json.returns_toFloat_iff]
      cases hx : data.get "confidence" with
      | int n => rfl
      | float x => rfl
      | _ =>
        rw [hx] at hvalue
        cases hvalue
  · exact .ok _

/-! The fields of the models refuse a value with a `ValueError`. -/

theorem stringField_raises (x : Json) : RaisesValueErrors (stringField x) := by
  cases x with
  | str s => exact .ok s
  | _ => exact .error rfl

theorem textField_raises (x : Json) : RaisesValueErrors (textField x) := by
  unfold textField
  split
  · exact .ok none
  · exact (stringField_raises x).bind fun _ _ => .ok _

theorem dictField_raises (x : Json) : RaisesValueErrors (dictField x) := by
  unfold dictField
  split
  · exact .ok _
  · exact .error rfl
  · exact .ok _

theorem floatField_raises (env : Externals) (x : Json) : RaisesValueErrors (floatField env x) := by
  unfold floatField
  split
  · exact .ok _
  · exact .ok _
  · exact .error rfl

theorem forbidExtra_raises (allowed : List String) (fields : JsonObject) :
    RaisesValueErrors (forbidExtra allowed fields) := by
  rw [forbidExtra]
  split
  · exact .ok _
  · exact .error rfl

theorem validateMoney_raises (currency : String) (amountMinor : Int) :
    RaisesValueErrors (Money.validate currency amountMinor) := by
  rw [Money.validate]
  split
  · split
    · exact .error rfl
    · exact .ok _
  · exact .error rfl

theorem moneyField_raises (amount : Json) : RaisesValueErrors (moneyField amount) := by
  cases amount with
  | obj fields =>
    refine (forbidExtra_raises _ _).bind fun _ _ => (stringField_raises _).bind fun currency _ => ?_
    split
    · exact (validateMoney_raises _ _).bind fun _ _ => .ok _
    · exact .error rfl
  | _ => exact .ok none

theorem locationField_raises (env : Externals) (location : Json) : RaisesValueErrors (locationField env location) := by
  cases location with
  | obj fields =>
    exact (forbidExtra_raises _ _).bind fun _ _ => (textField_raises _).bind fun _ _ =>
      (textField_raises _).bind fun _ _ => (floatField_raises env _).bind fun _ _ =>
        (floatField_raises env _).bind fun _ _ => .ok _
  | _ => exact .ok none

theorem eventTypeField_raises (k : EntityType) (x : Json) : RaisesValueErrors (eventTypeField k x) := by
  unfold eventTypeField
  split
  · split
    · exact .ok _
    · exact .error rfl
  · exact .error rfl

theorem llmBase_raises (eventId : String) (vendorId : Json) (confidence : PyFloat) (source : Source) :
    RaisesValueErrors (llmBase eventId vendorId confidence source) := by
  refine (stringField_raises vendorId).bind fun _ _ => ?_
  cases confidence.toRat? with
  | some confidence => exact .ok _
  | none => exact .error rfl

theorem validateBase_raises (base : CanonicalBase) : RaisesValueErrors base.validate := by
  rw [CanonicalBase.validate]
  split
  · exact .error rfl
  · exact .ok _

theorem validateEntity_raises {k : EntityType} (ev : CanonicalEntityEvent k) : RaisesValueErrors ev.validate :=
  (validateBase_raises _).bind fun _ _ => .ok _

variable (hdateutil : DateutilContract env)
include hdateutil

theorem parseTimestampField_raises_iff {x : Json} :
    RaisesValueErrors (parseTimestampField env x) ↔ ∀ ts, x = .str ts → ¬ TimestampOverflows env ts := by
  unfold parseTimestampField
  split
  · next ts =>
    have hiff : RaisesValueErrors (parseTimestamp env ts) ↔ ¬ TimestampOverflows env ts := by
      cases hparse : parseTimestamp env ts with
      | ok t => exact iff_of_true (.ok t) (not_overflows_of_parse hdateutil hparse)
      | error e =>
        rcases parseTimestamp_error hdateutil hparse with ⟨hvalue, hnot⟩ | ⟨rfl, hoverflow⟩
        · exact iff_of_true (.error hvalue) hnot
        · exact iff_of_false (fun h => Bool.false_ne_true (h _ rfl)) (not_not_intro hoverflow)
    rw [hiff]
    constructor
    · rintro h ts' heq
      cases heq
      exact h
    · intro h
      exact h ts rfl
  · next hnot => exact iff_of_true (.error rfl) fun ts h => absurd h (hnot ts)

theorem dueAtField_raises_iff {x : Json} :
    RaisesValueErrors (dueAtField env x) ↔ ∀ due, x = .str due → due ≠ "" → ¬ TimestampOverflows env due := by
  rw [dueAtField]
  split
  · next htruthy =>
    have hmap :
        RaisesValueErrors (some <$> parseTimestampField env x) ↔ RaisesValueErrors (parseTimestampField env x) :=
      raisesOnly_bind_left fun _ _ => .ok _
    rw [hmap, parseTimestampField_raises_iff hdateutil]
    constructor
    · intro h due hdue _
      exact h due hdue
    · rintro h due rfl
      exact h due rfl (by simpa [Json.truthy] using htruthy)
  · next hfalsy =>
    refine iff_of_true (.ok _) ?_
    rintro due rfl hne
    exact absurd hne (by simpa [Json.truthy] using hfalsy)

variable (eventId : String) (vendorId : Json) (confidence : PyFloat) (source : Source)

theorem buildShipment_raises_iff :
    RaisesValueErrors (buildShipment env eventId data vendorId confidence source) ↔
      (hasRequired data = true → Returns (eventTypeField .shipment (data.get "event_type")) →
        ∀ ts, data.get "event_timestamp" = .str ts → ¬ TimestampOverflows env ts) := by
  rw [buildShipment]
  by_cases hrequired : hasRequired data = true
  · rw [if_neg (by simp [hrequired])]
    refine (raisesOnly_bind_right (eventTypeField_raises _ _)).trans ?_
    constructor
    · rintro h - ⟨eventType, htype⟩
      exact (parseTimestampField_raises_iff hdateutil).mp (raisesOnly_bind.mp (h eventType htype)).1
    · intro h eventType htype
      have hparse := (parseTimestampField_raises_iff hdateutil).mpr (h hrequired ⟨eventType, htype⟩)
      exact hparse.bind fun _ _ => (locationField_raises env _).bind fun _ _ =>
        (llmBase_raises _ _ _ _).bind fun _ _ => (stringField_raises _).bind fun _ _ =>
          (dictField_raises _).bind fun _ _ => (textField_raises _).bind fun _ _ => validateEntity_raises _
  · rw [if_pos (by simpa using hrequired)]
    exact iff_of_true (.error rfl) fun h => absurd h hrequired

theorem buildInvoice_raises_iff :
    RaisesValueErrors (buildInvoice env eventId data vendorId confidence source) ↔
      (hasRequired data = true → Returns (moneyField (data.get "amount")) →
        (∀ due, data.get "due_at" = .str due → due ≠ "" → ¬ TimestampOverflows env due) ∧
        (Returns (dueAtField env (data.get "due_at")) → Returns (eventTypeField .invoice (data.get "event_type")) →
          ∀ ts, data.get "event_timestamp" = .str ts → ¬ TimestampOverflows env ts)) := by
  rw [buildInvoice]
  by_cases hrequired : hasRequired data = true
  · rw [if_neg (by simp [hrequired])]
    refine (raisesOnly_bind_right (moneyField_raises _)).trans ?_
    constructor
    · rintro h - ⟨amount, hamount⟩
      obtain ⟨hdue, hrest⟩ := raisesOnly_bind.mp (h amount hamount)
      refine ⟨(dueAtField_raises_iff hdateutil).mp hdue, ?_⟩
      rintro ⟨dueAt, hdueAt⟩ ⟨eventType, htype⟩
      have hparse := (raisesOnly_bind.mp (hrest dueAt hdueAt)).2 eventType htype
      exact (parseTimestampField_raises_iff hdateutil).mp (raisesOnly_bind.mp hparse).1
    · intro h amount hamount
      obtain ⟨hdue, hts⟩ := h hrequired ⟨amount, hamount⟩
      refine ((dueAtField_raises_iff hdateutil).mpr hdue).bind fun dueAt hdueAt => ?_
      refine (eventTypeField_raises _ _).bind fun eventType htype => ?_
      have hparse := (parseTimestampField_raises_iff hdateutil).mpr (hts ⟨dueAt, hdueAt⟩ ⟨eventType, htype⟩)
      exact hparse.bind fun _ _ => (llmBase_raises _ _ _ _).bind fun _ _ => (stringField_raises _).bind fun _ _ =>
        (dictField_raises _).bind fun _ _ => (textField_raises _).bind fun _ _ => validateEntity_raises _
  · rw [if_pos (by simpa using hrequired)]
    exact iff_of_true (.error rfl) fun h => absurd h hrequired

omit hdateutil in
theorem buildUnclassified_raises :
    RaisesValueErrors (buildUnclassified eventId data vendorId confidence source) :=
  (llmBase_raises _ _ _ _).bind fun _ _ => (textField_raises _).bind fun _ _ =>
    (textField_raises _).bind fun _ _ => (validateBase_raises _).bind fun _ _ => .ok _

/-- **From an answer that satisfies the target schema, an event is built or a `ValueError` raised**
exactly if no date it is read for is outside the calendar. -/
theorem buildCanonical_raises_iff (htarget : matchesTarget data = true) :
    RaisesValueErrors (buildCanonical env eventId data source) ↔ AnswerInCalendar env data := by
  obtain ⟨confidence, hconfidence⟩ :=
    show Returns (confidenceField env (data.get "confidence")) from returns_confidenceField htarget
  rw [buildCanonical, returns_requireKey htarget (by decide), returns_requireKey htarget (by decide), hconfidence]
  simp only [bind, Except.bind]
  by_cases hshipment : data.get "classification" = .str "shipment"
  · rw [if_pos hshipment]
    refine (raisesOnly_bind_left fun ev _ => .ok _).trans ((buildShipment_raises_iff hdateutil _ _ _ _).trans ?_)
    constructor
    · intro h
      refine ⟨fun hinvoice => ?_, fun k hclass hrequired htype _ => ?_⟩
      · exact absurd (Json.str.inj (hshipment.symm.trans hinvoice)) (by decide)
      · cases k with
        | shipment => exact h hrequired htype
        | invoice => exact absurd (Json.str.inj (hshipment.symm.trans hclass)) (by decide)
    · intro h hrequired htype
      exact h.eventTimestamp .shipment hshipment hrequired htype fun hk => by cases hk
  · rw [if_neg hshipment]
    by_cases hinvoice : data.get "classification" = .str "invoice"
    · rw [if_pos hinvoice]
      refine (raisesOnly_bind_left fun ev _ => .ok _).trans ?_
      refine (buildInvoice_raises_iff hdateutil _ _ _ _).trans ?_
      constructor
      · intro h
        refine ⟨fun _ hrequired hamount => (h hrequired hamount).1, fun k hclass hrequired htype hread => ?_⟩
        cases k with
        | shipment => exact absurd hclass hshipment
        | invoice =>
          obtain ⟨hamount, hdue⟩ := hread rfl
          exact (h hrequired hamount).2 hdue htype
      · intro h hrequired hamount
        exact ⟨h.dueAt hinvoice hrequired hamount, fun hdue htype =>
          h.eventTimestamp .invoice hinvoice hrequired htype fun _ => ⟨hamount, hdue⟩⟩
    · rw [if_neg hinvoice]
      refine iff_of_true ((buildUnclassified_raises _ _ _ _).bind fun ev _ => .ok _) ⟨?_, ?_⟩
      · exact fun h => absurd h hinvoice
      · intro k hclass
        cases k with
        | shipment => exact absurd hclass hshipment
        | invoice => exact absurd hclass hinvoice

omit hdateutil in
theorem matchesTarget_said {answers : List (Except PyError LLMResult)} {result : LLMResult}
    (h : Says env answers result data) : matchesTarget data = true := by
  cases h with
  | first hdata => exact matchesTarget_of_parse env hdata
  | second hinvalid hkind hdata => exact matchesTarget_of_parse env hdata
  | retried hkind hdata => exact matchesTarget_of_parse env hdata

variable {settings : Settings} {vendorHint : String} {payload : JsonObject} {w : World}

/-- Once there is an answer, `normalize` answers with a result if its dates are in the calendar. -/
theorem returns_universalNormalize {outcome : LLMOutcome}
    (hanswer : (Job.run (classifyExtract env settings eventId (if vendorHint = "" then "unknown" else vendorHint)
      payload) w).1 = .ok outcome) (htarget : matchesTarget outcome.data = true) :
    Returns (Job.run (universalNormalize env settings eventId vendorHint payload) w).1 ↔
      AnswerInCalendar env outcome.data := by
  rw [← buildCanonical_raises_iff hdateutil eventId outcome.source htarget]
  have hrun : Job.run (classifyExtract env settings eventId (if vendorHint = "" then "unknown" else vendorHint)
      payload) w = (.ok outcome, (Job.run (classifyExtract env settings eventId
        (if vendorHint = "" then "unknown" else vendorHint) payload) w).2) := Prod.ext hanswer rfl
  rw [Job.run, universalNormalize, Program.run_bind, Program.run_tryCatch, Program.run_map_of_ok Op.handle hrun]
  simp only []
  cases buildCanonical env eventId outcome.data outcome.source with
  | ok canonical => exact iff_of_true (.ok _) (.ok canonical)
  | error e =>
    refine Iff.trans ?_ raisesOnly_error_iff.symm
    simp only []
    split
    · next hvalue => exact iff_of_true (.ok _) hvalue
    · next hvalue => exact iff_of_false (not_returns_error _) hvalue

omit hdateutil in
/-- An error of the database is not one that `normalize` expects. -/
theorem not_returns_universalNormalize
    (herror : (Job.run (classifyExtract env settings eventId (if vendorHint = "" then "unknown" else vendorHint)
      payload) w).1 = .error .databaseError) :
    ¬ Returns (Job.run (universalNormalize env settings eventId vendorHint payload) w).1 := by
  have hmap : (Program.run Op.handle (Except.ok <$> classifyExtract env settings eventId
      (if vendorHint = "" then "unknown" else vendorHint) payload : Job (Except AdapterResult LLMOutcome)) w) =
      (.error .databaseError, (Job.run (classifyExtract env settings eventId
        (if vendorHint = "" then "unknown" else vendorHint) payload) w).2) :=
    Program.run_map_of_error Op.handle (Prod.ext herror rfl) _
  rw [Job.run, universalNormalize, Program.run_bind, Program.run_tryCatch, hmap]
  exact not_returns_error _

/-- **A cached answer** is reported where its cost can be audited. -/
theorem returns_normalize_cached {entry : CacheEntry}
    (hentry : w.db.llmCache.lookup (extractCacheKey env settings
      (if vendorHint = "" then "unknown" else vendorHint) payload) = some entry)
    (htarget : matchesTarget entry.output = true) :
    Returns (Job.run (universalNormalize env settings eventId vendorHint payload) w).1 ↔
      (∃ cost, toNumeric 10 6 entry.costEstimate = .ok cost) ∧ AnswerInCalendar env entry.output := by
  have hanswer := classifyExtract_cached eventId hentry
  cases hcost : toNumeric 10 6 entry.costEstimate with
  | ok cost =>
    rw [hcost] at hanswer
    exact (returns_universalNormalize hdateutil eventId hanswer htarget).trans (and_iff_right ⟨cost, rfl⟩).symm
  | error e =>
    rw [hcost, error_of_toNumeric hcost] at hanswer
    refine iff_of_false (not_returns_universalNormalize eventId hanswer) ?_
    rintro ⟨⟨cost, h⟩, -⟩
    cases h

/-- **An answer of the provider** is reported where it can be cached. -/
theorem returns_normalize_said {result : LLMResult}
    (hmiss : w.db.llmCache.lookup (extractCacheKey env settings
      (if vendorHint = "" then "unknown" else vendorHint) payload) = none)
    (hallowed : (Job.run (allow settings (if vendorHint = "" then "unknown" else vendorHint) (1 / 1000)) w).1 =
      .ok true) (hsaid : Says env w.answers result data) :
    Returns (Job.run (universalNormalize env settings eventId vendorHint payload) w).1 ↔
      ((Json.obj data).storable = true ∧ ∃ cost, toNumeric 10 6 result.costEstimate = .ok cost) ∧
        AnswerInCalendar env data := by
  have hanswer := classifyExtract_said eventId hmiss hallowed hsaid
  cases hrow : CacheEntry.toRow ⟨data, result.costEstimate⟩ with
  | ok row =>
    obtain ⟨hstorable, -, hcost⟩ := CacheEntry.toRow_eq_ok.mp hrow
    rw [hrow] at hanswer
    exact (returns_universalNormalize hdateutil eventId hanswer (matchesTarget_said hsaid)).trans
      (and_iff_right ⟨hstorable, row.costEstimate, hcost⟩).symm
  | error e =>
    rw [hrow, CacheEntry.error_of_toRow hrow] at hanswer
    refine iff_of_false (not_returns_universalNormalize eventId hanswer) ?_
    rintro ⟨⟨hstorable, cost, hcost⟩, -⟩
    have hstored : CacheEntry.toRow ⟨data, result.costEstimate⟩ = .ok ⟨data, cost⟩ :=
      CacheEntry.toRow_eq_ok.mpr ⟨hstorable, rfl, hcost⟩
    cases hrow.symm.trans hstored

end Answers

/-- **When `extract` and `normalize` answer with a result.**  For a document that discovery goes on
to persist, `extract` does for exactly the payloads and vendors that are `Extractable` with its
fields.  For an output that satisfies the target schema, `normalize` does exactly if the output is
`AnswerInCalendar` and its tables take it: the audit table its cost, and where the provider gives
it, at the first call or the second, the cache the output. -/
theorem failures_reported_iff {env : Externals} (hdateutil : DateutilContract env) :
    (∀ p eventId vendorId llmOutput schemaDoc,
      discoverSchema env p eventId vendorId llmOutput = .ok (some schemaDoc) →
      ∃ fields, schemaFields schemaDoc = .ok fields ∧
        ∀ (digest : HexDigest) q vendorId' canonicalState classification,
          Returns (extract env q digest.text vendorId' schemaDoc canonicalState classification) ↔
            Extractable env q fields vendorId' (schemaClassification schemaDoc classification) canonicalState) ∧
    ∀ settings eventId vendorHint payload w, let hint := if vendorHint = "" then "unknown" else vendorHint
      (∀ entry, w.db.llmCache.lookup (extractCacheKey env settings hint payload) = some entry →
        matchesTarget entry.output = true →
        (Returns (Job.run (universalNormalize env settings eventId vendorHint payload) w).1 ↔
          (∃ cost, toNumeric 10 6 entry.costEstimate = .ok cost) ∧ AnswerInCalendar env entry.output)) ∧
      ∀ result data, w.db.llmCache.lookup (extractCacheKey env settings hint payload) = none →
        (Job.run (allow settings hint (1 / 1000)) w).1 = .ok true → Says env w.answers result data →
        (Returns (Job.run (universalNormalize env settings eventId vendorHint payload) w).1 ↔
          ((Json.obj data).storable = true ∧ ∃ cost, toNumeric 10 6 result.costEstimate = .ok cost) ∧
            AnswerInCalendar env data) := by
  constructor
  · intro p eventId vendorId llmOutput schemaDoc hdiscover
    obtain ⟨c, fields, rfl, hfields⟩ := learned_of_discoverSchema hdiscover
    refine ⟨fields, rfl, fun digest q vendorId' canonicalState classification => ?_⟩
    exact returns_extract hfields digest.strip_text hdateutil rfl (schemaClassification_truthy c fields classification)
  · intro settings eventId vendorHint payload w hint
    constructor
    · intro entry hentry htarget
      exact returns_normalize_cached hdateutil eventId hentry htarget
    · intro result data hmiss hallowed hsaid
      exact returns_normalize_said hdateutil eventId hmiss hallowed hsaid

/-- The libraries that answer from tables raise nothing but a `ValueError`. -/
theorem dateutil_ofTables (documents : List (String × Json)) (digests : List (String × HexDigest))
    (signatures : List (String × String × HexDigest)) (timestamps : List (String × ParsedDateTime)) :
    DateutilContract (.ofTables documents digests signatures timestamps) where
  error text dayfirst e h := by
    unfold Externals.ofTables at h
    simp only [] at h
    split at h
    · cases h
    · cases h
      exact .inl rfl

theorem failures_reported_iff_witness :
    Extractable april28Runtime (issuedPayload "INV-2" "2026-04-28T05:00:00Z")
      [("entity_external_id", .str "$.doc_ref"), ("event_timestamp", .str "$.created_at"),
        ("event_type", .str "$.kind"), ("raw_kind", .str "$.kind"), ("amount", .str "$.total")]
      "globalfreightpay" (.str "invoice") (some "invoice.issued") ∧
    AnswerInCalendar april28Runtime (issuedAnswer ["issued"]) := by
  obtain ⟨hextract, hnormalize⟩ := failures_reported_iff (dateutil_ofTables _ _ _ _ : DateutilContract april28Runtime)
  constructor
  · have hdiscover : discoverSchema april28Runtime (issuedPayload "INV-1" "2026-04-28T05:00:00Z") "e1"
        "globalfreightpay" (issuedAnswer ["issued"]) = .ok (some issuedSchema) := by decide +kernel
    obtain ⟨fields, hfields, hiff⟩ := hextract _ _ _ _ _ hdiscover
    cases Except.ok.inj hfields
    refine (hiff (april28Runtime.sha256 []) _ "globalfreightpay" (some "invoice.issued") (some "invoice")).mp ?_
    exact returns_of_isOk (by decide +kernel)
  · have hresult : Returns (Job.run (universalNormalize april28Runtime .defaults "e1" "globalfreightpay"
        (issuedPayload "INV-1" "2026-04-28T05:00:00Z"))
          (World.start.facing 1 [.ok ⟨answerText ["issued"], 1 / 1000⟩])).1 := returns_of_isOk (by decide +kernel)
    have hsaid : Says april28Runtime
        (World.start.facing 1 [.ok ⟨answerText ["issued"], 1 / 1000⟩]).answers
        ⟨answerText ["issued"], 1 / 1000⟩ (issuedAnswer ["issued"]) := .first (by decide +kernel)
    have hiff := (hnormalize .defaults "e1" "globalfreightpay" (issuedPayload "INV-1" "2026-04-28T05:00:00Z")
      (World.start.facing 1 [.ok ⟨answerText ["issued"], 1 / 1000⟩])).2 _ _ rfl (by decide +kernel) hsaid
    exact (hiff.mp hresult).2

/-! ### A year that UTC has not reached -/

/-- The end of the year 9999, in a time zone behind UTC. -/
def farTime : String := "9999-12-31T23:59:59-14:00"

/-- The libraries of the invoices, which can read that time too. -/
def farRuntime : Externals :=
  { april28Runtime with
    dtparse := fun text dayfirst =>
      if text = farTime then .ok ⟨maxWall - 1000000, some (-14 * 3600000000)⟩
      else april28Runtime.dtparse text dayfirst }

/-- The answer for an invoice that was issued then. -/
def farAnswer : JsonObject :=
  [("classification", .str "invoice"), ("vendor_id", .str "globalfreightpay"), ("confidence", .int 1),
    ("entity_external_id", .str "INV-1"), ("event_type", .str "invoice.issued"), ("event_timestamp", .str farTime)]

/-- **A timestamp outside the calendar is raised, not reported**: out of the extraction with a document
that was learned from a payload of the same shape, and out of the building of an event from an answer
that satisfies the target schema. -/
theorem overflow_unreported :
    DateutilContract farRuntime ∧
    structuralFingerprint farRuntime (.obj (issuedPayload "INV-1" "2026-04-28T05:00:00Z")) [] =
      structuralFingerprint farRuntime (.obj (issuedPayload "INV-2" farTime)) [] ∧
    discoverSchema farRuntime (issuedPayload "INV-1" "2026-04-28T05:00:00Z") "e1" "globalfreightpay"
      (issuedAnswer ["issued"]) = .ok (some issuedSchema) ∧
    extract farRuntime (issuedPayload "INV-2" farTime) (farRuntime.sha256 []).text "globalfreightpay" issuedSchema
      (some "invoice.issued") (some "invoice") = .error .overflowError ∧
    matchesTarget farAnswer = true ∧
    buildCanonical farRuntime (farRuntime.sha256 []).text farAnswer .llm = .error .overflowError := by
  have hshape : sortedShape (.obj (issuedPayload "INV-1" "2026-04-28T05:00:00Z")) [] =
      sortedShape (.obj (issuedPayload "INV-2" farTime)) [] := by decide +kernel
  refine ⟨⟨fun text dayfirst e h => ?_⟩, ?_, by decide +kernel, by decide +kernel, by decide +kernel, by decide +kernel⟩
  · change (if text = farTime then _ else _) = _ at h
    split at h
    · cases h
    · exact (dateutil_ofTables _ _ _ _ : DateutilContract april28Runtime).error _ _ _ h
  · rw [structuralFingerprint, structuralFingerprint, hshape]

end WebhookIngestion
