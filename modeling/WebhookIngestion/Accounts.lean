import WebhookIngestion.DocumentLeaves
import WebhookIngestion.SureDrafts

/-! # Accounts of an event

What a step of the worker is told of an event before it finalizes it: by a stored document,
whose paths lead to leaves of the payload, with the mapping of the raw event type that one of
them names, and where no document says anything, by an answer of the LLM.  An account is what
`canonical_events` records of the event, and its amount.  The step is told an account exactly
where it is sure to finalize an event of that account (`tells_iff`). -/
namespace WebhookIngestion
open Tables Text Programs

/-! ### Accounts -/

/-- What `canonical_events` records of an event: classification, vendor, and for an entity's
event its external id, event type and timestamp. -/
structure Recorded where
  classification : Classification
  vendorId : String
  entity : Option (String × String × DateTime)
  deriving DecidableEq

def CanonicalEvent.recorded : CanonicalEvent → Recorded
  | .entity k ev =>
    ⟨k.classification, ev.vendorId, some (ev.entityExternalId, eventTypeValue k ev.eventType, ev.eventTimestamp)⟩
  | .unclassified ev => ⟨.unclassified, ev.vendorId, none⟩

/-- **An account of an event**: what is recorded of it, and its amount. -/
structure Account extends Recorded where
  amount : Option Money
  deriving DecidableEq

def CanonicalEvent.account : CanonicalEvent → Account
  | .entity k ev => ⟨(CanonicalEvent.entity k ev).recorded, DetailOf.amount? ev.detail⟩
  | .unclassified ev => ⟨(CanonicalEvent.unclassified ev).recorded, none⟩

theorem toRecorded_account (event : CanonicalEvent) : event.account.toRecorded = event.recorded := by
  cases event <;> rfl

/-- The amount of an event of a kind: shipments have none. -/
def AmountIs (k : EntityType) (amount : Option Money) (named : Option Money → Prop) : Prop :=
  match k with
  | .shipment => amount = none
  | .invoice => named amount

theorem classificationValue_inj {k k' : EntityType}
    (h : Json.str k.classification.value = .str k'.classification.value) : k = k' := by
  cases k <;> cases k' <;> first | rfl | exact absurd h (by decide)

theorem eventTypeValue_inj {k : EntityType} {a b : EventTypeOf k} (h : eventTypeValue k a = eventTypeValue k b) :
    a = b := by
  cases k <;> cases a <;> cases b <;> first | rfl | exact absurd h (by decide)

theorem classification_ne_unclassified {k : EntityType} :
    Json.str k.classification.value ≠ .str Classification.unclassified.value := by
  cases k <;> decide

/-! ### The account of what is normalized -/

/-- The vendor that an event is given. -/
def vendorFor (vendorId named : String) : String :=
  if vendorId = "" ∨ vendorId = "unknown" then named else vendorId

theorem vendorFor_self (vendorId : String) : vendorFor vendorId vendorId = vendorId := by
  rw [vendorFor, ite_self]

theorem overrideVendor_entity {k : EntityType} (vendorId : String) (ev : CanonicalEntityEvent k) :
    overrideVendor vendorId (.entity k ev) = .entity k { ev with vendorId := vendorFor vendorId ev.vendorId } := by
  unfold overrideVendor vendorFor
  by_cases hnone : vendorId = "" ∨ vendorId = "unknown"
  · rw [if_neg (fun h => hnone.elim h.1 h.2.1), if_pos hnone]
  · rw [not_or] at hnone
    rw [if_neg (not_or.mpr hnone)]
    by_cases hsame : ev.vendorId = vendorId
    · rw [if_neg fun h => h.2.2 hsame, ← hsame]
    · rw [if_pos ⟨hnone.1, hnone.2, hsame⟩]
      rfl

theorem overrideVendor_unclassified (vendorId : String) (ev : CanonicalUnclassifiedEvent) :
    overrideVendor vendorId (.unclassified ev) =
      .unclassified { ev with vendorId := vendorFor vendorId ev.vendorId } := by
  unfold overrideVendor vendorFor
  by_cases hnone : vendorId = "" ∨ vendorId = "unknown"
  · rw [if_neg (fun h => hnone.elim h.1 h.2.1), if_pos hnone]
  · rw [not_or] at hnone
    rw [if_neg (not_or.mpr hnone)]
    by_cases hsame : ev.vendorId = vendorId
    · rw [if_neg fun h => h.2.2 hsame, ← hsame]
    · rw [if_pos ⟨hnone.1, hnone.2, hsame⟩]
      rfl

/-- A base is valid with another vendor just when that is not blank. -/
theorem validate_vendorId {base : CanonicalBase} (h : base.validate = .ok ()) (vendorId : String) :
    { base with vendorId }.validate = .ok () ↔ strip vendorId ≠ "" := by
  rw [CanonicalBase.validate] at h ⊢
  split at h
  · cases h
  · rename_i hvalid
    push Not at hvalid
    by_cases hblank : strip vendorId = ""
    · rw [if_pos (.inr (.inl hblank))]
      exact iff_of_false (fun h => by cases h) fun h => h hblank
    · rw [if_neg (by push Not; exact ⟨hvalid.1, hblank, hvalid.2.2⟩)]
      exact iff_of_true rfl hblank

/-- What was normalized had a vendor. -/
theorem strip_vendorId_of_normalize {event normalized : CanonicalEvent} (h : normalize event = .ok normalized) :
    strip event.base.vendorId ≠ "" := by
  have hbase := base_of_normalize h
  have hvalid : normalized.base.validate = .ok () := by
    cases event with
    | entity k ev =>
      cases k with
      | shipment =>
        simp only [normalize, normalizeShipment, bind_eq_ok, CanonicalEntityEvent.validate_eq_ok] at h
        obtain ⟨normalized, ⟨t, ht, hvalid, rfl⟩, h⟩ := h
        cases h
        exact hvalid
      | invoice =>
        simp only [normalize, normalizeInvoice, bind_eq_ok, CanonicalEntityEvent.validate_eq_ok] at h
        obtain ⟨normalized, ⟨t, ht, amount, -, dueAt, -, hvalid, rfl⟩, h⟩ := h
        cases h
        exact hvalid
    | unclassified ev =>
      simp only [normalize, normalizeUnclassified, CanonicalUnclassifiedEvent.validate, bind_eq_ok] at h
      obtain ⟨normalized, ⟨_, hvalid, h'⟩, h⟩ := h
      cases h'
      cases h
      exact hvalid
  rw [hbase, CanonicalBase.validate] at hvalid
  split at hvalid
  · cases hvalid
  · rename_i hnot
    push Not at hnot
    have hvendor := hnot.2.1
    rwa [normalizeBase, strip_strip] at hvendor

/-- **The account of an entity's event** once it is normalized, which it can be. -/
theorem account_of_entity {k : EntityType} {ev : CanonicalEntityEvent k}
    (hbase : ev.toCanonicalBase.validate = .ok ()) (hts : toUtc ev.eventTimestamp = .ok ev.eventTimestamp)
    (hdue : ∀ t, DetailOf.dueAt? ev.detail = some t → toUtc t = .ok t) :
    ∃ normalized, normalize (.entity k ev) = .ok normalized ∧ normalized.account =
      ⟨⟨k.classification, strip ev.vendorId,
        some (strip ev.entityExternalId, eventTypeValue k ev.eventType, ev.eventTimestamp)⟩,
        DetailOf.amount? ev.detail⟩ := by
  obtain ⟨normalized, hnormalize, hnormal⟩ := exists_normalized hbase hts hdue
  refine ⟨_, hnormalize, ?_⟩
  have hvendor : normalized.vendorId = strip ev.vendorId := by
    rw [show normalized.vendorId = normalized.toCanonicalBase.vendorId from rfl, hnormal.base]
    rfl
  have htime : normalized.eventTimestamp = ev.eventTimestamp := Except.ok.inj (hnormal.utc.symm.trans hts)
  rw [CanonicalEvent.account, CanonicalEvent.recorded, hvendor, hnormal.entityExternalId, hnormal.eventType, htime,
    hnormal.amount]

theorem account_of_unclassified {ev : CanonicalUnclassifiedEvent} (hbase : ev.toCanonicalBase.validate = .ok ()) :
    ∃ normalized, normalize (.unclassified ev) = .ok normalized ∧
      normalized.account = ⟨⟨.unclassified, strip ev.vendorId, none⟩, none⟩ := by
  have hvalid := validate_normalizeBase hbase
  refine ⟨.unclassified { normalizeBase ev.toCanonicalBase with
    summary := stripOrNone ev.summary, reason := stripOrNone ev.reason }, ?_, rfl⟩
  rw [normalize, normalizeUnclassified, CanonicalUnclassifiedEvent.validate]
  simp only [hvalid]
  rfl

/-! ### What a document tells -/

section Documents
variable (env : Externals) (payload : JsonObject) (eventId : EventId) (vendorId : String) (schemaDoc : JsonObject)

/-- **What the leaves tell that a document names**, with a mapping of the raw event type. -/
inductive LeavesTell : (canonicalState classification : Option String) → Account → Prop
  | entity {k : EntityType} {canonicalState id text : String} {classification : Option String} {t : DateTime}
      {amount : Option Money} {fields : JsonObject}
      (hclass : schemaClassification schemaDoc classification = .str k.classification.value)
      (hfields : schemaFields schemaDoc = .ok fields)
      (hid : NamesId env.toUnicode payload (fields.get "entity_external_id") id)
      (htime : NamesText env.toUnicode payload (fields.get "event_timestamp") text)
      (hparse : parseTimestamp env text = .ok t)
      (hamount : AmountIs k amount (NamesAmount env payload (fields.get "amount"))) :
      LeavesTell (some canonicalState) classification
        ⟨⟨k.classification, strip vendorId, some (strip id, canonicalState, t)⟩, amount⟩
  | unclassified {canonicalState classification : Option String}
      (hclass : schemaClassification schemaDoc classification = .str Classification.unclassified.value) :
      LeavesTell canonicalState classification ⟨⟨.unclassified, strip vendorId, none⟩, none⟩

/-- The adapter makes an event of the payload. -/
def MakesEvent (canonicalState classification : Option String) : Prop :=
  ∃ rawEventType event,
    extract env payload eventId vendorId schemaDoc canonicalState classification = .ok ⟨rawEventType, .ok event⟩

/-- The raw event type that a document for entities names. -/
structure NamesType (rawEventType : String) : Prop where
  classified : (schemaDoc.get "classification").truthy = true
  entity : schemaDoc.get "classification" ≠ .str "unclassified"
  named : ∃ fields, schemaFields schemaDoc = .ok fields ∧
    NamesText env.toUnicode payload (fields.get "event_type") rawEventType
  nonempty : rawEventType ≠ ""

/-- **What a document tells**: that the payload is unclassified, or, where its raw event type is
resolved to a mapping with which the adapter makes an event, what its leaves do. -/
inductive DocumentTells (resolves : String → String → String → Prop) : Account → Prop
  | unclassified {account : Account} (hdoc : schemaDoc.get "classification" = .str "unclassified")
      (hextracts : MakesEvent env payload eventId vendorId schemaDoc none none)
      (htell : LeavesTell env payload vendorId schemaDoc none none account) : DocumentTells resolves account
  | mapped {rawEventType classification canonicalState : String} {account : Account}
      (htype : NamesType env payload schemaDoc rawEventType)
      (hresolves : resolves rawEventType classification canonicalState)
      (hextracts : MakesEvent env payload eventId vendorId schemaDoc (some canonicalState) (some classification))
      (htell : LeavesTell env payload vendorId schemaDoc (some canonicalState) (some classification) account) :
      DocumentTells resolves account

variable {env payload eventId vendorId schemaDoc}

/-- The leaves tell the account of an entity's event that is made of them. -/
theorem leavesTell_entity_iff {k : EntityType} {canonicalState : String} {classification : Option String}
    {fields : JsonObject} {reading : EntityReading k} {account : Account}
    (hclass : schemaClassification schemaDoc classification = .str k.classification.value)
    (hfields : schemaFields schemaDoc = .ok fields) (hread : ReadAt env payload fields canonicalState reading)
    (hbase : (reading.event eventId vendorId).toCanonicalBase.validate = .ok ()) :
    LeavesTell env payload vendorId schemaDoc (some canonicalState) classification account ↔ ∃ normalized,
      normalize (overrideVendor vendorId (.entity k (reading.event eventId vendorId))) = .ok normalized ∧
        normalized.account = account := by
  obtain ⟨tsRaw, htsRaw, htruthy, hparse⟩ := hread.eventTimestamp
  obtain ⟨normalized, hnormalize, haccount⟩ := account_of_entity hbase (parseTimestamp_utc hparse)
    (dueAt_of_extractDetail hread.detail)
  -- the adapter's vendor is the resolved one
  have hover : overrideVendor vendorId (.entity k (reading.event eventId vendorId)) =
      .entity k (reading.event eventId vendorId) := by
    rw [overrideVendor_entity, show (reading.event eventId vendorId).vendorId = vendorId from rfl, vendorFor_self]
    rfl
  have hid {id : String} : NamesId env.toUnicode payload (fields.get "entity_external_id") id ↔
      some reading.entityExternalId = some id := namesId_iff hread.entityExternalId
  have htime {text : String} : NamesText env.toUnicode payload (fields.get "event_timestamp") text ↔
      text = tsRaw.text env.toUnicode := by
    rw [namesText_iff htsRaw, Json.textIfTruthy, if_pos htruthy, Option.some.injEq, eq_comm]
  have hamount {amount : Option Money} : AmountIs k amount (NamesAmount env payload (fields.get "amount")) ↔
      DetailOf.amount? reading.detail = amount := by
    cases k with
    | shipment => exact eq_comm
    | invoice => exact namesAmount_iff (amount_of_extractDetail hread.detail)
  have htype : eventTypeValue k reading.eventType = canonicalState := eventTypeValue_of_ofValue? hread.eventType
  rw [hover]
  constructor
  · intro htell
    cases htell with
    | unclassified hclass' => exact absurd (hclass.symm.trans hclass') classification_ne_unclassified
    | entity hclass' hfields' hid' htime' hparse' hamount' =>
      obtain rfl := classificationValue_inj (hclass.symm.trans hclass')
      cases hfields.symm.trans hfields'
      obtain rfl := Option.some.inj (hid.mp hid')
      obtain rfl := htime.mp htime'
      obtain rfl := hamount.mp hamount'
      cases hparse.symm.trans hparse'
      refine ⟨_, hnormalize, ?_⟩
      rw [haccount, ← htype]
      rfl
  · rintro ⟨normalized', hnormalize', rfl⟩
    cases hnormalize.symm.trans hnormalize'
    rw [haccount, show eventTypeValue k (reading.event eventId vendorId).eventType = canonicalState from htype]
    exact .entity hclass hfields (hid.mpr rfl) (htime.mpr rfl) hparse (hamount.mpr rfl)

/-- A document for what is unclassified tells the account of an unclassified event. -/
theorem leavesTell_unclassified_iff {canonicalState classification : Option String} {ev : CanonicalUnclassifiedEvent}
    {account : Account}
    (hclass : schemaClassification schemaDoc classification = .str Classification.unclassified.value)
    (hev : ev.toCanonicalBase = deterministicBase eventId vendorId unclassifiedConfidence)
    (hbase : ev.toCanonicalBase.validate = .ok ()) :
    LeavesTell env payload vendorId schemaDoc canonicalState classification account ↔ ∃ normalized,
      normalize (overrideVendor vendorId (.unclassified ev)) = .ok normalized ∧ normalized.account = account := by
  obtain ⟨normalized, hnormalize, haccount⟩ := account_of_unclassified hbase
  have hvendor : ev.vendorId = vendorId := congrArg CanonicalBase.vendorId hev
  have hover : overrideVendor vendorId (.unclassified ev) = .unclassified ev := by
    rw [overrideVendor_unclassified, ← hvendor, vendorFor_self]
  rw [hover]
  rw [hvendor] at haccount
  constructor
  · intro htell
    cases htell with
    | entity hclass' => exact absurd (hclass'.symm.trans hclass) classification_ne_unclassified
    | unclassified => exact ⟨normalized, hnormalize, haccount⟩
  · rintro ⟨normalized', hnormalize', rfl⟩
    cases hnormalize.symm.trans hnormalize'
    rw [haccount]
    exact .unclassified hclass

/-- **The leaves tell the account of the event that is extracted.** -/
theorem leavesTell_iff {canonicalState classification rawEventType : Option String} {event : CanonicalEvent}
    {account : Account} (h : extract env payload eventId vendorId schemaDoc canonicalState classification =
      .ok ⟨rawEventType, .ok event⟩) :
    LeavesTell env payload vendorId schemaDoc canonicalState classification account ↔
      ∃ normalized, normalize (overrideVendor vendorId event) = .ok normalized ∧ normalized.account = account := by
  cases extractedAs_of_extract h with
  | entity hclass hfields hread hbase => exact leavesTell_entity_iff hclass hfields hread hbase
  | unclassified hclass hev hbase => exact leavesTell_unclassified_iff hclass hev hbase

/-- What a first pass, or an extraction that makes an event, has read as the raw event type. -/
theorem rawEventType_of_extract {canonicalState classification : Option String} {result : ExtractionResult}
    (h : extract env payload eventId vendorId schemaDoc canonicalState classification = .ok result)
    (hpass : canonicalState = none ∨ ∃ event, result.event = .ok event) :
    result = ⟨none, .error .noClassification⟩ ∧ (schemaClassification schemaDoc classification).truthy = false ∨
      (schemaClassification schemaDoc classification).truthy = true ∧
        ∃ fields raw, schemaFields schemaDoc = .ok fields ∧
          resolveField env.toUnicode payload (fields.get "event_type") = .ok raw ∧
          result.rawEventType = raw.textIfTruthy env.toUnicode := by
  simp only [extract] at h
  split at h
  · rename_i hfalsy
    cases h
    exact .inl ⟨rfl, by simpa using hfalsy⟩
  · rename_i htruthy
    simp only [bind_eq_ok] at h
    obtain ⟨fields, hfields, raw, hraw, h⟩ := h
    refine .inr ⟨by simpa using htruthy, fields, raw, hfields, hraw, ?_⟩
    split at h
    · obtain ⟨ev, -, h⟩ := bind_eq_ok.mp h
      cases h
      rfl
    · split at h
      · cases h
        rfl
      · split at h
        · obtain ⟨ev, -, h⟩ := bind_eq_ok.mp h
          cases h
          rfl
        · split at h
          · obtain ⟨ev, -, h⟩ := bind_eq_ok.mp h
            cases h
            rfl
          · -- a classification that is unknown is met with a mapping only, and makes no event
            cases h
            rcases hpass with hpass | ⟨event, hevent⟩
            · cases hpass
            · cases hevent

/-- The first pass over a document for entities returns what the document names. -/
theorem extract_firstPass {fields : JsonObject} {raw : Json}
    (hclassified : (schemaDoc.get "classification").truthy = true)
    (hentity : schemaDoc.get "classification" ≠ .str "unclassified") (hfields : schemaFields schemaDoc = .ok fields)
    (hraw : resolveField env.toUnicode payload (fields.get "event_type") = .ok raw) :
    extract env payload eventId vendorId schemaDoc none none =
      .ok ⟨raw.textIfTruthy env.toUnicode, .error .canonicalStateNotResolved⟩ := by
  have hclass : schemaClassification schemaDoc none = schemaDoc.get "classification" := rfl
  simp only [extract, hclass, hclassified, Bool.not_true, Bool.false_eq_true, if_false, hfields, hentity]
  refine bind_eq_ok.mpr ⟨fields, rfl, ?_⟩
  rw [hraw]
  rfl

/-- The first pass over a document for what is unclassified makes an event, or raises. -/
theorem event_of_unclassified {first : ExtractionResult} (hdoc : schemaDoc.get "classification" = .str "unclassified")
    (hfirst : extract env payload eventId vendorId schemaDoc none none = .ok first) :
    ∃ event, first.event = .ok event := by
  have hclass : schemaClassification schemaDoc none = .str "unclassified" := hdoc
  have htruthy : (Json.str "unclassified").truthy = true := rfl
  simp only [extract, hclass, htruthy, Bool.not_true, Bool.false_eq_true, if_false, if_true, bind_eq_ok] at hfirst
  obtain ⟨fields, -, raw, -, ev, -, h⟩ := hfirst
  cases h
  exact ⟨_, rfl⟩

/-- What the first pass reads as the raw event type is what the document names. -/
theorem namesType_iff {first : ExtractionResult}
    (hfirst : extract env payload eventId vendorId schemaDoc none none = .ok first)
    (hnot : ∀ event, first.event = .ok event → schemaDoc.get "classification" ≠ .str "unclassified")
    {rawEventType : String} : NamesType env payload schemaDoc rawEventType ↔
      first.rawEventType.getD "" = rawEventType ∧ rawEventType ≠ "" := by
  have hclass : schemaClassification schemaDoc none = schemaDoc.get "classification" := rfl
  constructor
  · rintro ⟨hclassified, hentity, ⟨fields, hfields, hnamed⟩, hne⟩
    rcases rawEventType_of_extract hfirst (.inl rfl) with ⟨-, hfalsy⟩ | ⟨-, fields', raw, hfields', hraw, hresult⟩
    · rw [hclass, hclassified] at hfalsy
      cases hfalsy
    · cases hfields.symm.trans hfields'
      rw [hresult, (namesText_iff hraw).mp hnamed]
      exact ⟨rfl, hne⟩
  · rintro ⟨rfl, hne⟩
    rcases rawEventType_of_extract hfirst (.inl rfl) with ⟨rfl, -⟩ | ⟨htruthy, fields, raw, hfields, hraw, hresult⟩
    · exact absurd rfl hne
    · rw [hclass] at htruthy
      have hsome : raw.textIfTruthy env.toUnicode = some (first.rawEventType.getD "") := by
        rw [hresult] at hne ⊢
        cases htext : raw.textIfTruthy env.toUnicode with
        | none =>
          rw [htext] at hne
          exact absurd rfl hne
        | some text => rfl
      refine ⟨htruthy, fun hdoc => ?_, ⟨fields, hfields, (namesText_iff hraw).mpr hsome⟩, hne⟩
      obtain ⟨event, hevent⟩ := event_of_unclassified hdoc hfirst
      exact hnot event hevent hdoc

/-- **A document tells the account of the event that it reads.** -/
theorem documentTells_iff {resolves : String → String → String → Prop} {account : Account} :
    DocumentTells env payload eventId vendorId schemaDoc resolves account ↔ ∃ canonical normalized,
      Reads env payload eventId vendorId schemaDoc resolves canonical ∧
        normalize (overrideVendor vendorId canonical) = .ok normalized ∧ normalized.account = account := by
  constructor
  · intro h
    cases h with
    | unclassified hdoc hextracts htell =>
      obtain ⟨raw, event, hextract⟩ := hextracts
      obtain ⟨normalized, hnormal⟩ := (leavesTell_iff hextract).mp htell
      exact ⟨event, normalized, .unclassified hdoc hextract, hnormal⟩
    | mapped htype hresolves hextracts htell =>
      obtain ⟨raw, event, hextract⟩ := hextracts
      obtain ⟨normalized, hnormal⟩ := (leavesTell_iff hextract).mp htell
      rcases rawEventType_of_extract hextract (.inr ⟨event, rfl⟩) with
        ⟨hnone, -⟩ | ⟨-, fields, value, hfields, hvalue, -⟩
      · cases hnone
      · have hfirst : extract env payload eventId vendorId schemaDoc none none = .ok _ :=
          extract_firstPass htype.classified htype.entity hfields hvalue
        obtain ⟨hraw, hne⟩ := (namesType_iff hfirst fun _ _ => htype.entity).mp htype
        refine ⟨event, normalized, .entity hfirst (fun _ _ => htype.entity) ?_ ?_ hextract, hnormal⟩
        · rw [hraw]
          exact hne
        · rw [hraw]
          exact hresolves
  · rintro ⟨canonical, normalized, hreads, hnormal⟩
    cases hreads with
    | unclassified hdoc hfirst =>
      exact .unclassified hdoc ⟨_, _, hfirst⟩ ((leavesTell_iff hfirst).mpr ⟨normalized, hnormal⟩)
    | entity hfirst hnot hraw hresolves hsecond =>
      exact .mapped ((namesType_iff hfirst hnot).mpr ⟨rfl, hraw⟩) hresolves ⟨_, _, hsecond⟩
        ((leavesTell_iff hsecond).mpr ⟨normalized, hnormal⟩)

end Documents

/-! ### What an answer tells -/

section Answers
variable (env : Externals) (vendorId : String) (data : JsonObject)

/-- **What an answer of the LLM tells**; its vendor stands where none was resolved. -/
inductive AnswerTells : Account → Prop
  | entity {k : EntityType} {named id type text : String} {t : DateTime} {amount : Option Money}
      (hclass : data.get "classification" = .str k.classification.value)
      (hvendor : data.get "vendor_id" = .str named) (hnamed : strip (vendorFor vendorId named) ≠ "")
      (hid : data.get "entity_external_id" = .str id) (htype : data.get "event_type" = .str type)
      (htime : data.get "event_timestamp" = .str text) (hparse : parseTimestamp env text = .ok t)
      (hamount : AmountIs k amount fun amount => moneyField (data.get "amount") = .ok amount) :
      AnswerTells ⟨⟨k.classification, strip (vendorFor vendorId named), some (strip id, type, t)⟩, amount⟩
  | unclassified {named : String} (hclass : ∀ k : EntityType, data.get "classification" ≠ .str k.classification.value)
      (hvendor : data.get "vendor_id" = .str named) (hnamed : strip (vendorFor vendorId named) ≠ "") :
      AnswerTells ⟨⟨.unclassified, strip (vendorFor vendorId named), none⟩, none⟩

variable {env vendorId data}

/-- What is built as unclassified is not of a kind, and is valid. -/
theorem unclassified_of_buildCanonical {eventId : EventId} {source : Source} {ev : CanonicalUnclassifiedEvent}
    (h : buildCanonical env eventId data source = .ok (.unclassified ev)) :
    (∀ k : EntityType, data.get "classification" ≠ .str k.classification.value) ∧
      ev.toCanonicalBase.validate = .ok () := by
  simp only [buildCanonical, bind_eq_ok] at h
  obtain ⟨classification, hclassification, vendorId, -, confidence, -, h⟩ := h
  have hget := get_of_requireKey hclassification
  split at h
  · obtain ⟨ev', -, h⟩ := bind_eq_ok.mp h
    cases h
  · rename_i hshipment
    split at h
    · obtain ⟨ev', -, h⟩ := bind_eq_ok.mp h
      cases h
    · rename_i hinvoice
      obtain ⟨ev', hev, h⟩ := bind_eq_ok.mp h
      cases h
      simp only [buildUnclassified, CanonicalUnclassifiedEvent.validate, bind_eq_ok] at hev
      obtain ⟨base, -, summary, -, reason, -, _, hvalid, hev⟩ := hev
      cases hev
      refine ⟨fun k hk => ?_, hvalid⟩
      rw [hget] at hk
      cases k with
      | shipment => exact hshipment hk
      | invoice => exact hinvoice hk

/-- An answer for an entity tells the account of the event that is built of it. -/
theorem answerTells_entity_iff {eventId : EventId} {source : Source} {k : EntityType} {ev : CanonicalEntityEvent k}
    {account : Account} (h : buildCanonical env eventId data source = .ok (.entity k ev)) :
    AnswerTells env vendorId data account ↔ ∃ normalized,
      normalize (overrideVendor vendorId (.entity k ev)) = .ok normalized ∧ normalized.account = account := by
  have hvendor : data.get "vendor_id" = .str ev.vendorId := by
    rw [JsonObject.get, (base_of_buildCanonical h).2]
    rfl
  obtain ⟨eventType, hanswer⟩ := answersFor_of_buildCanonical h
  obtain ⟨text, htime, hparse⟩ := hanswer.eventTimestamp
  have htype : eventTypeValue k ev.eventType = eventType := eventTypeValue_of_ofValue? hanswer.eventType_ofValue
  have hamount {amount : Option Money} :
      AmountIs k amount (fun amount => moneyField (data.get "amount") = .ok amount) ↔
        DetailOf.amount? ev.detail = amount := by
    cases k with
    | shipment => exact eq_comm
    | invoice =>
      show moneyField (data.get "amount") = .ok amount ↔ _
      rw [hanswer.amount rfl, Except.ok.injEq]
  -- with a vendor the event can be normalized
  let given : CanonicalEntityEvent k := { ev with vendorId := vendorFor vendorId ev.vendorId }
  have hnormal (hne : strip (vendorFor vendorId ev.vendorId) ≠ "") :=
    @account_of_entity k given ((validate_vendorId hanswer.base _).mpr hne) (parseTimestamp_utc hparse) hanswer.dueAt
  rw [overrideVendor_entity]
  constructor
  · intro htells
    cases htells with
    | unclassified hclass => exact absurd hanswer.classification (hclass k)
    | entity hclass hvendor' hnamed hid' htype' htime' hparse' hamount' =>
      obtain rfl := classificationValue_inj (hanswer.classification.symm.trans hclass)
      cases hvendor.symm.trans hvendor'
      cases hanswer.entityExternalId.symm.trans hid'
      cases hanswer.eventType_eq.symm.trans htype'
      cases htime.symm.trans htime'
      cases hparse.symm.trans hparse'
      obtain rfl := hamount.mp hamount'
      obtain ⟨normalized, hnormalize, haccount⟩ := hnormal hnamed
      refine ⟨normalized, hnormalize, ?_⟩
      rw [haccount, htype]
  · rintro ⟨normalized, hnormalize, rfl⟩
    have hnamed := strip_vendorId_of_normalize hnormalize
    change strip (vendorFor vendorId ev.vendorId) ≠ "" at hnamed
    obtain ⟨normalized', hnormalize', haccount⟩ := hnormal hnamed
    cases hnormalize.symm.trans hnormalize'
    rw [haccount, htype]
    exact .entity hanswer.classification hvendor hnamed hanswer.entityExternalId hanswer.eventType_eq htime hparse
      (hamount.mpr rfl)

/-- An answer for neither kind tells the account of an unclassified event. -/
theorem answerTells_unclassified_iff {eventId : EventId} {source : Source} {ev : CanonicalUnclassifiedEvent}
    {account : Account} (h : buildCanonical env eventId data source = .ok (.unclassified ev)) :
    AnswerTells env vendorId data account ↔ ∃ normalized,
      normalize (overrideVendor vendorId (.unclassified ev)) = .ok normalized ∧ normalized.account = account := by
  have hvendor : data.get "vendor_id" = .str ev.vendorId := by
    rw [JsonObject.get, (base_of_buildCanonical h).2]
    rfl
  obtain ⟨hclass, hvalid⟩ := unclassified_of_buildCanonical h
  let given : CanonicalUnclassifiedEvent := { ev with vendorId := vendorFor vendorId ev.vendorId }
  have hnormal (hne : strip (vendorFor vendorId ev.vendorId) ≠ "") :=
    @account_of_unclassified given ((validate_vendorId hvalid _).mpr hne)
  rw [overrideVendor_unclassified]
  constructor
  · intro htells
    cases htells with
    | entity hclass' => exact absurd hclass' (hclass _)
    | unclassified _ hvendor' hnamed =>
      cases hvendor.symm.trans hvendor'
      exact hnormal hnamed
  · rintro ⟨normalized, hnormalize, rfl⟩
    have hnamed := strip_vendorId_of_normalize hnormalize
    change strip (vendorFor vendorId ev.vendorId) ≠ "" at hnamed
    obtain ⟨normalized', hnormalize', haccount⟩ := hnormal hnamed
    cases hnormalize.symm.trans hnormalize'
    rw [haccount]
    exact .unclassified hclass hvendor hnamed

/-- **An answer tells the account of the event that is built of it.** -/
theorem answerTells_iff {eventId : EventId} {source : Source} {canonical : CanonicalEvent} {account : Account}
    (h : buildCanonical env eventId data source = .ok canonical) :
    AnswerTells env vendorId data account ↔
      ∃ normalized, normalize (overrideVendor vendorId canonical) = .ok normalized ∧ normalized.account = account := by
  cases canonical with
  | entity k ev => exact answerTells_entity_iff h
  | unclassified ev => exact answerTells_unclassified_iff h

end Answers

/-! ### What a step is told -/

section Steps
variable (env : Externals) (settings : Settings) (w : World) (payload : JsonObject) (eventId : EventId)
  (vendorId : String)

/-- **What a step is told of its event**: by the stored document of the payload's shape, with the
mapping that is sure; or, where no document says anything, by the answer that is sure. -/
inductive Tells : Account → Prop
  | document {schemaMatch : SchemaMatch} {account : Account}
      (hlookup : lookupSchema w.db.vendorSchemas vendorId (structuralFingerprint env (.obj payload) []) =
        some schemaMatch)
      (htells : DocumentTells env payload eventId vendorId schemaMatch.schemaDoc (SureMapping env settings w vendorId)
        account) : Tells account
  | answer {w' : World} {source : Source} {data : JsonObject} {account : Account}
      (hunread : Unread env settings w payload eventId vendorId w')
      (hanswer : SureAnswer env settings w' vendorId payload source data)
      (hbuilds : Returns (buildCanonical env eventId data source))
      (htells : AnswerTells env vendorId data account) : Tells account

variable {env settings w payload eventId vendorId}

/-- **A step is told the accounts of the events that it is sure to finalize.** -/
theorem tells_iff {account : Account} :
    Tells env settings w payload eventId vendorId account ↔ ∃ draft normalized,
      Sure env settings w payload eventId vendorId draft ∧
        normalize (overrideVendor vendorId draft) = .ok normalized ∧ normalized.account = account := by
  constructor
  · intro h
    cases h with
    | document hlookup htells =>
      obtain ⟨canonical, normalized, hreads, hnormal⟩ := documentTells_iff.mp htells
      exact ⟨canonical, normalized, .schema hlookup hreads, hnormal⟩
    | answer hunread hanswer hbuilds htells =>
      obtain ⟨canonical, hbuild⟩ := hbuilds
      obtain ⟨normalized, hnormal⟩ := (answerTells_iff hbuild).mp htells
      exact ⟨canonical, normalized, .llm hunread hanswer hbuild, hnormal⟩
  · rintro ⟨draft, normalized, hsure, hnormal⟩
    cases hsure with
    | schema hlookup hreads => exact .document hlookup (documentTells_iff.mpr ⟨draft, normalized, hreads, hnormal⟩)
    | llm hunread hanswer hbuild =>
      exact .answer hunread hanswer ⟨draft, hbuild⟩ ((answerTells_iff hbuild).mpr ⟨normalized, hnormal⟩)

/-- **A step is told one account at most.** -/
theorem Tells.unique {account account' : Account} (h : Tells env settings w payload eventId vendorId account)
    (h' : Tells env settings w payload eventId vendorId account') : account = account' := by
  obtain ⟨draft, normalized, hsure, hnormalize, rfl⟩ := tells_iff.mp h
  obtain ⟨draft', normalized', hsure', hnormalize', rfl⟩ := tells_iff.mp h'
  obtain rfl := hsure.unique hsure'
  cases hnormalize.symm.trans hnormalize'
  rfl

/-- What the stored schema reads with a stored mapping is what is told. -/
theorem tells_of_reads {schemaMatch : SchemaMatch} {canonical normalized : CanonicalEvent}
    (hlookup : lookupSchema w.db.vendorSchemas vendorId (structuralFingerprint env (.obj payload) []) =
      some schemaMatch)
    (hreads : Reads env payload eventId vendorId schemaMatch.schemaDoc (Stored w.db vendorId) canonical)
    (hnormalize : normalize (overrideVendor vendorId canonical) = .ok normalized) :
    Tells env settings w payload eventId vendorId normalized.account :=
  tells_iff.mpr ⟨canonical, normalized, .schema hlookup (hreads.mono fun _ _ _ hstored => ⟨w, .stored hstored⟩),
    hnormalize, rfl⟩

/-- What the stored schema reads with a stored mapping is all that is told. -/
theorem Tells.eq_of_reads {schemaMatch : SchemaMatch} {canonical normalized : CanonicalEvent} {account : Account}
    (hlookup : lookupSchema w.db.vendorSchemas vendorId (structuralFingerprint env (.obj payload) []) =
      some schemaMatch)
    (hreads : Reads env payload eventId vendorId schemaMatch.schemaDoc (Stored w.db vendorId) canonical)
    (hnormalize : normalize (overrideVendor vendorId canonical) = .ok normalized)
    (h : Tells env settings w payload eventId vendorId account) : account = normalized.account :=
  h.unique (tells_of_reads hlookup hreads hnormalize)

/-- **A step that is told an account finalizes an event of it.** -/
theorem processEvent_told {row : RawEvent} {account : Account} (hrow : w.db.rawEvents.lookup eventId = some row)
    (h : Tells env settings w row.payload eventId (resolveVendorId env.toUnicode row) account) :
    ∃ normalized, normalized.base.eventId = eventId ∧
      Finalizes w normalized (Job.run (processEvent env settings eventId) w).1
        (Job.run (processEvent env settings eventId) w).2 ∧ normalized.account = account := by
  obtain ⟨draft, normalized, hsure, hnormalize, haccount⟩ := tells_iff.mp h
  refine ⟨normalized, ?_, processEvent_sure hrow hsure hnormalize, haccount⟩
  rw [base_of_normalize hnormalize]
  exact (eventId_overrideVendor _ draft).trans hsure.draft_eventId

/-- **A step that is told none finalizes nothing.** -/
theorem processEvent_untold {row : RawEvent} (hrow : w.db.rawEvents.lookup eventId = some row)
    (h : ∀ account, ¬ Tells env settings w row.payload eventId (resolveVendorId env.toUnicode row) account) :
    Idle w (Job.run (processEvent env settings eventId) w).1 (Job.run (processEvent env settings eventId) w).2 :=
  processEvent_idle hrow fun draft normalized hsure hnormalize =>
    h normalized.account (tells_iff.mpr ⟨draft, normalized, hsure, hnormalize, rfl⟩)

end Steps

end WebhookIngestion
