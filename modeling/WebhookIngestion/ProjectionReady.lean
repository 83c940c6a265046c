import WebhookIngestion.LearnedSchemas
import WebhookIngestion.Pipeline

/-! # Events that are ready for the projections

What the normalizer promises the state machine of an event, and of which events it keeps
the promise.  The events that reach it were extracted or built from an answer, and may
have got another vendor since, which no model has validated. -/
namespace WebhookIngestion
open Text Programs

/-! ### What is promised -/

/-- Stripped, and not empty. -/
def Stripped (s : String) : Prop := strip s = s ∧ s ≠ ""

/-- A text that stands somewhere in a document as a value. -/
inductive TextIn (s : String) : Json → Prop
  | here : TextIn s (.str s)
  | item {items : List Json} {x : Json} (hmem : x ∈ items) (h : TextIn s x) : TextIn s (.arr items)
  | field {fields : JsonObject} {key : String} {x : Json} (hmem : (key, x) ∈ fields) (h : TextIn s x) :
      TextIn s (.obj fields)

/-- The optional texts of an event that are there. -/
def DetailOf.texts : {k : EntityType} → DetailOf k → List String
  | .shipment, detail =>
    (detail.location.toList.flatMap fun loc => loc.code.toList ++ loc.name.toList) ++ detail.rawMilestone.toList
  | .invoice, detail => detail.rawKind.toList

/-- The reference map of an event. -/
def DetailOf.references : {k : EntityType} → DetailOf k → JsonObject
  | .shipment, detail => detail.referenceIds
  | .invoice, detail => detail.linkedReferences

/-- The same instant, read in UTC. -/
def SameInUtc (t t' : DateTime) : Prop := t'.utcoffset = 0 ∧ t'.instant = t.instant

/-- The event that is ready for the projections, if `ev` is what it was normalized from. -/
structure EntityReady {k : EntityType} (ev ready : CanonicalEntityEvent k) : Prop where
  eventId : ready.eventId = ev.eventId
  eventType : ready.eventType = ev.eventType
  vendorId : Stripped ready.vendorId
  entityExternalId : Stripped ready.entityExternalId
  eventTimestamp : SameInUtc ev.eventTimestamp ready.eventTimestamp
  dueAt : Option.Rel SameInUtc (DetailOf.dueAt? ev.detail) (DetailOf.dueAt? ready.detail)
  texts : ∀ s ∈ DetailOf.texts ready.detail, Stripped s
  references : ∀ entry ∈ DetailOf.references ready.detail, ∀ s, TextIn s entry.2 → Stripped s
  amount : ∀ money, DetailOf.amount? ready.detail = some money →
    isCurrencyCode money.currency = true ∧ money.amountMinor < 2 ^ 63

structure UnclassifiedReady (ev ready : CanonicalUnclassifiedEvent) : Prop where
  eventId : ready.eventId = ev.eventId
  vendorId : Stripped ready.vendorId
  texts : ∀ s ∈ ready.summary.toList ++ ready.reason.toList, Stripped s

/-- An event of the same class that is ready. -/
inductive Ready : CanonicalEvent → CanonicalEvent → Prop
  | entity {k : EntityType} {ev ready : CanonicalEntityEvent k} (h : EntityReady ev ready) :
      Ready (.entity k ev) (.entity k ready)
  | unclassified {ev ready : CanonicalUnclassifiedEvent} (h : UnclassifiedReady ev ready) :
      Ready (.unclassified ev) (.unclassified ready)

/-- The event is delivered to the projections, or refused with the normalizer's own error. -/
def DeliversReady (event : CanonicalEvent) : Prop :=
  normalize event = .error .normalizationError ∨ ∃ ready, normalize event = .ok ready ∧ Ready event ready

/-! ### Which events it holds of -/

/-- What has to be so already, since the normalizer does not make it so. -/
structure EntityPresentable {k : EntityType} (ev : CanonicalEntityEvent k) : Prop where
  vendorId : strip ev.vendorId ≠ ""
  entityExternalId : strip ev.entityExternalId ≠ ""
  references : ∀ entry ∈ DetailOf.references ev.detail, ∀ s, entry.2 ≠ .str s → TextIn s entry.2 → Stripped s
  amount : ∀ money, DetailOf.amount? ev.detail = some money → money.amountMinor < 2 ^ 63

inductive Presentable : CanonicalEvent → Prop
  | entity {k : EntityType} {ev : CanonicalEntityEvent k} (h : EntityPresentable ev) : Presentable (.entity k ev)
  | unclassified {ev : CanonicalUnclassifiedEvent} (hvendor : strip ev.vendorId ≠ "") :
      Presentable (.unclassified ev)

/-- The events that the worker builds. -/
inductive Built (env : Externals) : CanonicalEvent → Prop
  | extracted {payload schemaDoc : JsonObject} {eventId vendorId : String}
      {canonicalState classification rawEventType : Option String} {canonical : CanonicalEvent}
      (h : extract env payload eventId vendorId schemaDoc canonicalState classification =
        .ok ⟨rawEventType, .ok canonical⟩) : Built env canonical
  | answered {eventId : String} {data : JsonObject} {source : Source} {canonical : CanonicalEvent}
      (h : buildCanonical env eventId data source = .ok canonical) : Built env canonical

/-! ### What a built event is like -/

/-- The timestamps of an event. -/
def CanonicalEvent.timestamps : CanonicalEvent → List DateTime
  | .entity _ ev => ev.eventTimestamp :: (DetailOf.dueAt? ev.detail).toList
  | .unclassified _ => []

/-- An event that its model accepted, with timestamps that have a UTC reading. -/
structure WellFormed (event : CanonicalEvent) : Prop where
  eventId : strip event.base.eventId ≠ ""
  timestamps : ∀ t ∈ event.timestamps, toUtc t = .ok t

theorem strip_eventId_of_validate {base : CanonicalBase} (h : base.validate = .ok ()) : strip base.eventId ≠ "" := by
  intro hblank
  rw [CanonicalBase.validate, if_pos (.inl hblank)] at h
  cases h

theorem Built.wellFormed {env : Externals} {event : CanonicalEvent} (h : Built env event) : WellFormed event := by
  have hentity {k : EntityType} {ev : CanonicalEntityEvent k} (hbase : ev.toCanonicalBase.validate = .ok ())
      (hts : toUtc ev.eventTimestamp = .ok ev.eventTimestamp)
      (hdue : ∀ t, DetailOf.dueAt? ev.detail = some t → toUtc t = .ok t) : WellFormed (.entity k ev) := by
    refine ⟨strip_eventId_of_validate hbase, fun t ht => ?_⟩
    rcases List.mem_cons.mp ht with rfl | ht
    · exact hts
    · exact hdue t (Option.mem_toList.mp ht)
  have hunclassified {ev : CanonicalUnclassifiedEvent} (hbase : ev.toCanonicalBase.validate = .ok ()) :
      WellFormed (.unclassified ev) :=
    ⟨strip_eventId_of_validate hbase, fun t ht => absurd ht List.not_mem_nil⟩
  cases h with
  | extracted h =>
    cases extractedAs_of_extract h with
    | entity hclass hfields hread hbase =>
      obtain ⟨tsRaw, -, -, hparse⟩ := hread.eventTimestamp
      exact hentity hbase (parseTimestamp_utc hparse) (dueAt_of_extractDetail hread.detail)
    | unclassified hclass hev hbase => exact hunclassified hbase
  | answered h =>
    cases event with
    | entity k ev =>
      obtain ⟨eventType, hanswer⟩ := answersFor_of_buildCanonical h
      obtain ⟨ts, -, hparse⟩ := hanswer.eventTimestamp
      exact hentity hanswer.base (parseTimestamp_utc hparse) hanswer.dueAt
    | unclassified ev =>
      simp only [buildCanonical, bind_eq_ok] at h
      obtain ⟨_, -, _, -, _, -, h⟩ := h
      split at h
      · obtain ⟨_, -, h⟩ := bind_eq_ok.mp h
        cases h
      · split at h
        · obtain ⟨_, -, h⟩ := bind_eq_ok.mp h
          cases h
        · obtain ⟨ev', hev, h⟩ := bind_eq_ok.mp h
          cases h
          simp only [buildUnclassified, CanonicalUnclassifiedEvent.validate, bind_eq_ok] at hev
          obtain ⟨base, -, _, -, _, -, _, hbase, hev⟩ := hev
          cases hev
          exact hunclassified hbase

/-- Another vendor changes nothing of that. -/
theorem WellFormed.overrideVendor {event : CanonicalEvent} (h : WellFormed event) (vendorId : String) :
    WellFormed (overrideVendor vendorId event) := by
  rw [WebhookIngestion.overrideVendor]
  split
  · cases event with
    | entity k ev => exact ⟨h.eventId, h.timestamps⟩
    | unclassified ev => exact ⟨h.eventId, h.timestamps⟩
  · exact h

/-! ### What the helpers leave -/

theorem stripped_strip {s : String} (h : strip s ≠ "") : Stripped (strip s) := ⟨strip_strip s, h⟩

theorem stripped_of_stripOrNone {val : Option String} {s : String} (h : s ∈ (stripOrNone val).toList) :
    Stripped s := by
  rw [Option.mem_toList, stripOrNone] at h
  cases val with
  | none => cases h
  | some text =>
    simp only [Option.map_some] at h
    split at h
    · cases h
    · next hne =>
      cases h
      exact stripped_strip hne

theorem toUtc_sameInUtc {t t' : DateTime} (h : toUtc t = .ok t') : SameInUtc t t' := by
  have hinstant := instant_toUtc h
  obtain ⟨rfl, -⟩ := astimezoneUtc_eq_ok h
  exact ⟨rfl, hinstant⟩

theorem stripped_of_normalizeLocation {loc : Option Location} {normalized : Location}
    (h : normalizeLocation loc = some normalized) {s : String}
    (hs : s ∈ normalized.code.toList ++ normalized.name.toList) : Stripped s := by
  cases loc with
  | none => cases h
  | some loc =>
    simp only [normalizeLocation] at h
    split at h
    · cases h
    · cases h
      rcases List.mem_append.mp hs with hs | hs
      · exact stripped_of_stripOrNone hs
      · exact stripped_of_stripOrNone hs

/-- What is left of a reference map: its texts stripped, the rest as it is. -/
theorem mem_cleanRefDict {refs : JsonObject} {key : String} {value : Json} :
    (key, value) ∈ cleanRefDict refs ↔
      (∃ s, (key, .str s) ∈ refs ∧ strip s ≠ "" ∧ value = .str (strip s)) ∨
        ((key, value) ∈ refs ∧ value ≠ .null ∧ ∀ s, value ≠ .str s) := by
  rw [cleanRefDict, List.mem_filterMap]
  constructor
  · rintro ⟨⟨key', value'⟩, hmem, h⟩
    cases value' with
    | null => cases h
    | str s =>
      simp only at h
      split at h
      · cases h
      · next hne =>
        cases h
        exact .inl ⟨s, hmem, hne, rfl⟩
    | _ =>
      cases h
      exact .inr ⟨hmem, by simp, by simp⟩
  · rintro (⟨s, hmem, hne, rfl⟩ | ⟨hmem, hnull, hstr⟩)
    · exact ⟨(key, .str s), hmem, by simp [hne]⟩
    · refine ⟨(key, value), hmem, ?_⟩
      cases value with
      | null => exact absurd rfl hnull
      | str s => exact absurd rfl (hstr s)
      | _ => rfl

theorem textsStripped_cleanRefDict {refs : JsonObject} :
    (∀ entry ∈ cleanRefDict refs, ∀ s, TextIn s entry.2 → Stripped s) ↔
      ∀ entry ∈ refs, ∀ s, entry.2 ≠ .str s → TextIn s entry.2 → Stripped s := by
  constructor
  · rintro h ⟨key, value⟩ hmem s hne htext
    refine h (key, value) (mem_cleanRefDict.mpr (.inr ⟨hmem, ?_, fun s' => ?_⟩)) s htext
    · rintro rfl
      cases htext
    · rintro rfl
      cases htext
      exact hne rfl
  · rintro h ⟨key, value⟩ hmem s htext
    rcases mem_cleanRefDict.mp hmem with ⟨s', -, hne, rfl⟩ | ⟨hmem, -, hstr⟩
    · cases htext
      exact stripped_strip hne
    · exact h (key, value) hmem s (hstr s) htext

/-! ### What normalizing leaves of the fields of a kind -/

/-- The normalizer's own error is raised for nothing that is an event. -/
theorem error_of_normalize {event : CanonicalEvent} {e : PyError} (h : normalize event = .error e) :
    (e = .overflowError ∨ e = .valueError) ∨ e = .validationError := by
  have hutc {t : DateTime} {e : PyError} (h : toUtc t = .error e) : e = .overflowError ∨ e = .valueError := by
    rw [toUtc, astimezoneUtc] at h
    split at h
    · exact .inr (Except.error.inj h).symm
    · split at h
      · cases h
      · exact .inl (Except.error.inj h).symm
  have hvalid {base : CanonicalBase} {e : PyError} (h : base.validate = .error e) : e = .validationError := by
    rw [CanonicalBase.validate] at h
    split at h
    · exact (Except.error.inj h).symm
    · cases h
  have hentity {k : EntityType} {ev : CanonicalEntityEvent k} {e : PyError} (h : ev.validate = .error e) :
      e = .validationError := by
    rcases bind_eq_error.mp h with h | ⟨_, -, h⟩
    · exact hvalid h
    · cases h
  cases event with
  | entity k ev =>
    cases k with
    | shipment =>
      rcases bind_eq_error.mp h with h | ⟨_, -, h⟩
      · rcases bind_eq_error.mp h with h | ⟨t, -, h⟩
        · exact .inl (hutc h)
        · exact .inr (hentity h)
      · cases h
    | invoice =>
      rcases bind_eq_error.mp h with h | ⟨_, -, h⟩
      · rcases bind_eq_error.mp h with h | ⟨t, -, h⟩
        · exact .inl (hutc h)
        · rw [normalizeMoney_eq] at h
          rcases bind_eq_error.mp h with h | ⟨amount, -, h⟩
          · cases h
          · rcases bind_eq_error.mp h with h | ⟨dueAt, -, h⟩
            · cases hdue : ev.detail.dueAt with
              | none =>
                rw [hdue] at h
                cases h
              | some t =>
                rw [hdue, Option.mapM_some] at h
                cases ht : toUtc t with
                | ok t' =>
                  rw [ht] at h
                  cases h
                | error e' =>
                  rw [ht] at h
                  cases h
                  exact .inl (hutc ht)
            · exact .inr (hentity h)
      · cases h
  | unclassified ev =>
    rcases bind_eq_error.mp h with h | ⟨_, -, h⟩
    · rcases bind_eq_error.mp h with h | ⟨_, -, h⟩
      · exact .inr (hvalid h)
      · cases h
    · cases h

structure DetailNormalized {k : EntityType} (ev normalized : CanonicalEntityEvent k) : Prop where
  eventTimestamp : SameInUtc ev.eventTimestamp normalized.eventTimestamp
  dueAt : Option.Rel SameInUtc (DetailOf.dueAt? ev.detail) (DetailOf.dueAt? normalized.detail)
  texts : ∀ s ∈ DetailOf.texts normalized.detail, Stripped s
  references : DetailOf.references normalized.detail = cleanRefDict (DetailOf.references ev.detail)

theorem detailNormalized_of_normalize {k : EntityType} {ev normalized : CanonicalEntityEvent k}
    (h : normalize (.entity k ev) = .ok (.entity k normalized)) : DetailNormalized ev normalized := by
  cases k with
  | shipment =>
    simp only [normalize, normalizeShipment, bind_eq_ok, CanonicalEntityEvent.validate_eq_ok] at h
    obtain ⟨_, ⟨t, ht, -, rfl⟩, h⟩ := h
    cases h
    refine ⟨toUtc_sameInUtc ht, .none, fun s hs => ?_, rfl⟩
    rcases List.mem_append.mp hs with hs | hs
    · obtain ⟨loc, hloc, hs⟩ := List.mem_flatMap.mp hs
      exact stripped_of_normalizeLocation (Option.mem_toList.mp hloc) hs
    · exact stripped_of_stripOrNone hs
  | invoice =>
    simp only [normalize, normalizeInvoice, bind_eq_ok, CanonicalEntityEvent.validate_eq_ok] at h
    obtain ⟨_, ⟨t, ht, amount, -, dueAt, hdue, -, rfl⟩, h⟩ := h
    cases h
    refine ⟨toUtc_sameInUtc ht, ?_, fun s hs => stripped_of_stripOrNone hs, rfl⟩
    show Option.Rel SameInUtc ev.detail.dueAt dueAt
    cases hd : ev.detail.dueAt with
    | none =>
      rw [hd] at hdue
      cases hdue
      exact .none
    | some t' =>
      rw [hd, Option.mapM_some] at hdue
      obtain ⟨t'', ht'', rfl⟩ := map_eq_ok.mp hdue
      exact .some (toUtc_sameInUtc ht'')

/-! ### The promise -/

/-- A blank vendor is what a base that was valid may have got since. -/
theorem vendorId_of_normalize {event normalized : CanonicalEvent} (h : normalize event = .ok normalized) :
    strip event.base.vendorId ≠ "" := by
  have hvendor {base : CanonicalBase} (h : (normalizeBase base).validate = .ok ()) : strip base.vendorId ≠ "" := by
    intro hblank
    have hstrip : strip (normalizeBase base).vendorId = "" := by
      rw [normalizeBase, strip_strip, hblank]
    rw [CanonicalBase.validate, if_pos (.inr (.inl hstrip))] at h
    cases h
  cases event with
  | entity k ev =>
    cases k with
    | shipment =>
      simp only [normalize, normalizeShipment, bind_eq_ok, CanonicalEntityEvent.validate_eq_ok] at h
      obtain ⟨_, ⟨_, -, hbase, -⟩, -⟩ := h
      exact hvendor hbase
    | invoice =>
      simp only [normalize, normalizeInvoice, bind_eq_ok, CanonicalEntityEvent.validate_eq_ok] at h
      obtain ⟨_, ⟨_, -, _, -, _, -, hbase, -⟩, -⟩ := h
      exact hvendor hbase
  | unclassified ev =>
    simp only [normalize, normalizeUnclassified, CanonicalUnclassifiedEvent.validate, bind_eq_ok] at h
    obtain ⟨_, ⟨_, hbase, -⟩, -⟩ := h
    exact hvendor hbase

theorem validate_normalized {base : CanonicalBase} (heventId : strip base.eventId ≠ "")
    (hvendor : strip base.vendorId ≠ "") : (normalizeBase base).validate = .ok () := by
  have hrange := clampConfidence_range base.confidence
  rw [CanonicalBase.validate, if_neg]
  push Not
  exact ⟨heventId, by rw [normalizeBase, strip_strip]; exact hvendor, hrange⟩

/-- An entity's event is ready just when it was presentable. -/
theorem entityReady_iff {k : EntityType} {ev normalized : CanonicalEntityEvent k}
    (h : normalize (.entity k ev) = .ok (.entity k normalized)) :
    EntityReady ev normalized ↔ EntityPresentable ev := by
  obtain ⟨_, hsame, hnormalized⟩ := normalized_of_normalize h
  cases hsame
  have hdetail := detailNormalized_of_normalize h
  have hvendorId : normalized.vendorId = strip ev.vendorId := congrArg CanonicalBase.vendorId hnormalized.base
  constructor
  · intro hready
    refine ⟨hvendorId ▸ hready.vendorId.2, hnormalized.entityExternalId ▸ hready.entityExternalId.2, ?_, ?_⟩
    · refine textsStripped_cleanRefDict.mp ?_
      rw [← hdetail.references]
      exact hready.references
    · intro money hmoney
      exact (hready.amount money (hnormalized.amount.trans hmoney)).2
  · intro hpresentable
    exact
      { eventId := (congrArg CanonicalBase.eventId hnormalized.base).trans rfl
        eventType := hnormalized.eventType
        vendorId := hvendorId ▸ stripped_strip hpresentable.vendorId
        entityExternalId := hnormalized.entityExternalId ▸ stripped_strip hpresentable.entityExternalId
        eventTimestamp := hdetail.eventTimestamp
        dueAt := hdetail.dueAt
        texts := hdetail.texts
        references := hdetail.references ▸ textsStripped_cleanRefDict.mpr hpresentable.references
        amount := fun money hmoney =>
          ⟨money.currency_ok, hpresentable.amount money (hnormalized.amount.symm.trans hmoney)⟩ }

/-- A well-formed event whose vendor is not blank is normalized. -/
theorem exists_normalize {event : CanonicalEvent} (h : WellFormed event)
    (hvendor : strip event.base.vendorId ≠ "") : ∃ normalized, normalize event = .ok normalized := by
  have hvalid := validate_normalized h.eventId hvendor
  cases event with
  | entity k ev =>
    have hts := h.timestamps ev.eventTimestamp List.mem_cons_self
    cases k with
    | shipment =>
      simp only [normalize, normalizeShipment, bind_eq_ok, CanonicalEntityEvent.validate_eq_ok]
      exact ⟨_, _, ⟨_, hts, hvalid, rfl⟩, rfl⟩
    | invoice =>
      have hdue : ev.detail.dueAt.mapM toUtc = .ok ev.detail.dueAt := by
        cases hd : ev.detail.dueAt with
        | none => rfl
        | some t =>
          have ht := h.timestamps t (List.mem_cons_of_mem _ (Option.mem_toList.mpr hd))
          rw [Option.mapM_some, ht]
          rfl
      simp only [normalize, normalizeInvoice, bind_eq_ok, CanonicalEntityEvent.validate_eq_ok]
      exact ⟨_, _, ⟨_, hts, _, normalizeMoney_eq _, _, hdue, hvalid, rfl⟩, rfl⟩
  | unclassified ev =>
    simp only [normalize, normalizeUnclassified, CanonicalUnclassifiedEvent.validate, bind_eq_ok]
    exact ⟨_, _, ⟨_, hvalid, rfl⟩, rfl⟩

theorem presentable_vendorId {event : CanonicalEvent} (h : Presentable event) :
    strip event.base.vendorId ≠ "" := by
  cases h with
  | entity h => exact h.vendorId
  | unclassified hvendor => exact hvendor

/-- **The normalizer keeps its promise exactly of the events that are presentable already**:
their vendor and external id are not blank, their amount fits its column, and the texts
deeper inside their reference map are stripped. -/
theorem deliversReady_iff {env : Externals} {canonical : CanonicalEvent} (h : Built env canonical)
    (vendorId : String) :
    DeliversReady (overrideVendor vendorId canonical) ↔ Presentable (overrideVendor vendorId canonical) := by
  have hformed := h.wellFormed.overrideVendor vendorId
  generalize overrideVendor vendorId canonical = event at hformed
  constructor
  · rintro (herror | ⟨ready, hnormalize, hready⟩)
    · rcases error_of_normalize herror with (h | h) | h <;> cases h
    · have hvendor := vendorId_of_normalize hnormalize
      cases hready with
      | entity hready => exact .entity ((entityReady_iff hnormalize).mp hready)
      | unclassified hready => exact .unclassified hvendor
  · intro hpresentable
    obtain ⟨normalized, hnormalize⟩ := exists_normalize hformed (presentable_vendorId hpresentable)
    refine .inr ⟨normalized, hnormalize, ?_⟩
    cases hpresentable with
    | entity hpresentable =>
      obtain ⟨ready, rfl, -⟩ := normalized_of_normalize hnormalize
      exact .entity ((entityReady_iff hnormalize).mpr hpresentable)
    | unclassified hvendor =>
      simp only [normalize, normalizeUnclassified, CanonicalUnclassifiedEvent.validate, bind_eq_ok] at hnormalize
      obtain ⟨ready, ⟨_, -, hready⟩, hnormalize⟩ := hnormalize
      cases hready
      cases hnormalize
      refine .unclassified ⟨rfl, stripped_strip hvendor, fun s hs => ?_⟩
      rcases List.mem_append.mp hs with hs | hs
      · exact stripped_of_stripOrNone hs
      · exact stripped_of_stripOrNone hs

theorem deliversReady_iff_witness :
    DeliversReady (overrideVendor "globalfreightpay" (.entity .invoice (issuedEvent "e1" .llm 1 5))) := by
  have hbuilt : Built april28Runtime (.entity .invoice (issuedEvent "e1" .llm 1 5)) := by
    have hbuild : buildCanonical april28Runtime "e1" (issuedAnswer ["issued"]) .llm =
        .ok (.entity .invoice (issuedEvent "e1" .llm 1 5)) := by decide +kernel
    exact .answered hbuild
  refine (deliversReady_iff hbuilt "globalfreightpay").mpr (.entity ⟨by decide +kernel, by decide +kernel, ?_, ?_⟩)
  · intro entry hentry
    cases hentry
  · rintro money hmoney
    cases hmoney
    decide

theorem Ready.entityExternalId {event ready : CanonicalEvent} (h : Ready event ready) {id : String}
    (hid : ready.entityExternalId? = some id) : Stripped id := by
  cases h with
  | entity h =>
    cases hid
    exact h.entityExternalId
  | unclassified h => cases hid

/-- An answer that the target schema accepts, with an external id of one space. -/
def blankAnswer : JsonObject :=
  [("classification", .str "invoice"), ("vendor_id", .str "globalfreightpay"), ("confidence", .int 1),
    ("entity_external_id", .str " "), ("event_type", .str "invoice.issued"),
    ("event_timestamp", .str "2026-04-28T05:00:00Z")]

/-- The event of that answer is delivered with an empty external id. -/
theorem blank_id_delivered :
    matchesTarget blankAnswer = true ∧
      ∃ canonical, buildCanonical april28Runtime "e1" blankAnswer .llm = .ok canonical ∧
        ∃ normalized, normalize (overrideVendor "globalfreightpay" canonical) = .ok normalized ∧
          normalized.entityExternalId? = some "" ∧
          ¬ DeliversReady (overrideVendor "globalfreightpay" canonical) := by
  have hbuild : buildCanonical april28Runtime "e1" blankAnswer .llm = .ok (.entity .invoice
      { issuedEvent "e1" .llm 1 5 with entityExternalId := " ", detail := ⟨none, none, [], none⟩ }) := by
    decide +kernel
  have hnormalize : normalize (overrideVendor "globalfreightpay" (.entity .invoice
      { issuedEvent "e1" .llm 1 5 with entityExternalId := " ", detail := ⟨none, none, [], none⟩ })) =
        .ok (.entity .invoice
          { issuedEvent "e1" .llm 1 5 with entityExternalId := "", detail := ⟨none, none, [], none⟩ }) := by
    decide +kernel
  refine ⟨by decide +kernel, _, hbuild, _, hnormalize, rfl, ?_⟩
  rintro (herror | ⟨ready, hready, h⟩)
  · cases hnormalize.symm.trans herror
  · obtain rfl := Except.ok.inj (hnormalize.symm.trans hready)
    exact (h.entityExternalId rfl).2 rfl

end WebhookIngestion
