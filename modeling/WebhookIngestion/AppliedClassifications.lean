import WebhookIngestion.UsableMappings

/-! # The classification of what Path A extracts

A schema has a classification, and so has the mapping of a raw event type; the second pass
goes by the mapping's.  Schemas are kept by shape and mappings by raw event type, so an event
may be of another kind than the schema it was read with (`shape_may_be_reclassified`). -/
namespace WebhookIngestion
open Tables Text Programs Runs

theorem classification_overrideVendor (vendorId : String) (event : CanonicalEvent) :
    (overrideVendor vendorId event).classification = event.classification := by
  rw [overrideVendor]
  split
  · cases event <;> rfl
  · rfl

theorem classification_normalize {event normalized : CanonicalEvent} (h : normalize event = .ok normalized) :
    normalized.classification = event.classification := by
  cases event with
  | unclassified ev =>
    obtain ⟨ev', rfl, -⟩ := normalize_unclassified h
    rfl
  | entity k ev =>
    obtain ⟨ev', rfl, -⟩ := normalized_of_normalize h
    rfl

/-- The step has noted that Path A extracted the event. -/
def Extracts (eventId : EventId) (schemaId : SchemaId) (w w' : World) : Prop :=
  ∃ marks, w'.trace = marks ++ w.trace ∧ .extracted eventId schemaId ∈ marks

section Classification
variable (env : Externals) (w : World) (payload : JsonObject) (eventId : EventId) (vendorId : String)

/-- **How Path A classifies an event**: as its schema says where the schema is unclassified and its
first pass makes an event; in every other case as the mapping of the raw event type says, if it has
a classification, and as the schema says if it has none. -/
inductive ClassifiedBy (schemaDoc : JsonObject) (classification : String) : Prop
  | unclassified {rawEventType : Option String} {event : CanonicalEvent}
      (hdoc : schemaDoc.get "classification" = .str "unclassified")
      (hfirst : extract env payload eventId vendorId schemaDoc none none = .ok ⟨rawEventType, .ok event⟩)
      (hclass : classification = "unclassified")
  | mapped {first : ExtractionResult} {mapped canonicalState : String}
      (hfirst : extract env payload eventId vendorId schemaDoc none none = .ok first)
      (hnot : ∀ event, first.event = .ok event → schemaDoc.get "classification" ≠ .str "unclassified")
      (hraw : first.rawEventType.getD "" ≠ "")
      (hresolves : Resolves env w vendorId (first.rawEventType.getD "") mapped canonicalState)
      (hclass : Json.str classification = if mapped = "" then schemaDoc.get "classification" else .str mapped)

variable {env w payload eventId vendorId}

theorem classifiedBy_of_reads {schemaDoc : JsonObject} {canonical : CanonicalEvent}
    (h : Reads env payload eventId vendorId schemaDoc (Resolves env w vendorId) canonical) :
    ClassifiedBy env w payload eventId vendorId schemaDoc canonical.classification.value := by
  cases h with
  | unclassified hdoc hfirst =>
    have hclass := (base_of_extract hfirst).2.2
    rw [show schemaClassification schemaDoc none = schemaDoc.get "classification" from rfl, hdoc] at hclass
    exact .unclassified hdoc hfirst (Json.str.inj hclass).symm
  | @entity first mapped canonicalState rawEventType canonical hfirst hnot hraw hresolves hsecond =>
    refine .mapped hfirst hnot hraw hresolves ?_
    rw [← (base_of_extract hsecond).2.2, schemaClassification]
    by_cases hempty : mapped = ""
    · rw [if_pos hempty, if_neg (by simp [Json.ofText, Json.truthy, hempty])]
    · rw [if_neg hempty, if_pos (by simpa [Json.ofText, Json.truthy] using hempty)]
      rfl

/-- What is extracted in a step is extracted with the schema that was looked up, before the event
is finalized. -/
theorem Drafted.of_extracts {settings : Settings} {w' : World} {canonical : CanonicalEvent} {schemaId : SchemaId}
    (h : Drafted env settings payload eventId vendorId w canonical w')
    (hextracts : Extracts eventId schemaId w w') :
    ∃ schemaMatch, lookupSchema w.db.vendorSchemas vendorId (structuralFingerprint env (.obj payload) []) =
        some schemaMatch ∧ schemaMatch.schemaId = schemaId ∧
      Reads env payload eventId vendorId schemaMatch.schemaDoc (Resolves env w vendorId) canonical := by
  obtain ⟨marks, htrace, hmark⟩ := hextracts
  have hcall : ∀ {calls : List Mark}, (∀ mark ∈ calls, mark.isCall = true) →
      .extracted eventId schemaId ∉ calls := by
    intro calls hcalls hm
    cases hcalls _ hm
  cases h with
  | @schema schemaMatch _ w₁ hlookup hreads hprepares =>
    obtain ⟨calls, hcalls, hall⟩ := hprepares.trace
    have hmarks : marks = .extracted eventId schemaMatch.schemaId :: calls := by
      refine List.append_cancel_right (htrace.symm.trans ?_)
      rw [World.succeeded, hcalls]
      rfl
    rw [hmarks] at hmark
    rcases List.mem_cons.mp hmark with he | hm
    · cases he
      exact ⟨schemaMatch, hlookup, rfl, hreads⟩
    · exact absurd hm (hcall hall)
  | @llm source data _ w₁ _ hnew hoffered hbuild hprepares hlearns =>
    -- Path B notes calls, and what it has learned
    obtain ⟨calls, hcalls, hall⟩ := hprepares.trace
    have hkept : w'.trace = w₁.trace → False := by
      intro hsame
      rw [hsame, hcalls] at htrace
      rw [← List.append_cancel_right htrace] at hmark
      exact hcall hall hmark
    rcases hlearns with rfl | ⟨-, hlearns⟩
    · exact (hkept rfl).elim
    · cases hlearns with
      | nothing hdb hsame => exact (hkept hsame).elim
      | persisted hdiscover hrow hdb heventTypes hnoted =>
        rcases hnoted with hsame | hlearned
        · exact (hkept hsame).elim
        · rw [hlearned, hcalls, ← List.cons_append] at htrace
          rw [← List.append_cancel_right htrace] at hmark
          rcases List.mem_cons.mp hmark with he | hm
          · cases he
          · exact absurd hm (hcall hall)

end Classification

/-- The invoice of the new type is about to be processed, and the classifier to answer. -/
def dispatchedFacing (classification canonicalState : String) : World :=
  (run dispatchRuntime .defaults dispatchedDelivered).facing 1 [.ok (mappingResult classification canonicalState)]

/-- What a step on the invoice comes to: Path A extracts it with the schema of its shape. -/
def DispatchedAs (w : World) (classification : String) : Prop :=
  let step := Job.run (processEvent dispatchRuntime .defaults (dispatchedId "INV-2")) w
  step.1 = .ok (.finalized .appliedInitial) ∧
    step.2.trace =
      [Mark.extracted (dispatchedId "INV-2") 1, .called "globalfreightpay" 1 (some (1 / 10000))] ++ w.trace ∧
    lookupSchema w.db.vendorSchemas "globalfreightpay"
      (structuralFingerprint dispatchRuntime (.obj (dispatchedPayload "INV-2")) []) = some ⟨1, issuedSchema⟩ ∧
    (step.2.db.canonicalEvents.lookup (dispatchedId "INV-2")).map (fun event => event.classification.value) =
      some classification

instance (w : World) (classification : String) : Decidable (DispatchedAs w classification) :=
  inferInstanceAs (Decidable (_ ∧ _))

theorem dispatchedAs_mapped :
    DispatchedAs (dispatchedFacing "invoice" "invoice.paid") "invoice" ∧
      DispatchedAs (dispatchedFacing "shipment" "shipment.in_transit") "shipment" := by
  rw [dispatchedFacing, dispatchedFacing, run_dispatchedDelivered]
  decide +kernel

theorem DispatchedAs.extracts {w : World} {classification : String} (h : DispatchedAs w classification) :
    Extracts (dispatchedId "INV-2") 1 w (Job.run (processEvent dispatchRuntime .defaults (dispatchedId "INV-2")) w).2 :=
  ⟨_, h.2.1, List.mem_cons_self⟩

end WebhookIngestion
