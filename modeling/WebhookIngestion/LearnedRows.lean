import WebhookIngestion.ServedRows

/-! # What becomes of learned rows

`vendor_schemas` and `vendor_event_type_map` hold what was learned and what people have
decided: a schema that is active or deprecated, a mapping that was reviewed.  One operation
does one of a few things to a row of either table (`SchemaStep`, `MappingStep`); none of
them undoes a decision or takes one (`decisions_kept`). -/
namespace WebhookIngestion
open Tables Programs

/-! ### Schemas -/

/-- What becomes of a schema: it keeps its id and its status, its counts grow, and its document
stays unless it is provisional. -/
structure VendorSchema.Later (row row' : VendorSchema) : Prop where
  id : row'.id = row.id
  status : row'.status = row.status
  successCount : row.successCount ≤ row'.successCount
  failureCount : row.failureCount ≤ row'.failureCount
  document : row.status ≠ .provisional → row'.schemaDoc = row.schemaDoc ∧ row'.sourceEventId = row.sourceEventId

theorem VendorSchema.Later.refl (row : VendorSchema) : row.Later row := ⟨rfl, rfl, le_rfl, le_rfl, fun _ => ⟨rfl, rfl⟩⟩

theorem VendorSchema.Later.trans {row row' row'' : VendorSchema} (h : row.Later row') (h' : row'.Later row'') :
    row.Later row'' where
  id := h'.id.trans h.id
  status := h'.status.trans h.status
  successCount := h.successCount.trans h'.successCount
  failureCount := h.failureCount.trans h'.failureCount
  document hstatus := by
    obtain ⟨hdoc, hsource⟩ := h.document hstatus
    obtain ⟨hdoc', hsource'⟩ := h'.document (h.status ▸ hstatus)
    exact ⟨hdoc'.trans hdoc, hsource'.trans hsource⟩

/-- **What an operation does to the schema under a key**: it may count, or teach. -/
inductive SchemaStep (o : Op) (key : SchemaKey) : Option VendorSchema → Option VendorSchema → Prop
  | same (row : Option VendorSchema) : SchemaStep o key row row
  | counted {row row' : VendorSchema} (hlater : row.Later row') (hdoc : row'.schemaDoc = row.schemaDoc)
      (hsource : row'.sourceEventId = row.sourceEventId) : SchemaStep o key (some row) (some row')
  | taught {old : Option VendorSchema} {row : VendorSchema}
      (ho : o = .upsertSchema key.vendorId key.structuralFingerprint row.schemaDoc row.sourceEventId)
      (hversion : key.schemaVersion = 1) (hstatus : row.status = .provisional)
      (hold : ∀ before ∈ old, before.Later row) : SchemaStep o key old (some row)

theorem SchemaStep.updateSchema {o : Op} (db : Database) (schemaId : SchemaId) {set : VendorSchema → VendorSchema}
    (hset : ∀ row, row.Later (set row) ∧ (set row).schemaDoc = row.schemaDoc ∧
      (set row).sourceEventId = row.sourceEventId) (key : SchemaKey) :
    SchemaStep o key (db.vendorSchemas.lookup key) ((db.updateSchema schemaId set).vendorSchemas.lookup key) := by
  rw [Database.updateSchema, lookup_updateRows]
  cases db.vendorSchemas.lookup key with
  | none => exact .same none
  | some row =>
    rw [Option.map_some]
    by_cases hid : row.id = schemaId
    · rw [if_pos hid]
      exact .counted (hset row).1 (hset row).2.1 (hset row).2.2
    · rw [if_neg hid]
      exact .same (some row)

/-- The row that discovery leaves is a new one or a later one of a provisional schema. -/
theorem schemaRow_later {db : Database} {key : SchemaKey} {schemaDoc : JsonObject} {eventId : EventId}
    {row : VendorSchema} (h : db.schemaRow key schemaDoc eventId = some row) :
    row.schemaDoc = schemaDoc ∧ row.sourceEventId = eventId ∧ row.status = .provisional ∧
      ∀ before ∈ db.vendorSchemas.lookup key, before.Later row := by
  rw [Database.schemaRow] at h
  cases hold : db.vendorSchemas.lookup key with
  | none =>
    rw [hold] at h
    cases h
    exact ⟨rfl, rfl, rfl, nofun⟩
  | some before =>
    rw [hold] at h
    dsimp only at h
    by_cases hstatus : before.status = .provisional
    · rw [if_pos hstatus] at h
      cases h
      refine ⟨rfl, rfl, hstatus, ?_⟩
      rintro _ ⟨⟩
      exact ⟨rfl, rfl, le_rfl, le_rfl, fun hne => absurd hstatus hne⟩
    · rw [if_neg hstatus] at h
      cases h

/-- **Schemas are counted and taught, and nothing else is done to them.** -/
theorem schemaStep_handle (o : Op) (w : World) (key : SchemaKey) :
    SchemaStep o key (w.db.vendorSchemas.lookup key) ((o.handle w).2.db.vendorSchemas.lookup key) := by
  cases o with
  | upsertSchema vendorId fingerprint schemaDoc eventId =>
    simp only [Op.handle, Database.upsertSchema]
    split
    · rename_i row hrow
      obtain ⟨rfl, rfl, hstatus, hold⟩ := schemaRow_later hrow
      dsimp only
      rw [lookup_insert_eq]
      split
      · rename_i hkey
        subst hkey
        exact .taught rfl rfl hstatus hold
      · exact .same _
    · exact .same _
  | incrementSuccess schemaId =>
    have hset (row : VendorSchema) : row.Later { row with successCount := row.successCount + 1 } ∧
        row.schemaDoc = row.schemaDoc ∧ row.sourceEventId = row.sourceEventId :=
      ⟨⟨rfl, rfl, Nat.le_succ _, le_rfl, fun _ => ⟨rfl, rfl⟩⟩, rfl, rfl⟩
    exact .updateSchema w.db schemaId hset key
  | incrementFailure schemaId =>
    have hset (row : VendorSchema) : row.Later { row with failureCount := row.failureCount + 1 } ∧
        row.schemaDoc = row.schemaDoc ∧ row.sourceEventId = row.sourceEventId :=
      ⟨⟨rfl, rfl, le_rfl, Nat.le_succ _, fun _ => ⟨rfl, rfl⟩⟩, rfl, rfl⟩
    exact .updateSchema w.db schemaId hset key
  | insertRawEvent | enqueue | insertAudit | complete | finalize =>
    simp only [Op.handle]
    split <;> exact .same _
  | upsertEventType vendorId rawEventType classification canonicalState confidence =>
    simp only [Op.handle, Database.upsertEventType]
    split
    · split
      · split <;> exact .same _
      · exact .same _
    · exact .same _
  | insertEventType vendorId rawEventType classification canonicalState =>
    simp only [Op.handle, Database.insertEventType]
    split <;> exact .same _
  | insertCache cacheKey entry =>
    simp only [Op.handle, Database.insertCache]
    split
    · split <;> exact .same _
    · exact .same _
  | _ => exact .same _

/-! ### Mappings -/

/-- **What an operation does to the mapping under a key**: it leaves a reviewed one, and
reviews none. -/
inductive MappingStep : Option EventTypeMapping → Option EventTypeMapping → Prop
  | same (row : Option EventTypeMapping) : MappingStep row row
  | written {old : Option EventTypeMapping} {row : EventTypeMapping} (hrow : row.reviewedByHuman = false)
      (hold : ∀ before ∈ old, before.reviewedByHuman = false) : MappingStep old (some row)

theorem MappingStep.insert {t : Table (String × String) EventTypeMapping} {key : String × String}
    {mapping : EventTypeMapping} (hmapping : mapping.reviewedByHuman = false)
    (hold : ∀ before ∈ t.lookup key, before.reviewedByHuman = false) (key' : String × String) :
    MappingStep (t.lookup key') ((t.insert key mapping).lookup key') := by
  rw [lookup_insert_eq]
  by_cases hkey : key' = key
  · rw [if_pos hkey, hkey]
    exact .written hmapping hold
  · rw [if_neg hkey]
    exact .same _

theorem mappingStep_handle (o : Op) (w : World) (key : String × String) :
    MappingStep (w.db.vendorEventTypeMap.lookup key) ((o.handle w).2.db.vendorEventTypeMap.lookup key) := by
  cases o with
  | upsertEventType vendorId rawEventType classification canonicalState confidence =>
    simp only [Op.handle, Database.upsertEventType]
    split
    · split
      · rename_i row hrow
        split
        · exact .same _
        · rename_i hunreviewed
          refine .insert rfl (fun before hbefore => ?_) key
          rw [hrow] at hbefore
          cases hbefore
          exact Bool.eq_false_iff.mpr hunreviewed
      · rename_i hnone
        refine .insert rfl (fun before hbefore => ?_) key
        rw [hnone] at hbefore
        cases hbefore
    · exact .same _
  | insertEventType vendorId rawEventType classification canonicalState =>
    simp only [Op.handle, Database.insertEventType]
    split
    · exact .same _
    · rename_i hnone
      refine .insert rfl (fun before hbefore => ?_) key
      rw [hnone] at hbefore
      cases hbefore
  | insertRawEvent | enqueue | insertAudit | complete | finalize =>
    simp only [Op.handle]
    split <;> exact .same _
  | upsertSchema vendorId fingerprint schemaDoc eventId =>
    simp only [Op.handle, Database.upsertSchema]
    split <;> exact .same _
  | insertCache cacheKey entry =>
    simp only [Op.handle, Database.insertCache]
    split
    · split <;> exact .same _
    · exact .same _
  | _ => exact .same _

/-! ### Decisions -/

/-- **The decisions of people in the one database are those in the other**: the reviewed
mappings, and the schemas that are not provisional, but for their counts. -/
structure SameDecisions (db db' : Database) : Prop where
  mappings : ∀ key (row : EventTypeMapping), row.reviewedByHuman = true →
    (db'.vendorEventTypeMap.lookup key = some row ↔ db.vendorEventTypeMap.lookup key = some row)
  schemas : ∀ key row, db.vendorSchemas.lookup key = some row →
    ∃ row', db'.vendorSchemas.lookup key = some row' ∧ row.Later row'
  undecided : ∀ key row', db'.vendorSchemas.lookup key = some row' → row'.status ≠ .provisional →
    ∃ row, db.vendorSchemas.lookup key = some row ∧ row.Later row'

theorem SameDecisions.refl (db : Database) : SameDecisions db db where
  mappings _ _ _ := Iff.rfl
  schemas _ row hrow := ⟨row, hrow, .refl row⟩
  undecided _ row hrow _ := ⟨row, hrow, .refl row⟩

theorem SameDecisions.trans {db db' db'' : Database} (h : SameDecisions db db') (h' : SameDecisions db' db'') :
    SameDecisions db db'' where
  mappings key row hreviewed := (h'.mappings key row hreviewed).trans (h.mappings key row hreviewed)
  schemas key row hrow := by
    obtain ⟨row', hrow', hlater⟩ := h.schemas key row hrow
    obtain ⟨row'', hrow'', hlater'⟩ := h'.schemas key row' hrow'
    exact ⟨row'', hrow'', hlater.trans hlater'⟩
  undecided key row'' hrow'' hstatus := by
    obtain ⟨row', hrow', hlater'⟩ := h'.undecided key row'' hrow'' hstatus
    obtain ⟨row, hrow, hlater⟩ := h.undecided key row' hrow' (hlater'.status ▸ hstatus)
    exact ⟨row, hrow, hlater.trans hlater'⟩

/-- **No operation takes a decision, or undoes one.** -/
theorem sameDecisions_handle (o : Op) (w : World) : SameDecisions w.db (o.handle w).2.db where
  mappings key row hreviewed := by
    have hstep := mappingStep_handle o w key
    generalize w.db.vendorEventTypeMap.lookup key = before at hstep ⊢
    generalize (o.handle w).2.db.vendorEventTypeMap.lookup key = after at hstep ⊢
    cases hstep with
    | same => exact Iff.rfl
    | written hrow hold =>
      constructor
      · rintro ⟨⟩
        rw [hreviewed] at hrow
        cases hrow
      · rintro rfl
        have hunreviewed := hold row rfl
        rw [hreviewed] at hunreviewed
        cases hunreviewed
  schemas key row hrow := by
    have hstep := schemaStep_handle o w key
    rw [hrow] at hstep
    generalize (o.handle w).2.db.vendorSchemas.lookup key = after at hstep ⊢
    cases hstep with
    | same => exact ⟨row, rfl, .refl row⟩
    | counted hlater => exact ⟨_, rfl, hlater⟩
    | taught ho hversion hstatus hold => exact ⟨_, rfl, hold row rfl⟩
  undecided key row' hrow' hstatus := by
    have hstep := schemaStep_handle o w key
    rw [hrow'] at hstep
    generalize w.db.vendorSchemas.lookup key = before at hstep ⊢
    cases hstep with
    | same => exact ⟨row', rfl, .refl row'⟩
    | counted hlater => exact ⟨_, rfl, hlater⟩
    | taught ho hversion hprovisional hold => exact absurd hprovisional hstatus

section Runs
variable (env : Externals) (settings : Settings) {mayLose : Op → Prop} {C : Op → World → Prop} {ι : Type}
  [DecidableEq ι]

/-- **What people have decided stays decided, and nobody else decides**, whatever deliveries,
jobs, replays and truncations run beside each other and wherever they fail. -/
theorem decisions_kept {c c' : ServiceConfig ι} (h : (service env settings mayLose).Reaches C c c') :
    SameDecisions c.state.db c'.state.db := by
  induction h with
  | refl => exact .refl _
  | @tail before after _ hstep ih =>
    refine ih.trans ?_
    cases hstep with
    | start => exact .refl _
    | @perform i k past o next r w htask hallowed hanswers =>
      cases hanswers with
      | done | lost => exact sameDecisions_handle o before.state
      | failed => exact .refl _
    | @outside w houtside =>
      show SameDecisions before.state.db w.db
      rw [houtside.1]
      exact .refl _

end Runs

/-- A person has reviewed the mapping of a raw event type. -/
def reviewedWorld : World :=
  let types : Table (String × String) EventTypeMapping := ∅
  let mapping : EventTypeMapping := ⟨"invoice", "invoice.paid", some 1, true⟩
  { World.start with db := { Database.empty with
      vendorEventTypeMap := types.insert ("globalfreightpay", "settled") mapping } }

/-- A truncation leaves the reviewed mapping. -/
theorem truncated_decisions_kept :
    let c := [System.Turn.start 0 ServiceJob.truncate, .perform 0].foldl
      (System.turn (service april28Runtime .defaults fun _ => True)) (Config.idle reviewedWorld : ServiceConfig Nat)
    c.state.db.vendorEventTypeMap.lookup ("globalfreightpay", "settled") =
      some ⟨"invoice", "invoice.paid", some 1, true⟩ := by
  intro c
  have hreaches : (service april28Runtime .defaults fun _ => True).Reaches (fun _ _ => True)
      (Config.idle reviewedWorld) c := System.reaches_schedule (System.along_turns (fun f hm => by simp at hm) _)
  have hkept := decisions_kept april28Runtime .defaults hreaches
  exact (hkept.mappings ("globalfreightpay", "settled") ⟨"invoice", "invoice.paid", some 1, true⟩ rfl).mpr rfl

end WebhookIngestion
