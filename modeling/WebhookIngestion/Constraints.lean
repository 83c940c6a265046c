import WebhookIngestion.Provenance
import WebhookIngestion.SchemaIdentity

/-! # The constraints of the migrations

A statement of this model checks the unique keys that its `ON CONFLICT` clause names, and no
other constraint.  It need not: in every reachable state every foreign key refers to a row
that is there, every other unique key is unique, and every checked column is in its range
(`constraints_hold`).  So no statement is refused for a constraint of the migrations. -/
namespace WebhookIngestion
open Tables Lifecycle Programs

/-! ### The books of the projections -/

/-- The tables behind the projections, with the books of every entity in order. -/
structure BooksKept (s : Store) : Prop where
  sound : Sound s
  balanced : ∀ key, Lifecycle.Balanced (stateValue key.entityType) (s.ledger key)
  heads : ∀ key h, (s.ledger key).head = some h → AmountPaired key.entityType h.data ∧ 1 ≤ h.version

theorem booksKept_emptied (n : Nat) : BooksKept { Store.empty with entitiesSeq := n } where
  sound := sound_emptied n
  balanced _ := balanced_empty _
  heads _ _ hhead := by cases hhead

/-- **Applying an event keeps the books.** -/
theorem BooksKept.applyEvent {s : Store} (hs : BooksKept s) (event : CanonicalEvent) :
    BooksKept (applyEvent event s).2 := by
  -- a ledger takes the event, or stays as it is
  have hledger : ∀ key, (WebhookIngestion.applyEvent event s).2.ledger key = s.ledger key ∨
      ∃ e v, Took (rules key.entityType) (s.ledger key) e v ((WebhookIngestion.applyEvent event s).2.ledger key) := by
    intro key
    rw [ledger_applyEvent hs.sound event key]
    cases event.entry key with
    | none => exact .inl rfl
    | some e => exact .inr ⟨e, _, took_step (rules key.entityType) (s.ledger key) e⟩
  refine ⟨sound_applyEvent hs.sound event, fun key => ?_, fun key => ?_⟩
  · rcases hledger key with hsame | ⟨e, v, htook⟩
    · rw [hsame]
      exact hs.balanced key
    · exact balanced_took (rules key.entityType) (hs.balanced key) htook
  · rcases hledger key with hsame | ⟨e, v, htook⟩
    · rw [hsame]
      exact hs.heads key
    · intro h hhead
      exact ⟨data_took (rules key.entityType) amountPaired_initial amountPaired_repeat amountPaired_move
          (fun h hhead => (hs.heads key h hhead).1) htook h hhead,
        version_took (rules key.entityType) (fun h hhead => (hs.heads key h hhead).2) htook h hhead⟩

theorem booksKept_handle (o : Op) {w : World} (h : BooksKept w.db.store) : BooksKept (o.handle w).2.db.store := by
  by_cases hderives : o.Derives
  · cases o with
    | insertRawEvent =>
      rw [Op.handle]
      split <;> exact h
    | finalize eventId event =>
      have hkept := h.applyEvent event
      rw [Op.handle]
      split
      · rename_i outcome store happly
        rw [happly] at hkept
        exact hkept
      · rename_i e store happly
        rw [happly] at hkept
        exact hkept
    | markReview | markPendingLlm | markFailed => exact h
    | truncate => exact booksKept_emptied _
    | _ => exact hderives.elim
  · rw [(derived_handle hderives w).2.1]
    exact h

/-- What was logged of an entity was applied to it. -/
theorem BooksKept.stale_applied {s : Store} (hs : BooksKept s) {row : StaleEvent} (hrow : row ∈ s.staleEventLog) :
    (s.appliedEvents.lookup (row.entityId, row.eventId)).isSome := by
  obtain ⟨key, hkey⟩ := hs.sound.consistent.stale_entity hrow
  have hskipped : row.eventId ∈ (s.ledger key).skipped.map Prod.fst := by
    rw [Store.ledger_of_some hkey]
    refine List.mem_map.mpr ⟨(row.eventId, row.note), ?_, rfl⟩
    exact List.mem_filterMap.mpr ⟨row, hrow, if_pos rfl⟩
  have happlied := (hs.balanced key).skipped_applied row.eventId hskipped
  rw [Store.ledger_of_some hkey] at happlied
  exact AList.lookup_isSome.mpr (mem_fiber_keys.mp happlied)

/-- A projection's version counts from one. -/
theorem BooksKept.version_pos {s : Store} (hs : BooksKept s) {k : EntityType} {id : EntityId} {row : Projection k}
    (hrow : (s.projections k).lookup id = some row) : 1 ≤ row.version := by
  obtain ⟨hledger, hhead⟩ := hs.sound.consistent.ledger_of_row hrow
  exact (hs.heads ⟨row.vendorId, k, row.externalId⟩ row.head (hledger ▸ hhead)).2

/-! ### Audit rows and reviews -/

/-- A cost that was stored in its column. -/
def IsCost (x : Rat) : Prop := ∃ cost, toNumeric 10 6 cost = .ok x

/-- Audit rows and reviews are those of raw events. -/
structure FilesKept (db : Database) : Prop where
  audit : ∀ row ∈ db.llmAudit, (db.rawEvents.lookup row.eventId).isSome ∧ IsCost row.costEstimate
  review : ∀ eventId, (db.requiresHumanReview.lookup eventId).isSome → (db.rawEvents.lookup eventId).isSome

/-- An audit row was there, or has just been filed. -/
theorem audit_handle {o : Op} {w : World} {row : AuditRow} (hrow : row ∈ (o.handle w).2.db.llmAudit) :
    row ∈ w.db.llmAudit ∨ o.files = some row.eventId ∧ IsCost row.costEstimate := by
  cases o with
  | insertAudit eventId source costEstimate decision =>
    simp only [Op.handle] at hrow
    split at hrow
    · rename_i cost hcost
      rcases List.mem_cons.mp hrow with rfl | hrow
      · exact .inr ⟨rfl, costEstimate, hcost⟩
      · exact .inl hrow
    · exact .inl hrow
  | insertRawEvent | enqueue | complete | finalize =>
    simp only [Op.handle] at hrow
    split at hrow <;> exact .inl hrow
  | upsertSchema vendorId fingerprint schemaDoc eventId =>
    simp only [Op.handle, Database.upsertSchema] at hrow
    split at hrow <;> exact .inl hrow
  | upsertEventType vendorId rawEventType classification canonicalState confidence =>
    simp only [Op.handle, Database.upsertEventType] at hrow
    split at hrow
    · split at hrow
      · split at hrow <;> exact .inl hrow
      · exact .inl hrow
    · exact .inl hrow
  | insertEventType vendorId rawEventType classification canonicalState =>
    simp only [Op.handle, Database.insertEventType] at hrow
    split at hrow <;> exact .inl hrow
  | insertCache cacheKey entry =>
    simp only [Op.handle, Database.insertCache] at hrow
    split at hrow
    · split at hrow <;> exact .inl hrow
    · exact .inl hrow
  | _ => exact .inl hrow

/-- A review was there, or has just been filed. -/
theorem review_handle {o : Op} {w : World} {eventId : EventId}
    (hreview : ((o.handle w).2.db.requiresHumanReview.lookup eventId).isSome) :
    (w.db.requiresHumanReview.lookup eventId).isSome ∨ o.files = some eventId := by
  by_cases hderives : o.Derives
  · cases o with
    | insertRawEvent | finalize =>
      rw [Op.handle] at hreview
      split at hreview <;> exact .inl hreview
    | markReview id reason =>
      simp only [Op.handle, Database.markedReview, Database.updateRawEvent] at hreview
      split at hreview
      · exact .inl hreview
      · rw [lookup_insert_eq] at hreview
        split at hreview
        · rename_i hid
          exact .inr (hid ▸ rfl)
        · exact .inl hreview
    | markPendingLlm | markFailed => exact .inl hreview
    | truncate => simp [Op.handle, Database.truncated] at hreview
    | _ => exact hderives.elim
  · rw [(derived_handle hderives w).2.2.2] at hreview
    exact .inl hreview

theorem filesKept_handle {env : Externals} {o : Op} {w : World} (hfiled : o.Filed env w.db)
    (h : FilesKept w.db) : FilesKept (o.handle w).2.db := by
  have hkept : ∀ {id}, (w.db.rawEvents.lookup id).isSome → ((o.handle w).2.db.rawEvents.lookup id).isSome := by
    intro id hsome
    obtain ⟨row, hrow⟩ := Option.isSome_iff_exists.mp hsome
    obtain ⟨row', hrow', -⟩ := later_handle hfiled hrow
    exact Option.isSome_iff_exists.mpr ⟨row', hrow'⟩
  have hnew : ∀ {id}, o.files = some id → ((o.handle w).2.db.rawEvents.lookup id).isSome := by
    intro id hfiles
    obtain ⟨row, row', hrow', -⟩ := hfiled.row id hfiles
    exact hkept (Option.isSome_iff_exists.mpr ⟨row', hrow'⟩)
  constructor
  · intro row hrow
    rcases audit_handle hrow with hold | ⟨hfiles, hcost⟩
    · exact ⟨hkept (h.audit row hold).1, (h.audit row hold).2⟩
    · exact ⟨hnew hfiles, hcost⟩
  · intro eventId hreview
    rcases review_handle hreview with hold | hfiles
    · exact hkept (h.review eventId hold)
    · exact hnew hfiles

/-! ### The constraints -/

/-- **What the migrations demand of the rows**, beside the unique keys of the tables and the
enumerations, which the types see to. -/
structure Constraints (db : Database) : Prop where
  /-- `entities (id)` is a primary key. -/
  entities_id : ∀ key key' id, db.store.entities.lookup key = some id → db.store.entities.lookup key' = some id →
    key = key'
  /-- `entity_id … REFERENCES entities(id)`, by the entity's own name. -/
  projections_entity_id : ∀ k id (row : Projection k), (db.store.projections k).lookup id = some row →
    db.store.entities.lookup ⟨row.vendorId, k, row.externalId⟩ = some id
  /-- `UNIQUE (vendor_id, external_id)` of `shipments` and of `invoices`. -/
  projections_name : ∀ k id id' (row row' : Projection k), (db.store.projections k).lookup id = some row →
    (db.store.projections k).lookup id' = some row' → row.vendorId = row'.vendorId →
      row.externalId = row'.externalId → id = id'
  /-- `CHECK (version >= 1)`. -/
  version_positive : ∀ k id (row : Projection k), (db.store.projections k).lookup id = some row → 1 ≤ row.version
  /-- `entity_id … REFERENCES entities(id)`, `event_id … REFERENCES raw_events(event_id)`. -/
  applied_events : ∀ id eventId, (db.store.appliedEvents.lookup (id, eventId)).isSome →
    (∃ key, db.store.entities.lookup key = some id) ∧ (db.rawEvents.lookup eventId).isSome
  stale_event_log : ∀ row ∈ db.store.staleEventLog,
    (∃ key, db.store.entities.lookup key = some row.entityId) ∧ (db.rawEvents.lookup row.eventId).isSome
  /-- `event_id … REFERENCES raw_events(event_id)`, and `cost_estimate NUMERIC(10, 6)`. -/
  llm_audit : ∀ row ∈ db.llmAudit, (db.rawEvents.lookup row.eventId).isSome ∧ IsCost row.costEstimate
  requires_human_review : ∀ eventId, (db.requiresHumanReview.lookup eventId).isSome →
    (db.rawEvents.lookup eventId).isSome
  /-- The reference, and `CHECK (confidence >= 0.0 AND confidence <= 1.0)`. -/
  canonical_events : ∀ eventId event, db.canonicalEvents.lookup eventId = some event →
    (db.rawEvents.lookup eventId).isSome ∧ 0 ≤ event.base.confidence ∧ event.base.confidence ≤ 1
  /-- `source_event_id … REFERENCES raw_events(event_id)`. -/
  source_event_id : ∀ key row, db.vendorSchemas.lookup key = some row →
    (db.rawEvents.lookup row.sourceEventId).isSome
  /-- `vendor_schemas (id)` is a primary key. -/
  vendor_schemas_id : ∀ key key' row row', db.vendorSchemas.lookup key = some row →
    db.vendorSchemas.lookup key' = some row' → row.id = row'.id → key = key'

/-- The database as every operation keeps it. -/
structure Maintained (env : Externals) (db : Database) : Prop where
  books : BooksKept db.store
  crossReferenced : CrossReferenced db
  canonical : CanonicalNormal db
  files : FilesKept db
  schemas : SchemasLearned env db
  ids : SchemaIds db

theorem maintained_empty (env : Externals) : Maintained env Database.empty where
  books := booksKept_emptied 1
  crossReferenced := crossReferenced_empty
  canonical := canonicalNormal_empty
  files := ⟨nofun, fun eventId h => by simp [Database.empty] at h⟩
  schemas := schemasLearned_empty env
  ids := schemaIds_empty

theorem Maintained.handle {env : Externals} {o : Op} {w : World} (hfiled : o.Filed env w.db)
    (h : Maintained env w.db) : Maintained env (o.handle w).2.db where
  books := booksKept_handle o h.books
  crossReferenced := crossReferenced_handle hfiled.own h.crossReferenced
  canonical := canonicalNormal_handle hfiled h.canonical
  files := filesKept_handle hfiled h.files
  schemas := schemasLearned_handle hfiled h.schemas
  ids := h.ids.handle o w

/-- **What is maintained meets the constraints**: an applied event refers to a raw event by way
of its canonical event, and one in the log by way of its application. -/
theorem Maintained.constraints {env : Externals} {db : Database} (h : Maintained env db) : Constraints db := by
  have hlinked := h.books.sound.consistent.toLinked
  have hrecorded : ∀ {id eventId}, (db.store.appliedEvents.lookup (id, eventId)).isSome →
      (db.rawEvents.lookup eventId).isSome := by
    intro id eventId happlied
    obtain ⟨event, hevent⟩ := Option.isSome_iff_exists.mp (h.crossReferenced.recorded id eventId happlied)
    exact (h.canonical eventId event hevent).1
  constructor
  · exact fun key key' id hkey hkey' => hlinked.entity_inj hkey hkey'
  · exact fun k id row hrow => hlinked.projection_entity hrow
  · intro k id id' row row' hrow hrow' hvendor hexternal
    have hid := hlinked.projection_entity hrow
    rw [hvendor, hexternal, hlinked.projection_entity hrow'] at hid
    exact (Option.some.inj hid).symm
  · exact fun k id row hrow => h.books.version_pos hrow
  · intro id eventId happlied
    obtain ⟨state, hstate⟩ := Option.isSome_iff_exists.mp happlied
    exact ⟨hlinked.applied_entity hstate, hrecorded happlied⟩
  · exact fun row hrow => ⟨hlinked.stale_entity hrow, hrecorded (h.books.stale_applied hrow)⟩
  · exact h.files.audit
  · exact h.files.review
  · intro eventId event hevent
    obtain ⟨hraw, -, hnormal⟩ := h.canonical eventId event hevent
    exact ⟨hraw, hnormal.confidence_range⟩
  · intro key row hrow
    obtain ⟨raw, hraw, -⟩ := h.schemas key row hrow
    exact Option.isSome_iff_exists.mpr ⟨raw, hraw⟩
  · intro key key' row row' hrow hrow' hid
    refine h.ids.unique key key' row.id ?_ ?_
    · rw [Database.schemaId?, hrow, Option.map_some]
    · rw [Database.schemaId?, hrow', Option.map_some, hid]

section Runs
variable (env : Externals) (settings : Settings) {mayLose : Op → Prop} {C : Op → World → Prop} {ι : Type}
  [DecidableEq ι]

/-- **The constraints of the migrations hold in every reachable state**, and the accounts of
every entity balance, whatever deliveries, jobs, replays and truncations run beside each other
and wherever they fail. -/
theorem constraints_hold {c : ServiceConfig ι}
    (h : (service env settings mayLose).Reaches C (.idle World.start) c) :
    Constraints c.state.db ∧ c.state.db.store.Balanced := by
  have hmaintained : Maintained env c.state.db := ((serving_idle env World.start).reaches env settings
    (fun _ _ hfiled hJ => hJ.handle hfiled) (maintained_empty env) h).2
  have hbooks := hmaintained.books
  refine ⟨hmaintained.constraints, balanced_of_ledgers hbooks.sound.consistent.toLinked hbooks.balanced ?_⟩
  exact fun key head hhead => (hbooks.heads key head hhead).1

end Runs

/-- They hold once the issued invoice was processed. -/
theorem issued_constraints :
    Constraints (issuedDatabase (some "globalfreightpay") false "2026-04-28T05:00:00Z") := by
  obtain ⟨c, hreaches, hstate⟩ := reaches_issued
  have hconstraints := constraints_hold april28Runtime .defaults hreaches
  rw [hstate] at hconstraints
  exact hconstraints.1

end WebhookIngestion
