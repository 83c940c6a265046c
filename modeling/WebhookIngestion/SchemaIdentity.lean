import WebhookIngestion.Lessons
import WebhookIngestion.ProjectionReady

/-! # The vendor a schema is learned for

A schema is learned, and looked up, under the vendor that `process_event` resolves for a raw
event.  The canonical event may be of another: where no vendor could be inferred, Path B
leaves the one that the LLM has named.  All events that have taught a schema or were
extracted with it are recorded under one vendor, as long as the LLM names no other for such
an event (`one_identity`); where it does, an invoice becomes two (`identity_splits`). -/
namespace WebhookIngestion
open Tables Text Programs Runs

/-! ### Schema ids -/

/-- The id of the schema under a key. -/
def Database.schemaId? (db : Database) (key : SchemaKey) : Option SchemaId :=
  (db.vendorSchemas.lookup key).map VendorSchema.id

/-- **The sequence gives each id to one schema.** -/
structure SchemaIds (db : Database) : Prop where
  below : ∀ key id, db.schemaId? key = some id → id < db.vendorSchemasSeq
  unique : ∀ key key' id, db.schemaId? key = some id → db.schemaId? key' = some id → key = key'

/-- The schema is one of the vendor's. -/
def SchemaOf (db : Database) (schemaId : SchemaId) (vendorId : String) : Prop :=
  ∃ key, db.schemaId? key = some schemaId ∧ key.vendorId = vendorId

theorem SchemaIds.vendorId_eq {db : Database} (h : SchemaIds db) {schemaId : SchemaId} {vendorId vendorId' : String}
    (hof : SchemaOf db schemaId vendorId) (hof' : SchemaOf db schemaId vendorId') : vendorId = vendorId' := by
  obtain ⟨key, hkey, rfl⟩ := hof
  obtain ⟨key', hkey', rfl⟩ := hof'
  rw [h.unique key key' schemaId hkey hkey']

theorem schemaIds_empty : SchemaIds Database.empty where
  below key id h := by simp [Database.empty, Database.schemaId?] at h
  unique key key' id h := by simp [Database.empty, Database.schemaId?] at h

/-- Counting leaves the ids. -/
theorem schemaId_updateSchema (db : Database) (schemaId : SchemaId) (set : VendorSchema → VendorSchema)
    (hset : ∀ row, (set row).id = row.id) (key : SchemaKey) :
    (db.updateSchema schemaId set).schemaId? key = db.schemaId? key := by
  simp only [Database.schemaId?, Database.updateSchema, lookup_updateRows, Option.map_map]
  congr 1
  funext row
  by_cases hid : row.id = schemaId
  · simp only [Function.comp_apply, if_pos hid, hset]
  · simp only [Function.comp_apply, if_neg hid]

/-- **What an operation does to the ids**: it gives the next one to at most one key, which had
none. -/
structure GivesId (db db' : Database) (given : Option SchemaKey) : Prop where
  fresh : ∀ key, given = some key → db.schemaId? key = none
  ids : ∀ key, db'.schemaId? key = if given = some key then some db.vendorSchemasSeq else db.schemaId? key
  le_seq : db.vendorSchemasSeq ≤ db'.vendorSchemasSeq
  lt_seq : given ≠ none → db.vendorSchemasSeq < db'.vendorSchemasSeq

theorem GivesId.same {db db' : Database} (hids : ∀ key, db'.schemaId? key = db.schemaId? key)
    (hseq : db.vendorSchemasSeq ≤ db'.vendorSchemasSeq) : GivesId db db' none where
  fresh key h := by cases h
  ids key := by rw [if_neg (by simp), hids]
  le_seq := hseq
  lt_seq h := absurd rfl h

/-- A new row takes the next id, and an old one keeps its own. -/
theorem givesId_upsertSchema (db : Database) (key : SchemaKey) (schemaDoc : JsonObject) (eventId : EventId) :
    ∃ given, GivesId db (db.upsertSchema key schemaDoc eventId).2 given := by
  rw [Database.upsertSchema, Database.schemaRow]
  cases hrow : db.vendorSchemas.lookup key with
  | none =>
    refine ⟨some key, fun key' h => ?_, fun key' => ?_, Nat.le_succ _, fun _ => Nat.lt_succ_self _⟩
    · cases h
      rw [Database.schemaId?, hrow, Option.map_none]
    · simp only [Database.schemaId?, lookup_insert_eq, Option.some.injEq, eq_comm (a := key)]
      split <;> rfl
  | some row =>
    refine ⟨none, ?_⟩
    dsimp only
    split
    · next row' hset =>
      have hid : row'.id = row.id := by
        split at hset <;> cases hset
        rfl
      refine .same (fun key' => ?_) (Nat.le_succ _)
      simp only [Database.schemaId?, lookup_insert_eq]
      split
      · next hkey => rw [hkey, hrow, Option.map_some, Option.map_some, hid]
      · rfl
    · exact .same (fun key' => rfl) (Nat.le_succ _)

theorem givesId_handle (o : Op) (w : World) : ∃ given, GivesId w.db (o.handle w).2.db given := by
  cases o with
  | upsertSchema vendorId fingerprint schemaDoc eventId => exact givesId_upsertSchema w.db _ schemaDoc eventId
  | incrementSuccess schemaId =>
    exact ⟨none, .same (schemaId_updateSchema w.db schemaId _ fun _ => rfl) le_rfl⟩
  | incrementFailure schemaId =>
    exact ⟨none, .same (schemaId_updateSchema w.db schemaId _ fun _ => rfl) le_rfl⟩
  | insertRawEvent | enqueue | insertAudit | complete | finalize =>
    simp only [Op.handle]
    split <;> exact ⟨none, .same (fun _ => rfl) le_rfl⟩
  | upsertEventType vendorId rawEventType classification canonicalState confidence =>
    simp only [Op.handle, Database.upsertEventType]
    split
    · split
      · split <;> exact ⟨none, .same (fun _ => rfl) le_rfl⟩
      · exact ⟨none, .same (fun _ => rfl) le_rfl⟩
    · exact ⟨none, .same (fun _ => rfl) le_rfl⟩
  | insertEventType vendorId rawEventType classification canonicalState =>
    simp only [Op.handle, Database.insertEventType]
    split <;> exact ⟨none, .same (fun _ => rfl) le_rfl⟩
  | insertCache cacheKey entry =>
    simp only [Op.handle, Database.insertCache]
    split
    · split <;> exact ⟨none, .same (fun _ => rfl) le_rfl⟩
    · exact ⟨none, .same (fun _ => rfl) le_rfl⟩
  | _ => exact ⟨none, .same (fun _ => rfl) le_rfl⟩

/-- **Every operation keeps the ids apart.** -/
theorem SchemaIds.handle (o : Op) (w : World) (h : SchemaIds w.db) : SchemaIds (o.handle w).2.db := by
  obtain ⟨given, hgives⟩ := givesId_handle o w
  -- an id afterwards is the next one, under the key it was given to, or an old one
  have hcases : ∀ key id, (o.handle w).2.db.schemaId? key = some id →
      given = some key ∧ id = w.db.vendorSchemasSeq ∨ w.db.schemaId? key = some id := by
    intro key id hkey
    rw [hgives.ids] at hkey
    split at hkey
    · next hgiven => exact .inl ⟨hgiven, (Option.some.inj hkey).symm⟩
    · exact .inr hkey
  constructor
  · intro key id hkey
    rcases hcases key id hkey with ⟨hgiven, rfl⟩ | hold
    · exact hgives.lt_seq (by simp [hgiven])
    · exact Nat.lt_of_lt_of_le (h.below key id hold) hgives.le_seq
  · intro key key' id hkey hkey'
    rcases hcases key id hkey with ⟨hgiven, rfl⟩ | hold
    · rcases hcases key' _ hkey' with ⟨hgiven', -⟩ | hold'
      · exact Option.some.inj (hgiven.symm.trans hgiven')
      · exact absurd (h.below key' _ hold') (Nat.lt_irrefl _)
    · rcases hcases key' id hkey' with ⟨-, rfl⟩ | hold'
      · exact absurd (h.below key _ hold) (Nat.lt_irrefl _)
      · exact h.unique key key' id hold hold'

/-- **A schema stays its vendor's.** -/
theorem SchemaOf.handle {schemaId : SchemaId} {vendorId : String} (o : Op) (w : World)
    (h : SchemaOf w.db schemaId vendorId) : SchemaOf (o.handle w).2.db schemaId vendorId := by
  obtain ⟨key, hkey, rfl⟩ := h
  obtain ⟨given, hgives⟩ := givesId_handle o w
  refine ⟨key, ?_, rfl⟩
  rw [hgives.ids, if_neg]
  · exact hkey
  · intro hgiven
    rw [hgives.fresh key hgiven] at hkey
    cases hkey

/-- What every operation keeps, every step of the service keeps. -/
theorem keeps_serve {P : Database → Prop} (hP : ∀ (o : Op) (w : World), P w.db → P (o.handle w).2.db)
    {env : Externals} {settings : Settings} {w : World} (h : P w.db) (action : Action) :
    P (serve env settings w action).db := by
  have hkeeps {α : Type} (p : Job α) (w : World) : P w.db → P (Job.run p w).2.db :=
    (Program.Keeps.of_handle (I := fun w : World => P w.db) hP p).run
  cases action with
  | receive vendorId request queueError => exact hkeeps _ { w with queueError } h
  | process eventId day answers => exact hkeeps _ (w.facing day answers) h

/-! ### Teaching and reading -/

/-- The event that a mark is about, and the schema that it has taught or was extracted with. -/
def Mark.uses : Mark → Option (EventId × SchemaId)
  | .learned eventId _ schemaId _ | .extracted eventId schemaId => some (eventId, schemaId)
  | _ => none

/-- The event has taught the schema, or was extracted with it. -/
def Uses (w : World) (eventId : EventId) (schemaId : SchemaId) : Prop :=
  ∃ mark ∈ w.trace, mark.uses = some (eventId, schemaId)

/-- A call uses no schema. -/
theorem Mark.uses_of_isCall {mark : Mark} (h : mark.isCall = true) : mark.uses = none := by
  cases mark with
  | called => rfl
  | _ => cases h

/-- A trace that grows by calls, and by a mark that may follow them. -/
theorem uses_of_trace {w w' : World} {last calls : List Mark} (htrace : w'.trace = last ++ (calls ++ w.trace))
    (hcalls : ∀ mark ∈ calls, mark.isCall = true) {eventId : EventId} {schemaId : SchemaId}
    (h : Uses w' eventId schemaId) :
    Uses w eventId schemaId ∨ ∃ mark ∈ last, mark.uses = some (eventId, schemaId) := by
  obtain ⟨mark, hmem, huses⟩ := h
  rw [htrace] at hmem
  rcases List.mem_append.mp hmem with hlast | hmem
  · exact .inr ⟨mark, hlast, huses⟩
  · rcases List.mem_append.mp hmem with hcall | hold
    · rw [Mark.uses_of_isCall (hcalls mark hcall)] at huses
      cases huses
    · exact .inl ⟨mark, hold, huses⟩

theorem Prepares.schemaId {w w' : World} (h : Prepares w w') (key : SchemaKey) :
    w'.db.schemaId? key = w.db.schemaId? key := by
  have hlesson := congrArg (Option.map Prod.fst) (h.schemas key)
  rw [Option.map_map, Option.map_map] at hlesson
  exact hlesson

section Step
variable {env : Externals} {settings : Settings} {payload : JsonObject} {eventId : EventId} {vendorId : String}
  {w w' : World}

/-- **A draft uses at most one schema more**, and one of its vendor's. -/
theorem Drafted.uses {canonical : CanonicalEvent}
    (h : Drafted env settings payload eventId vendorId w canonical w') {id : EventId} {schemaId : SchemaId}
    (huses : Uses w' id schemaId) : Uses w id schemaId ∨ id = eventId ∧ SchemaOf w'.db schemaId vendorId := by
  cases h with
  | @schema schemaMatch canonical w₁ hlookup hreads hprepares =>
    obtain ⟨calls, htrace, hcalls⟩ := hprepares.trace
    have hlast : (w₁.succeeded eventId schemaMatch.schemaId).trace =
        [.extracted eventId schemaMatch.schemaId] ++ (calls ++ w.trace) := congrArg _ htrace
    rcases uses_of_trace hlast hcalls huses with hold | ⟨mark, hmem, hmark⟩
    · exact .inl hold
    · obtain rfl := List.mem_singleton.mp hmem
      cases hmark
      obtain ⟨key, row, hchosen, rfl⟩ := lookupSchema_eq_some.mp hlookup
      have hcounted : (w₁.succeeded eventId row.id).db.schemaId? key = w₁.db.schemaId? key :=
        schemaId_updateSchema w₁.db row.id (fun row => { row with successCount := row.successCount + 1 })
          (fun _ => rfl) key
      refine .inr ⟨rfl, key, hcounted.trans ?_, hchosen.vendorId_eq⟩
      rw [hprepares.schemaId, Database.schemaId?, hchosen.lookup, Option.map_some]
  | @llm source data canonical w₁ w' hnew hoffered hbuild hprepares hlearns =>
    obtain ⟨calls, htrace, hcalls⟩ := hprepares.trace
    have hkept : w'.trace = w₁.trace → Uses w id schemaId ∨ id = eventId ∧ SchemaOf w'.db schemaId vendorId := by
      intro hsame
      have hlast : w'.trace = [] ++ (calls ++ w.trace) := hsame.trans htrace
      exact (uses_of_trace hlast hcalls huses).imp_right fun ⟨mark, hmem, _⟩ => by cases hmem
    rcases hlearns with rfl | ⟨-, hlearns⟩
    · exact hkept rfl
    · cases hlearns with
      | nothing hdb hsame => exact hkept hsame
      | @persisted schemaDoc row _ hdiscover hrow hdb heventTypes hnoted =>
        rcases hnoted with hsame | hnoted
        · exact hkept hsame
        · have hlast : w'.trace = [.learned eventId vendorId row.id schemaDoc] ++ (calls ++ w.trace) :=
            hnoted.trans (congrArg _ htrace)
          rcases uses_of_trace hlast hcalls huses with hold | ⟨mark, hmem, hmark⟩
          · exact .inl hold
          · obtain rfl := List.mem_singleton.mp hmem
            cases hmark
            refine .inr ⟨rfl, lessonKey env vendorId payload, ?_, rfl⟩
            rw [Database.schemaId?, hdb, lookup_insert_eq, if_pos rfl, Option.map_some]

/-- The vendor of a draft, unless it is the resolved one, was named in an answer. -/
inductive NamedBy (env : Externals) (settings : Settings) (payload : JsonObject) (eventId : EventId)
    (vendorId : String) (w w' : World) (named : String) : Prop
  | intro {source : Source} {data : JsonObject} (hnew : ¬ Familiar env payload eventId vendorId w.db)
      (hoffered : Offered env settings w vendorId payload source data)
      (hnamed : data.lookup "vendor_id" = some (.str named))
      (hteaches : (source = .llm → ∀ schemaDoc,
        discoverSchema env payload eventId vendorId data ≠ .ok (some schemaDoc)) →
          ∀ id schemaId, Uses w' id schemaId → Uses w id schemaId)

theorem Drafted.named {canonical : CanonicalEvent}
    (h : Drafted env settings payload eventId vendorId w canonical w') :
    canonical.base.vendorId = vendorId ∨
      NamedBy env settings payload eventId vendorId w w' canonical.base.vendorId := by
  cases h with
  | schema hlookup hreads hprepares => exact .inl hreads.base.2
  | @llm source data canonical w₁ w' hnew hoffered hbuild hprepares hlearns =>
    refine .inr (.intro hnew hoffered (base_of_buildCanonical hbuild).2 fun hnothing id schemaId huses => ?_)
    obtain ⟨calls, htrace, hcalls⟩ := hprepares.trace
    have hsame : w'.trace = w₁.trace := by
      rcases hlearns with rfl | ⟨hllm, hlearns⟩
      · rfl
      · cases hlearns with
        | nothing hdb hsame => exact hsame
        | persisted hdiscover => exact absurd hdiscover (hnothing hllm _)
    have hlast : w'.trace = [] ++ (calls ++ w.trace) := hsame.trans htrace
    exact (uses_of_trace hlast hcalls huses).resolve_right fun ⟨mark, hmem, _⟩ => by cases hmem

/-- **Where no vendor is known, the LLM names none**: its answer says "unknown".  Or else the
raw event has no vendor of its own, the answer teaches nothing, and the event has used no
schema so far. -/
def NamesUnknown (env : Externals) (settings : Settings) (w : World) (eventId : EventId) (row : RawEvent) : Prop :=
  ∀ source data named, ¬ Familiar env row.payload eventId "unknown" w.db →
    Offered env settings w "unknown" row.payload source data → data.lookup "vendor_id" = some (.str named) →
      strip named = "unknown" ∨
        row.vendorId = none ∧ (∀ schemaId, ¬ Uses w eventId schemaId) ∧
          (source = .llm → ∀ schemaDoc,
            discoverSchema env row.payload eventId "unknown" data ≠ .ok (some schemaDoc))

/-- **What a step leaves of vendors**: the canonical event has the vendor of the raw event, or it
gives the raw event, which had none and uses no schema, its own. -/
inductive Identifies (eventId : EventId) (vendorId : String) (row : RawEvent) (w w' : World) : Prop
  | stopped (hcanonical : w'.db.canonicalEvents = w.db.canonicalEvents)
      (hraw : ∀ id, (w'.db.rawEvents.lookup id).map RawEvent.delivered =
        (w.db.rawEvents.lookup id).map RawEvent.delivered)
      (huses : ∀ id schemaId, Uses w' id schemaId →
        Uses w id schemaId ∨ id = eventId ∧ SchemaOf w'.db schemaId vendorId)
  | finalized {canonical : CanonicalEvent}
      (hcanonical : w'.db.canonicalEvents = w.db.canonicalEvents.insert eventId canonical)
      (hraw : ∀ id, (w'.db.rawEvents.lookup id).map RawEvent.delivered =
        (w.db.rawEvents.lookup id).map fun row => if id = eventId
          then (row.vendorId.or (some canonical.base.vendorId), row.delivered.2) else row.delivered)
      (huses : ∀ id schemaId, Uses w' id schemaId →
        Uses w id schemaId ∨ id = eventId ∧ SchemaOf w'.db schemaId vendorId)
      (hne : canonical.base.vendorId ≠ "") (hstripped : strip canonical.base.vendorId = canonical.base.vendorId)
      (hvendor : canonical.base.vendorId = strip vendorId ∨
        row.vendorId = none ∧ ∀ schemaId, ¬ Uses w' eventId schemaId)

theorem Worked.identifies {row : RawEvent} {r : Except PyError ProcessOutcome} (hvendor : vendorId ≠ "")
    (h : Worked env settings row.payload eventId vendorId w r w')
    (hnames : vendorId = "unknown" → NamesUnknown env settings w eventId row) :
    Identifies eventId vendorId row w w' := by
  cases h with
  | @finalized canonical normalized outcome store w₁ hdrafted hnormalize happly =>
    obtain ⟨hraw, -, hcanonical⟩ := hdrafted.frame
    have hbase : normalized.base.vendorId = strip (overrideVendor vendorId canonical).base.vendorId :=
      (hdrafted.draft.normalized_base hnormalize).2
    have hid := (hdrafted.draft.normalized_base hnormalize).1
    refine @Identifies.finalized _ _ _ _ _ normalized ?_ (fun id => ?_) (fun id schemaId => hdrafted.uses) ?_ ?_ ?_
    · rw [← hcanonical, ← hid]
      rfl
    · rw [← hraw]
      exact delivered_finalized w₁.db eventId normalized store id
    · rw [hbase]
      exact vendorId_of_normalize hnormalize
    · rw [hbase, strip_strip]
    · rw [hbase]
      by_cases hknown : vendorId = "unknown"
      · -- the draft keeps its vendor: the resolved one, or one that the LLM has named
        subst hknown
        rw [overrideVendor_unknown]
        rcases hdrafted.named with hsame | ⟨hnew, hoffered, hnamed, hteaches⟩
        · exact .inl (congrArg strip hsame)
        · rcases hnames rfl _ _ _ hnew hoffered hnamed with hunknown | ⟨hnone, hunused, hnothing⟩
          · exact .inl (hunknown.trans (by decide))
          · exact .inr ⟨hnone, fun schemaId huses => hunused schemaId (hteaches hnothing _ _ huses)⟩
      · rw [vendorId_overrideVendor hvendor hknown]
        exact .inl rfl
  | failed hdrafted hnormalize happly =>
    obtain ⟨hraw, -, hcanonical⟩ := hdrafted.frame
    exact .stopped hcanonical (fun id => by rw [← hraw]) fun id schemaId => hdrafted.uses
  | @stopped _ w₁ _ hprepared hfiles hr =>
    have huses : ∀ id schemaId, Uses w' id schemaId → Uses w₁ id schemaId := by
      rintro id schemaId ⟨mark, hmem, hmark⟩
      exact ⟨mark, hfiles.trace ▸ hmem, hmark⟩
    have hframe : w'.db.canonicalEvents = w₁.db.canonicalEvents := by rw [hfiles.db]
    rcases hprepared with hprepares | ⟨canonical, hdrafted⟩
    · refine .stopped ?_ (fun id => ?_) fun id schemaId h => .inl ?_
      · rw [hframe, hprepares.db]
      · rw [hfiles.rawEvents, hprepares.db]
      · obtain ⟨calls, htrace, hcalls⟩ := hprepares.trace
        have hlast : w₁.trace = [] ++ (calls ++ w.trace) := htrace
        exact (uses_of_trace hlast hcalls (huses id schemaId h)).resolve_right fun ⟨mark, hmem, _⟩ => by cases hmem
    · obtain ⟨hraw, -, hcanonical⟩ := hdrafted.frame
      refine .stopped (hframe.trans hcanonical) (fun id => by rw [hfiles.rawEvents, hraw]) fun id schemaId h => ?_
      have hof : SchemaOf w'.db schemaId vendorId ↔ SchemaOf w₁.db schemaId vendorId := by
        rw [hfiles.db]
        rfl
      rw [hof]
      exact hdrafted.uses (huses id schemaId h)

end Step

/-! ### The vendor of a raw event -/

section Vendor
variable {u : Unicode} {row row' : RawEvent}

theorem resolveVendorId_delivered (h : row'.delivered = row.delivered) :
    resolveVendorId u row' = resolveVendorId u row := by
  simp only [RawEvent.delivered, Prod.mk.injEq] at h
  rw [resolveVendorId, resolveVendorId, h.1, h.2.1]

/-- A raw event without a vendor gets the one it is recorded under, and any other keeps its own. -/
theorem resolveVendorId_recorded {vendorId : String} (hne : vendorId ≠ "")
    (h : row'.delivered = (row.vendorId.or (some vendorId), row.delivered.2)) :
    row.vendorId = none ∧ resolveVendorId u row' = vendorId ∨
      row.vendorId ≠ none ∧ resolveVendorId u row' = resolveVendorId u row := by
  simp only [RawEvent.delivered, Prod.mk.injEq] at h
  cases hrow : row.vendorId with
  | none =>
    rw [hrow, Option.none_or] at h
    refine .inl ⟨rfl, ?_⟩
    simp only [resolveVendorId, h.1, if_neg hne]
  | some own =>
    rw [hrow, Option.some_or] at h
    refine .inr ⟨by simp, ?_⟩
    rw [resolveVendorId, resolveVendorId, h.1, h.2.1, hrow]

end Vendor

/-! ### Runs -/

/-- **One identity**: what an event is recorded under, and what it used schemas of, is the
vendor that its raw event has by now. -/
structure IdentityKept (u : Unicode) (w : World) : Prop where
  ids : SchemaIds w.db
  used : ∀ eventId schemaId, Uses w eventId schemaId → ∃ row vendorId,
    w.db.rawEvents.lookup eventId = some row ∧ strip (resolveVendorId u row) = strip vendorId ∧
      SchemaOf w.db schemaId vendorId
  recorded : ∀ eventId canonical, w.db.canonicalEvents.lookup eventId = some canonical →
    ∃ row, w.db.rawEvents.lookup eventId = some row ∧
      canonical.base.vendorId = strip (resolveVendorId u row)

theorem identityKept_start (u : Unicode) : IdentityKept u World.start where
  ids := schemaIds_empty
  used eventId schemaId h := by
    obtain ⟨mark, hmem, -⟩ := h
    cases hmem
  recorded eventId canonical h := by simp [World.start, Database.empty] at h

section Runs
variable (env : Externals) (settings : Settings)

/-- A step under which schemas keep to one identity: where the event's vendor is unknown, the LLM
names none. -/
def KeepsIdentity (w : World) : Action → Prop
  | .receive .. => True
  | .process eventId day answers => ∀ row, w.db.rawEvents.lookup eventId = some row →
      resolveVendorId env.toUnicode row = "unknown" → NamesUnknown env settings (w.facing day answers) eventId row

variable {env settings} {w : World}

/-- A delivery adds a raw event that has used nothing and was not recorded. -/
theorem IdentityKept.receive (h : IdentityKept env.toUnicode w) (vendorId : Option VendorPath) (request : Request)
    (queueError : Option PyError) :
    IdentityKept env.toUnicode (serve env settings w (.receive vendorId request queueError)) := by
  have hids := @keeps_serve SchemaIds SchemaIds.handle env settings w h.ids (.receive vendorId request queueError)
  rcases serve_receive env settings w vendorId request queueError with
    ⟨hdb, htrace⟩ | ⟨payload, signatureVerified, -, hnone, hdb, htrace⟩
  · refine ⟨hids, fun eventId schemaId huses => ?_, fun eventId canonical => ?_⟩
    · rw [hdb]
      rw [Uses, htrace] at huses
      exact h.used eventId schemaId huses
    · rw [hdb]
      exact h.recorded eventId canonical
  · have hkept : ∀ id row, w.db.rawEvents.lookup id = some row →
        (serve env settings w (.receive vendorId request queueError)).db.rawEvents.lookup id = some row := by
      intro id row hrow
      rw [hdb, Database.insertRawEvent, lookup_insert_eq, if_neg]
      · exact hrow
      · rintro rfl
        rw [hnone] at hrow
        cases hrow
    refine ⟨hids, fun eventId schemaId huses => ?_, fun eventId canonical hcanonical => ?_⟩
    · have huses' : Uses w eventId schemaId := by
        obtain ⟨mark, hmem, hmark⟩ := huses
        rcases htrace with htrace | htrace
        · rw [htrace] at hmem
          rcases List.mem_cons.mp hmem with rfl | hold
          · cases hmark
          · exact ⟨mark, hold, hmark⟩
        · rw [htrace] at hmem
          rcases List.mem_cons.mp hmem with rfl | hmem
          · cases hmark
          · rcases List.mem_cons.mp hmem with rfl | hold
            · cases hmark
            · exact ⟨mark, hold, hmark⟩
      obtain ⟨row, vendor, hrow, hsame, hof⟩ := h.used eventId schemaId huses'
      refine ⟨row, vendor, hkept eventId row hrow, hsame, ?_⟩
      rw [hdb]
      exact hof
    · rw [hdb] at hcanonical
      obtain ⟨row, hrow, hvendor⟩ := h.recorded eventId canonical hcanonical
      exact ⟨row, hkept eventId row hrow, hvendor⟩

/-- A row that is delivered the same has the same vendor. -/
theorem row_of_delivered {u : Unicode} {w' : World} {id : EventId} {row : RawEvent}
    (hraw : (w'.db.rawEvents.lookup id).map RawEvent.delivered = (w.db.rawEvents.lookup id).map RawEvent.delivered)
    (hrow : w.db.rawEvents.lookup id = some row) :
    ∃ row', w'.db.rawEvents.lookup id = some row' ∧ resolveVendorId u row' = resolveVendorId u row := by
  rw [hrow, Option.map_some] at hraw
  obtain ⟨row', hrow', hdelivered⟩ := Option.map_eq_some_iff.mp hraw
  exact ⟨row', hrow', resolveVendorId_delivered hdelivered⟩

/-- **A step on an event keeps to one identity.** -/
theorem IdentityKept.identifies {u : Unicode} {w' : World} {eventId : EventId} {row : RawEvent}
    (h : IdentityKept u w) (hrow : w.db.rawEvents.lookup eventId = some row) (hids : SchemaIds w'.db)
    (hof : ∀ schemaId vendorId, SchemaOf w.db schemaId vendorId → SchemaOf w'.db schemaId vendorId)
    (hidentifies : Identifies eventId (resolveVendorId u row) row w w') : IdentityKept u w' := by
  cases hidentifies with
  | stopped hcanonical hraw huses =>
    refine ⟨hids, fun id schemaId hid => ?_, fun id canonical hrecorded => ?_⟩
    · rcases huses id schemaId hid with hold | ⟨rfl, hnew⟩
      · obtain ⟨old, vendorId, hlookup, hsame, hschema⟩ := h.used id schemaId hold
        obtain ⟨row', hrow', hvendor⟩ := row_of_delivered (u := u) (hraw id) hlookup
        exact ⟨row', vendorId, hrow', by rw [hvendor, hsame], hof _ _ hschema⟩
      · obtain ⟨row', hrow', hvendor⟩ := row_of_delivered (u := u) (hraw id) hrow
        exact ⟨row', _, hrow', by rw [hvendor], hnew⟩
    · rw [hcanonical] at hrecorded
      obtain ⟨old, hlookup, hsame⟩ := h.recorded id canonical hrecorded
      obtain ⟨row', hrow', hvendor⟩ := row_of_delivered (u := u) (hraw id) hlookup
      exact ⟨row', hrow', by rw [hvendor, hsame]⟩
  | @finalized canonical hcanonical hraw huses hne hstripped hvendor =>
    have hothers : ∀ id old, id ≠ eventId → w.db.rawEvents.lookup id = some old →
        ∃ row', w'.db.rawEvents.lookup id = some row' ∧ resolveVendorId u row' = resolveVendorId u old := by
      intro id old hid hlookup
      refine row_of_delivered ?_ hlookup
      have hdelivered := hraw id
      simp only [if_neg hid] at hdelivered
      exact hdelivered
    obtain ⟨row', hrow', hdelivered⟩ : ∃ row', w'.db.rawEvents.lookup eventId = some row' ∧
        row'.delivered = (row.vendorId.or (some canonical.base.vendorId), row.delivered.2) := by
      have hdelivered := hraw eventId
      rw [hrow, Option.map_some, if_pos rfl] at hdelivered
      exact Option.map_eq_some_iff.mp hdelivered
    -- the raw event goes by the vendor that it is recorded under
    have hnamed : canonical.base.vendorId = strip (resolveVendorId u row') := by
      rcases resolveVendorId_recorded (u := u) hne hdelivered with ⟨-, hresolve⟩ | ⟨hown, hresolve⟩
      · rw [hresolve, hstripped]
      · rw [hresolve]
        exact hvendor.resolve_right fun hnone => hown hnone.1
    have hsame : ∀ schemaId, Uses w' eventId schemaId →
        strip (resolveVendorId u row') = strip (resolveVendorId u row) := by
      intro schemaId hid
      rw [← hnamed]
      exact hvendor.resolve_right fun hunused => hunused.2 schemaId hid
    refine ⟨hids, fun id schemaId hid => ?_, fun id canonical' hrecorded => ?_⟩
    · rcases huses id schemaId hid with hold | ⟨rfl, hnew⟩
      · obtain ⟨old, vendorId, hlookup, hkept, hschema⟩ := h.used id schemaId hold
        by_cases he : id = eventId
        · subst he
          cases hrow.symm.trans hlookup
          exact ⟨row', vendorId, hrow', (hsame schemaId hid).trans hkept, hof _ _ hschema⟩
        · obtain ⟨old', hlookup', hresolve⟩ := hothers id old he hlookup
          exact ⟨old', vendorId, hlookup', by rw [hresolve, hkept], hof _ _ hschema⟩
      · exact ⟨row', _, hrow', hsame schemaId hid, hnew⟩
    · rw [hcanonical, lookup_insert_eq] at hrecorded
      split at hrecorded
      · next he =>
        cases hrecorded
        exact ⟨row', he ▸ hrow', hnamed⟩
      · next he =>
        obtain ⟨old, hlookup, hkept⟩ := h.recorded id canonical' hrecorded
        obtain ⟨old', hlookup', hresolve⟩ := hothers id old he hlookup
        exact ⟨old', hlookup', by rw [hresolve, hkept]⟩

/-- **Every step of the service keeps to one identity**, where the LLM names no vendor for an event
whose own is unknown. -/
theorem identityKept_serve (action : Action) (hkeeps : KeepsIdentity env settings w action)
    (h : IdentityKept env.toUnicode w) : IdentityKept env.toUnicode (serve env settings w action) := by
  cases action with
  | receive vendorId request queueError => exact h.receive vendorId request queueError
  | process eventId day answers =>
    cases hrow : w.db.rawEvents.lookup eventId with
    | none =>
      rw [serve, serve_process_none env settings hrow]
      exact ⟨h.ids, h.used, h.recorded⟩
    | some row =>
      have hfacing : IdentityKept env.toUnicode (w.facing day answers) := ⟨h.ids, h.used, h.recorded⟩
      have hworked := processEvent_worked env settings eventId (w.facing day answers)
      have hrow' : (w.facing day answers).db.rawEvents.lookup eventId = some row := hrow
      rw [hrow'] at hworked
      have hidentifies := hworked.identifies (resolveVendorId_ne_empty env.toUnicode row) fun hunknown =>
        hkeeps row hrow hunknown
      refine hfacing.identifies hrow' ?_ (fun schemaId vendorId hof => ?_) hidentifies
      · exact @keeps_serve SchemaIds SchemaIds.handle env settings w h.ids (.process eventId day answers)
      · exact @keeps_serve (SchemaOf · schemaId vendorId) SchemaOf.handle env settings w hof
          (.process eventId day answers)

/-- **A schema is used under the identity it was learned for**: where the LLM names no vendor for an
event whose own is unknown, an event that taught a schema and an event that was extracted with
it are recorded under one vendor, and are about one entity if their external ids are one. -/
theorem one_identity {actions : List Action}
    (h : Along (serve env settings) (KeepsIdentity env settings) World.start actions)
    {eventId eventId' : EventId} {vendorId : String} {schemaId : SchemaId} {schemaDoc : JsonObject}
    (hlearned : .learned eventId vendorId schemaId schemaDoc ∈ (run env settings actions).trace)
    (hextracted : .extracted eventId' schemaId ∈ (run env settings actions).trace)
    {canonical canonical' : CanonicalEvent}
    (hcanonical : (run env settings actions).db.canonicalEvents.lookup eventId = some canonical)
    (hcanonical' : (run env settings actions).db.canonicalEvents.lookup eventId' = some canonical') :
    canonical.base.vendorId = canonical'.base.vendorId ∧
      ∀ (k : EntityType) (ev ev' : CanonicalEntityEvent k), canonical = .entity k ev → canonical' = .entity k ev' →
        ev.entityExternalId = ev'.entityExternalId → ev.key = ev'.key := by
  have hkept : IdentityKept env.toUnicode (run env settings actions) :=
    h.invariant (fun _ action hkeeps hI => identityKept_serve action hkeeps hI) (identityKept_start env.toUnicode)
  obtain ⟨row, vendor, hrow, hsame, hof⟩ := hkept.used eventId schemaId ⟨_, hlearned, rfl⟩
  obtain ⟨row', vendor', hrow', hsame', hof'⟩ := hkept.used eventId' schemaId ⟨_, hextracted, rfl⟩
  obtain ⟨_, hlookup, hrecorded⟩ := hkept.recorded eventId canonical hcanonical
  obtain ⟨_, hlookup', hrecorded'⟩ := hkept.recorded eventId' canonical' hcanonical'
  cases hrow.symm.trans hlookup
  cases hrow'.symm.trans hlookup'
  have hvendor : canonical.base.vendorId = canonical'.base.vendorId := by
    rw [hrecorded, hrecorded', hsame, hsame', hkept.ids.vendorId_eq hof hof']
  refine ⟨hvendor, ?_⟩
  rintro k ev ev' rfl rfl hid
  have hev : ev.vendorId = ev'.vendorId := hvendor
  simp only [CanonicalEntityEvent.key, hev, hid]

end Runs

/-! ### One invoice, two deliveries -/

/-- The invoice is delivered and processed; then it is delivered again, as created at another
time, and processed without the LLM. -/
def twiceCreated (vendorPath : Option VendorPath) : List Action :=
  [.receive vendorPath (issuedRequest "INV-1" "2026-04-28T05:00:00Z") none, issuedStep "2026-04-28T05:00:00Z",
    .receive vendorPath (issuedRequest "INV-1" "2026-04-28T01:00:00Z") none,
    .process (issuedId "INV-1" "2026-04-28T01:00:00Z") 1 []]

/-- The second delivery, after the first was processed. -/
theorem run_twiceCreated {settings : Settings} {vendorPath : Option VendorPath} {w : World}
    (h : IssuedRun settings vendorPath (issuedRequest "INV-1" "2026-04-28T05:00:00Z") "2026-04-28T05:00:00Z" w) :
    run april28Runtime settings (twiceCreated vendorPath) =
      serve april28Runtime settings (serve april28Runtime settings w
        (.receive vendorPath (issuedRequest "INV-1" "2026-04-28T01:00:00Z") none))
        (.process (issuedId "INV-1" "2026-04-28T01:00:00Z") 1 []) := by
  rw [← h.eq]
  rfl

/-- An event whose vendor is known keeps to it. -/
theorem keepsIdentity_of_known {env : Externals} {settings : Settings} {w : World} {eventId : EventId} {day : Nat}
    {answers : List (Except PyError LLMResult)} {vendorId : String} (hne : vendorId ≠ "unknown")
    (hknown : (w.db.rawEvents.lookup eventId).map (resolveVendorId env.toUnicode) = some vendorId) :
    KeepsIdentity env settings w (.process eventId day answers) := by
  intro row hrow hunknown
  rw [hrow, Option.map_some, hunknown] at hknown
  exact absurd (Option.some.inj hknown).symm hne

/-- The run of both deliveries under the vendor's URL: the first teaches the schema, the second uses
it, and both are recorded. -/
theorem twiceCreated_scoped :
    (.learned (issuedId "INV-1" "2026-04-28T05:00:00Z") "globalfreightpay" 1 issuedSchema ∈
        (run april28Runtime .defaults (twiceCreated (some globalfreightpayPath))).trace ∧
      .extracted (issuedId "INV-1" "2026-04-28T01:00:00Z") 1 ∈
        (run april28Runtime .defaults (twiceCreated (some globalfreightpayPath))).trace) ∧
      ((run april28Runtime .defaults (twiceCreated (some globalfreightpayPath))).db.canonicalEvents.lookup
        (issuedId "INV-1" "2026-04-28T05:00:00Z")).isSome = true ∧
      ((run april28Runtime .defaults (twiceCreated (some globalfreightpayPath))).db.canonicalEvents.lookup
        (issuedId "INV-1" "2026-04-28T01:00:00Z")).isSome = true := by
  rw [run_twiceCreated issuedRun_when_created]
  decide +kernel

/-- Every step of that run keeps to one identity: its events have a vendor of their own. -/
theorem keepsIdentity_twiceCreated :
    Along (serve april28Runtime .defaults) (KeepsIdentity april28Runtime .defaults) World.start
      (twiceCreated (some globalfreightpayPath)) := by
  refine ⟨trivial, keepsIdentity_of_known (show "globalfreightpay" ≠ "unknown" by decide) (by decide +kernel),
    trivial, ?_, trivial⟩
  have hfirst := issuedRun_when_created.serve_eq
  rw [run, List.foldl_cons, List.foldl_nil] at hfirst
  rw [hfirst]
  exact keepsIdentity_of_known (show "globalfreightpay" ≠ "unknown" by decide) (by decide +kernel)

/-- Both deliveries under the vendor's URL are recorded under it. -/
theorem one_identity_witness :
    ((run april28Runtime .defaults (twiceCreated (some globalfreightpayPath))).db.canonicalEvents.lookup
        (issuedId "INV-1" "2026-04-28T05:00:00Z")).map (·.base.vendorId) =
      ((run april28Runtime .defaults (twiceCreated (some globalfreightpayPath))).db.canonicalEvents.lookup
        (issuedId "INV-1" "2026-04-28T01:00:00Z")).map (·.base.vendorId) := by
  obtain ⟨⟨hlearned, hextracted⟩, hsome, hsome'⟩ := twiceCreated_scoped
  obtain ⟨canonical, hcanonical⟩ := Option.isSome_iff_exists.mp hsome
  obtain ⟨canonical', hcanonical'⟩ := Option.isSome_iff_exists.mp hsome'
  rw [hcanonical, hcanonical']
  have hone := one_identity keepsIdentity_twiceCreated hlearned hextracted hcanonical hcanonical'
  rw [Option.map_some, Option.map_some, hone.1]

/-- **An invoice without a vendor becomes two**: the LLM has named a vendor for the first delivery, and
the schema it taught records the second under none. -/
theorem identity_splits :
    let w := run april28Runtime enforcing (twiceCreated none)
    let identity (createdAt : String) := (w.db.canonicalEvents.lookup (issuedId "INV-1" createdAt)).map
      fun canonical => (canonical.base.vendorId, canonical.entityExternalId?)
    .learned (issuedId "INV-1" "2026-04-28T05:00:00Z") "unknown" 1 issuedSchema ∈ w.trace ∧
      .extracted (issuedId "INV-1" "2026-04-28T01:00:00Z") 1 ∈ w.trace ∧
      identity "2026-04-28T05:00:00Z" = some ("globalfreightpay", some "INV-1") ∧
      identity "2026-04-28T01:00:00Z" = some ("unknown", some "INV-1") := by
  rw [run_twiceCreated issuedRun_unscoped]
  decide +kernel

end WebhookIngestion
