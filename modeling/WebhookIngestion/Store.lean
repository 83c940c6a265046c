import WebhookIngestion.Canonical
import WebhookIngestion.Library.Programs
import WebhookIngestion.Library.Tables
import Mathlib.Logic.Function.Basic

/-! # The projection tables and the statements on them

The five tables the state machine works on (`001_init.sql`), and the SQL
statements it sends.  A statement is answered from the rows it can see, and names
the rows it writes; who keeps those rows, and when others see them, is up to the
semantics that runs it.  Wall-clock columns and the ids of log rows are left out:
no statement reads them. -/
namespace WebhookIngestion
open Tables Programs

abbrev EventId := String

/-- `entities.id`. -/
abbrev EntityId := Nat

/-- `UNIQUE (vendor_id, entity_type, external_id)` of `entities`. -/
structure EntityKey where
  vendorId : String
  entityType : EntityType
  externalId : String
  deriving DecidableEq

/-- The columns of `shipments` that `invoices` does not have. -/
structure ShipmentColumns where
  referenceIds : JsonObject
  location : Option Location
  deriving DecidableEq

/-- The columns of `invoices` that `shipments` does not have; a `TIMESTAMPTZ` is
an instant. -/
structure InvoiceColumns where
  currency : Option String
  amountMinor : Option Nat
  dueAt : Option Int
  linkedReferences : JsonObject
  deriving DecidableEq

@[reducible] def ColumnsOf : EntityType → Type
  | .shipment => ShipmentColumns
  | .invoice => InvoiceColumns

instance : (k : EntityType) → DecidableEq (ColumnsOf k)
  | .shipment => inferInstanceAs (DecidableEq ShipmentColumns)
  | .invoice => inferInstanceAs (DecidableEq InvoiceColumns)

/-- A row of `shipments` or `invoices`, by the entity type. -/
structure Projection (k : EntityType) where
  vendorId : String
  externalId : String
  state : StateOf k
  lastAppliedEventId : EventId
  lastAppliedTs : Int
  version : Nat
  columns : ColumnsOf k
  deriving DecidableEq

/-- `stale_event_log.detail`; `none` is the empty object. -/
structure StaleDetail where
  currentState : String
  currentLastAppliedTs : Int
  eventTimestamp : Int
  deriving DecidableEq

/-- `stale_event_log.reason` and `detail`. -/
structure StaleNote where
  reason : String
  detail : Option StaleDetail
  deriving DecidableEq

structure StaleEvent where
  entityId : EntityId
  eventId : EventId
  note : StaleNote
  deriving DecidableEq

/-- The tables, each by its unique key; the log has none and lists its latest row
first.  `entitiesSeq` is the next value of the sequence behind `entities.id`. -/
structure Store where
  entities : Table EntityKey EntityId
  projections : (k : EntityType) → Table EntityId (Projection k)
  appliedEvents : Table (EntityId × EventId) String
  staleEventLog : List StaleEvent
  entitiesSeq : Nat

/-- Freshly migrated tables. -/
def Store.empty : Store := ⟨∅, fun _ => ∅, ∅, [], 1⟩

/-! ### Writes -/

/-- One row as a statement leaves it: inserted, or replacing the row under its key. -/
inductive Write where
  | entity (key : EntityKey) (id : EntityId)
  | appliedEvent (entityId : EntityId) (eventId : EventId) (targetState : String)
  | projection (k : EntityType) (entityId : EntityId) (row : Projection k)
  | staleEvent (row : StaleEvent)

/-- What a transaction has to itself from a statement until it ends: a unique key it
inserted a row under, or a row it locked or changed. -/
inductive Resource where
  | entityKey (key : EntityKey)
  | entityId (id : EntityId)
  | appliedEvent (entityId : EntityId) (eventId : EventId)
  | projection (k : EntityType) (entityId : EntityId)
  | projectionName (k : EntityType) (vendorId externalId : String)
  deriving DecidableEq

namespace Write

/-- The entity a row belongs to. -/
def entityId : Write → EntityId
  | entity _ id | appliedEvent id _ _ | projection _ id _ => id
  | staleEvent row => row.entityId

/-- The unique keys and rows a written row occupies. -/
def occupies : Write → List Resource
  | entity key id => [.entityKey key, .entityId id]
  | appliedEvent entityId eventId _ => [.appliedEvent entityId eventId]
  | projection k entityId _ => [.projection k entityId]
  | staleEvent _ => []

end Write

namespace Store

def write (s : Store) : Write → Store
  | .entity key id => { s with entities := s.entities.insert key id }
  | .appliedEvent entityId eventId targetState =>
    { s with appliedEvents := s.appliedEvents.insert (entityId, eventId) targetState }
  | .projection k entityId row =>
    { s with projections := Function.update s.projections k ((s.projections k).insert entityId row) }
  | .staleEvent row => { s with staleEventLog := row :: s.staleEventLog }

def writeAll (s : Store) (ws : List Write) : Store := ws.foldl write s

section Fields
variable (s : Store)

@[simp] theorem write_entity (key : EntityKey) (id : EntityId) :
    s.write (.entity key id) = { s with entities := s.entities.insert key id } := rfl

@[simp] theorem write_appliedEvent (entityId : EntityId) (eventId : EventId) (targetState : String) :
    s.write (.appliedEvent entityId eventId targetState) =
      { s with appliedEvents := s.appliedEvents.insert (entityId, eventId) targetState } := rfl

@[simp] theorem write_staleEvent (row : StaleEvent) :
    s.write (.staleEvent row) = { s with staleEventLog := row :: s.staleEventLog } := rfl

section Projection
variable {k : EntityType} (id : EntityId) (row : Projection k)

@[simp] theorem write_projection_entities :
    (s.write (.projection k id row)).entities = s.entities := rfl

@[simp] theorem write_projection_appliedEvents :
    (s.write (.projection k id row)).appliedEvents = s.appliedEvents := rfl

@[simp] theorem write_projection_staleEventLog :
    (s.write (.projection k id row)).staleEventLog = s.staleEventLog := rfl

theorem write_projection_projections : (s.write (.projection k id row)).projections =
    Function.update s.projections k ((s.projections k).insert id row) := rfl

/-- A projection row is the last one written under its key. -/
theorem lookup_write_projection (id' : EntityId) :
    ((s.write (.projection k id row)).projections k).lookup id' =
      if id' = id then some row else (s.projections k).lookup id' := by
  rw [write_projection_projections, Function.update_self, lookup_insert_eq]

/-- Writing a row of one projection table leaves the other table alone. -/
theorem projections_write_of_ne {k' : EntityType} (h : k' ≠ k) :
    (s.write (.projection k id row)).projections k' = s.projections k' := by
  rw [write_projection_projections, Function.update_of_ne h]

end Projection

@[simp] theorem write_entitiesSeq (w : Write) : (s.write w).entitiesSeq = s.entitiesSeq := by
  cases w <;> rfl

end Fields

@[simp] theorem writeAll_nil (s : Store) : s.writeAll [] = s := rfl

@[simp] theorem writeAll_cons (s : Store) (w : Write) (ws : List Write) :
    s.writeAll (w :: ws) = (s.write w).writeAll ws := rfl

theorem writeAll_append (s : Store) (ws vs : List Write) :
    s.writeAll (ws ++ vs) = (s.writeAll ws).writeAll vs := List.foldl_append

/-- Writing rows does not look at the sequence. -/
theorem writeAll_withSeq (s : Store) (ws : List Write) (n : Nat) :
    { s with entitiesSeq := n }.writeAll ws = { s.writeAll ws with entitiesSeq := n } := by
  induction ws generalizing s with
  | nil => rfl
  | cons w ws ih =>
    rw [writeAll_cons, writeAll_cons, ← ih]
    cases w <;> rfl

section Frame
variable (s : Store) {ws : List Write}

/-- A table keeps its rows under the keys that no write occupies. -/
theorem lookup_writeAll_entities {key : EntityKey} (h : ∀ w ∈ ws, .entityKey key ∉ w.occupies) :
    (s.writeAll ws).entities.lookup key = s.entities.lookup key := by
  induction ws generalizing s with
  | nil => rfl
  | cons w ws ih =>
    rw [writeAll_cons, ih _ fun w' hw' => h w' (List.mem_cons_of_mem _ hw')]
    have hw := h w List.mem_cons_self
    cases w with
    | entity key' id =>
      rw [write_entity, lookup_insert_eq, if_neg]
      rintro rfl
      exact hw List.mem_cons_self
    | _ => rfl

/-- Every entity was there before or is written. -/
theorem entities_writeAll {key : EntityKey} {id : EntityId}
    (h : (s.writeAll ws).entities.lookup key = some id) :
    s.entities.lookup key = some id ∨ .entity key id ∈ ws := by
  induction ws generalizing s with
  | nil => exact .inl h
  | cons w ws ih =>
    rcases ih _ h with h | h
    · cases w with
      | entity key' id' =>
        rw [write_entity, lookup_insert_eq] at h
        split at h
        · rename_i he
          cases h
          exact .inr (he ▸ List.mem_cons_self)
        · exact .inl h
      | _ => exact .inl h
    · exact .inr (List.mem_cons_of_mem _ h)

theorem lookup_writeAll_appliedEvents {id : EntityId} {eventId : EventId}
    (h : ∀ w ∈ ws, .appliedEvent id eventId ∉ w.occupies) :
    (s.writeAll ws).appliedEvents.lookup (id, eventId) = s.appliedEvents.lookup (id, eventId) := by
  induction ws generalizing s with
  | nil => rfl
  | cons w ws ih =>
    rw [writeAll_cons, ih _ fun w' hw' => h w' (List.mem_cons_of_mem _ hw')]
    have hw := h w List.mem_cons_self
    cases w with
    | appliedEvent id' eventId' state =>
      rw [write_appliedEvent, lookup_insert_eq, if_neg]
      rintro ⟨⟩
      exact hw List.mem_cons_self
    | _ => rfl

/-- An observed event stays observed. -/
theorem isSome_lookup_writeAll_appliedEvents {id : EntityId} {eventId : EventId}
    (h : (s.appliedEvents.lookup (id, eventId)).isSome) :
    ((s.writeAll ws).appliedEvents.lookup (id, eventId)).isSome := by
  induction ws generalizing s with
  | nil => exact h
  | cons w ws ih =>
    refine ih _ ?_
    cases w with
    | appliedEvent id' eventId' state => exact isSome_lookup_insert h
    | _ => exact h

theorem lookup_writeAll_projections {k : EntityType} {id : EntityId}
    (h : ∀ w ∈ ws, .projection k id ∉ w.occupies) :
    ((s.writeAll ws).projections k).lookup id = (s.projections k).lookup id := by
  induction ws generalizing s with
  | nil => rfl
  | cons w ws ih =>
    rw [writeAll_cons, ih _ fun w' hw' => h w' (List.mem_cons_of_mem _ hw')]
    have hw := h w List.mem_cons_self
    cases w with
    | projection k' id' row =>
      by_cases hk : k = k'
      · subst hk
        rw [lookup_write_projection, if_neg]
        rintro rfl
        exact hw List.mem_cons_self
      · rw [projections_write_of_ne s id' row hk]
    | _ => rfl

end Frame

theorem writeAll_entitiesSeq (s : Store) (ws : List Write) :
    (s.writeAll ws).entitiesSeq = s.entitiesSeq := by
  induction ws generalizing s with
  | nil => rfl
  | cons w ws ih => rw [writeAll_cons, ih, write_entitiesSeq]

end Store

/-! ### Statements -/

/-- What can go wrong in the applier: one of its assertions, a unique constraint its
`ON CONFLICT` clause does not name, or a parameter that the driver cannot encode. -/
inductive ApplyError where
  | assertionError | uniqueViolation | dataError
  deriving DecidableEq

/-- The statements of the state machine. -/
inductive Sql where
  /-- `SELECT id FROM entities WHERE vendor_id = … AND entity_type = … AND external_id = …` -/
  | selectEntity (key : EntityKey)
  /-- `INSERT INTO entities … ON CONFLICT (vendor_id, entity_type, external_id) DO NOTHING
  RETURNING id` -/
  | insertEntity (key : EntityKey)
  /-- `INSERT INTO applied_events … ON CONFLICT (entity_id, event_id) DO NOTHING
  RETURNING entity_id` -/
  | insertAppliedEvent (entityId : EntityId) (eventId : EventId) (targetState : String)
  /-- `INSERT INTO shipments | invoices … ON CONFLICT (entity_id) DO NOTHING RETURNING entity_id` -/
  | insertProjection (k : EntityType) (entityId : EntityId) (row : Projection k)
  /-- `SELECT … FROM shipments | invoices WHERE entity_id = … FOR UPDATE` -/
  | selectForUpdate (k : EntityType) (entityId : EntityId)
  /-- `UPDATE shipments | invoices SET … WHERE entity_id = … AND version = …` -/
  | updateProjection (k : EntityType) (entityId : EntityId) (version : Nat)
      (set : Projection k → Projection k)
  /-- `INSERT INTO stale_event_log …` -/
  | insertStaleEvent (row : StaleEvent)

/-- What a statement returns; an `UPDATE` returns the number of rows it changed. -/
@[reducible] def Sql.Result : Sql → Type
  | selectEntity _ => Option EntityId
  | insertEntity _ => Option EntityId
  | insertAppliedEvent _ _ _ => Option EntityId
  | insertProjection _ _ _ => Option EntityId
  | selectForUpdate k _ => Option (Projection k)
  | updateProjection _ _ _ _ => Nat
  | insertStaleEvent _ => Unit

/-- The values of a `BIGINT` column, which `invoices.amount_minor` is: those below 2 ^ 63. -/
def fitsBigint (n : Nat) : Bool := n < 9223372036854775808

/-- Whether the driver can encode the columns of a row. -/
def encodesColumns : (k : EntityType) → ColumnsOf k → Bool
  | .shipment, _ => true
  | .invoice, columns => columns.amountMinor.all fitsBigint

/-- Whether the driver can encode a statement's parameters; if not, it raises before it
sends the statement.  An `UPDATE` gets the amount that an `INSERT` before it got. -/
def Sql.encodes : Sql → Bool
  | insertProjection k _ row => encodesColumns k row.columns
  | _ => true

/-- A statement's answer and writes on the rows `s` it sees. -/
def Sql.exec : (q : Sql) → (s : Store) → Except ApplyError q.Result × List Write
  | selectEntity key, s => (.ok (s.entities.lookup key), [])
  | insertEntity key, s =>
    match s.entities.lookup key with
    | some _ => (.ok none, [])
    | none => (.ok (some s.entitiesSeq), [.entity key s.entitiesSeq])
  | insertAppliedEvent entityId eventId targetState, s =>
    match s.appliedEvents.lookup (entityId, eventId) with
    | some _ => (.ok none, [])
    | none => (.ok (some entityId), [.appliedEvent entityId eventId targetState])
  | insertProjection k entityId row, s =>
    if encodesColumns k row.columns then
      match (s.projections k).lookup entityId with
      | some _ => (.ok none, [])
      | none =>
        -- `UNIQUE (vendor_id, external_id)`, which the `ON CONFLICT` clause does not cover
        if (s.projections k).entries.any
            (fun e => e.2.vendorId = row.vendorId ∧ e.2.externalId = row.externalId) then
          (.error .uniqueViolation, [])
        else (.ok (some entityId), [.projection k entityId row])
    else (.error .dataError, [])
  | selectForUpdate k entityId, s => (.ok ((s.projections k).lookup entityId), [])
  | updateProjection k entityId version set, s =>
    match (s.projections k).lookup entityId with
    | some row => if row.version = version then (.ok 1, [.projection k entityId (set row)])
      else (.ok 0, [])
    | none => (.ok 0, [])
  | insertStaleEvent row, _ => (.ok (), [.staleEvent row])

/-- The sequence after a statement: every `INSERT INTO entities` takes a value. -/
def Sql.nextSeq : Sql → Nat → Nat
  | insertEntity _, n => n + 1
  | _, n => n

/-- The unique keys and rows a statement takes, given the rows it sees.  An
`INSERT … ON CONFLICT DO NOTHING` that finds its row takes nothing. -/
def Sql.takes : Sql → Store → List Resource
  | insertEntity key, s =>
    if (s.entities.lookup key).isSome then [] else [.entityKey key, .entityId s.entitiesSeq]
  | insertAppliedEvent entityId eventId _, s =>
    if (s.appliedEvents.lookup (entityId, eventId)).isSome then []
    else [.appliedEvent entityId eventId]
  | insertProjection k entityId row, s =>
    if ((s.projections k).lookup entityId).isSome then []
    else [.projection k entityId, .projectionName k row.vendorId row.externalId]
  | selectForUpdate k entityId, s | updateProjection k entityId _ _, s =>
    if ((s.projections k).lookup entityId).isSome then [.projection k entityId] else []
  | selectEntity _, _ | insertStaleEvent _, _ => []

/-- Programs over these statements: the body of a transaction. -/
abbrev Tx := Program ApplyError Sql Sql.Result

section Statements

def selectEntity (key : EntityKey) : Tx (Option EntityId) := .perform (Sql.selectEntity key)

def insertEntity (key : EntityKey) : Tx (Option EntityId) := .perform (Sql.insertEntity key)

def insertAppliedEvent (entityId : EntityId) (eventId : EventId) (targetState : String) :
    Tx (Option EntityId) :=
  .perform (Sql.insertAppliedEvent entityId eventId targetState)

def insertProjection (k : EntityType) (entityId : EntityId) (row : Projection k) :
    Tx (Option EntityId) :=
  .perform (Sql.insertProjection k entityId row)

def selectForUpdate (k : EntityType) (entityId : EntityId) : Tx (Option (Projection k)) :=
  .perform (Sql.selectForUpdate k entityId)

def updateProjection (k : EntityType) (entityId : EntityId) (version : Nat)
    (set : Projection k → Projection k) : Tx Nat :=
  .perform (Sql.updateProjection k entityId version set)

end Statements

/-! ### Alone in the database -/

/-- A statement alone in the database: its writes are visible at once. -/
def Sql.handle (q : Sql) (s : Store) : Except ApplyError q.Result × Store :=
  ((q.exec s).1, { s.writeAll (q.exec s).2 with entitiesSeq := q.nextSeq s.entitiesSeq })

/-- `async with conn.transaction()`, alone in the database: an exception takes
every row back, but not the sequence values taken. -/
def Tx.transaction {α : Type} (body : Tx α) (s : Store) : Except ApplyError α × Store :=
  match body.run Sql.handle s with
  | (.ok a, s') => (.ok a, s')
  | (.error e, s') => (.error e, { s with entitiesSeq := s'.entitiesSeq })

end WebhookIngestion
