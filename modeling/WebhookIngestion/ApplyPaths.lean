import WebhookIngestion.StateMachine

/-! # What applying an event does

`Applies` lists the six ways an event is applied: what the tables held, what the
caller is told, which rows are written.  `Stage` says how far a transaction has come between
two of its statements, in terms of the committed tables and its own rows alone.
One statement leads from stage to stage (`Stage.step`), so the same walk through
the program serves a transaction alone in the database (`applyEntity_transaction`)
and one among others.  A statement that the driver cannot encode ends the transaction: that is
the insert of a projection, for a new event whose amount is out of range (`Finishes`). -/
namespace WebhookIngestion
open Programs Tables

/-! ### Well-kept tables -/

/-- Entity ids are unique, and every row belongs to an entity; a projection goes by
its entity's name. -/
structure Linked (s : Store) : Prop where
  entity_inj : ∀ {key key' id}, s.entities.lookup key = some id →
    s.entities.lookup key' = some id → key = key'
  projection_entity : ∀ {k id} {row : Projection k}, (s.projections k).lookup id = some row →
    s.entities.lookup ⟨row.vendorId, k, row.externalId⟩ = some id
  applied_entity : ∀ {id eventId state}, s.appliedEvents.lookup (id, eventId) = some state →
    ∃ key, s.entities.lookup key = some id
  stale_entity : ∀ {row}, row ∈ s.staleEventLog → ∃ key, s.entities.lookup key = some row.entityId

/-- **The tables as the appliers keep them**: linked, and every entity has its projection. -/
structure Consistent (s : Store) : Prop extends Linked s where
  entity_projection : ∀ {key id}, s.entities.lookup key = some id →
    ((s.projections key.entityType).lookup id).isSome

/-- The sequence is past every entity id in use. -/
def Numbered (s : Store) : Prop :=
  ∀ key id, s.entities.lookup key = some id → id < s.entitiesSeq

/-- No entity has the id. -/
def Unused (s : Store) (id : EntityId) : Prop := ∀ key, s.entities.lookup key ≠ some id

theorem consistent_empty : Consistent Store.empty where
  entity_inj h := by simp [Store.empty] at h
  projection_entity h := by simp [Store.empty] at h
  entity_projection h := by simp [Store.empty] at h
  applied_entity h := by simp [Store.empty] at h
  stale_entity h := by simp [Store.empty] at h

theorem numbered_empty : Numbered Store.empty := by
  intro key id h
  simp [Store.empty] at h

namespace Linked
variable {s : Store} (hs : Linked s)
include hs

/-- No event was observed for an unused id. -/
theorem applied_unused {id : EntityId} (h : Unused s id) (eventId : EventId) :
    s.appliedEvents.lookup (id, eventId) = none := by
  by_contra hne
  obtain ⟨state, hstate⟩ := Option.ne_none_iff_exists'.mp hne
  obtain ⟨key, hkey⟩ := hs.applied_entity hstate
  exact h key hkey

/-- An unused id has no projection. -/
theorem projection_unused {id : EntityId} (h : Unused s id) (k : EntityType) :
    (s.projections k).lookup id = none := by
  by_contra hne
  obtain ⟨row, hrow⟩ := Option.ne_none_iff_exists'.mp hne
  exact h _ (hs.projection_entity hrow)

/-- A projection goes by its entity's name. -/
theorem projection_name {key : EntityKey} {id : EntityId} {row : Projection key.entityType}
    (hkey : s.entities.lookup key = some id)
    (hrow : (s.projections key.entityType).lookup id = some row) :
    row.vendorId = key.vendorId ∧ row.externalId = key.externalId := by
  have := hs.entity_inj (hs.projection_entity hrow) hkey
  exact ⟨congrArg EntityKey.vendorId this, congrArg EntityKey.externalId this⟩

/-- A name that is no entity's is no projection's either. -/
theorem name_free {vendorId externalId : String} {k : EntityType}
    (h : s.entities.lookup ⟨vendorId, k, externalId⟩ = none) :
    (s.projections k).entries.any
      (fun e => e.2.vendorId = vendorId ∧ e.2.externalId = externalId) = false := by
  rw [List.any_eq_false]
  rintro ⟨id, row⟩ hmem hname
  obtain ⟨hv, hx⟩ := of_decide_eq_true hname
  have := hs.projection_entity (mem_entries_iff.mp hmem)
  rw [hv, hx, h] at this
  cases this

end Linked

/-! ### The six paths -/

section Paths
variable {k : EntityType}

/-- The row that records `ev` as observed. -/
def observation (ev : CanonicalEntityEvent k) (id : EntityId) : Write :=
  .appliedEvent id ev.eventId (stateValue k ev.targetState)

/-- The entity of `ev` is known as `id`, its projection is `row`, and `ev` is new to it. -/
structure Known (s : Store) (ev : CanonicalEntityEvent k) (id : EntityId) (row : Projection k) :
    Prop where
  entity : s.entities.lookup ev.key = some id
  projection : (s.projections k).lookup id = some row
  new : s.appliedEvents.lookup (id, ev.eventId) = none

/-- The event was observed for its entity. -/
def Store.Observed (s : Store) (key : EntityKey) (eventId : EventId) : Prop :=
  ∃ id, s.entities.lookup key = some id ∧ (s.appliedEvents.lookup (id, eventId)).isSome

/-- What becomes of a new event of an entity with projection `row`: the outcome, and
the row written next to the observation. -/
inductive Decides (ev : CanonicalEntityEvent k) (id : EntityId) (row : Projection k) :
    ApplyOutcome → Write → Prop
  | stale (older : ev.eventTimestamp.instant < row.lastAppliedTs) :
      Decides ev id row .staleSkipped (.staleEvent ⟨id, ev.eventId,
        olderNote row.state row.lastAppliedTs ev.eventTimestamp.instant⟩)
  | rejected (timely : row.lastAppliedTs ≤ ev.eventTimestamp.instant)
      (no : rejects k row.state ev.targetState) :
      Decides ev id row .transitionRejected (.staleEvent ⟨id, ev.eventId,
        disallowedNote row.state ev.targetState⟩)
  | repeated (timely : row.lastAppliedTs ≤ ev.eventTimestamp.instant)
      (ok : ¬ rejects k row.state ev.targetState) (same : ev.targetState = row.state) :
      Decides ev id row .applied (.projection k id (repeatRow ev row))
  | moved (timely : row.lastAppliedTs ≤ ev.eventTimestamp.instant)
      (ok : ¬ rejects k row.state ev.targetState) (other : ev.targetState ≠ row.state) :
      Decides ev id row .applied (.projection k id (moveRow ev row))

/-- **The ways an event is applied to the rows `s`**: the outcome, and the rows written. -/
inductive Applies (s : Store) (ev : CanonicalEntityEvent k) : ApplyOutcome → List Write → Prop
  | alreadyApplied {id} (entity : s.entities.lookup ev.key = some id)
      (seen : (s.appliedEvents.lookup (id, ev.eventId)).isSome) :
      Applies s ev .alreadyApplied []
  | initial {id} (fits : ev.fits = true) (noEntity : s.entities.lookup ev.key = none)
      (unused : Unused s id) :
      Applies s ev .appliedInitial
        [.entity ev.key id, observation ev id, .projection k id (initialRow ev)]
  | existing {id row outcome w} (fits : ev.fits = true) (known : Known s ev id row)
      (decides : Decides ev id row outcome w) : Applies s ev outcome [observation ev id, w]

/-- **The ways a call ends**: the event is applied, or it is a new one whose amount the
driver cannot encode, and everything is rolled back. -/
inductive Finishes (s : Store) (ev : CanonicalEntityEvent k) :
    Except ApplyError ApplyOutcome → List Write → Prop
  | applied {outcome ws} (applies : Applies s ev outcome ws) : Finishes s ev (.ok outcome) ws
  | raised (unfit : ev.fits = false) (new : ¬ s.Observed ev.key ev.eventId) :
      Finishes s ev (.error .dataError) []

/-- A decision writes a log row or the projection, under the same name. -/
theorem Decides.write_cases {ev : CanonicalEntityEvent k} {id : EntityId} {row : Projection k}
    {outcome : ApplyOutcome} {w : Write} (h : Decides ev id row outcome w) :
    (∃ note, w = .staleEvent ⟨id, ev.eventId, note⟩) ∨
      outcome = .applied ∧ ∃ row', w = .projection k id row' ∧ row'.vendorId = row.vendorId ∧
        row'.externalId = row.externalId := by
  cases h with
  | stale | rejected => exact .inl ⟨_, rfl⟩
  | repeated | moved => exact .inr ⟨rfl, _, rfl, rfl, rfl⟩

/-- Every entity a path creates is the event's own, under an unused id. -/
theorem Applies.entity_mem {s : Store} {ev : CanonicalEntityEvent k} {o : ApplyOutcome}
    {ws : List Write} (h : Applies s ev o ws) {key : EntityKey} {id : EntityId}
    (hm : .entity key id ∈ ws) : key = ev.key ∧ s.entities.lookup key = none ∧ Unused s id := by
  cases h with
  | initial fits noEntity unused =>
    simp only [observation, List.mem_cons, Write.entity.injEq, reduceCtorEq, List.not_mem_nil,
      or_false] at hm
    obtain ⟨rfl, rfl⟩ := hm
    exact ⟨rfl, noEntity, unused⟩
  | alreadyApplied => cases hm
  | existing fits known decides =>
    rcases decides.write_cases with ⟨note, rfl⟩ | ⟨-, row', rfl, -⟩ <;> simp [observation] at hm

/-! ### Stages of a transaction -/

/-- `_apply_shipment` and `_apply_invoice` once the insert of a projection found one. -/
def lockProjection (ev : CanonicalEntityEvent k) (id : EntityId) : Tx ApplyOutcome := do
  match ← selectForUpdate k id with
  | none => .raise .assertionError
  | some existing => applyExisting ev id existing

/-- **How far a transaction that applies `ev` has come**: what is left of its
program, the rows it wrote and what it took so far, and what the committed tables
`db` have to do with it. -/
inductive Stage (db : Store) (ev : CanonicalEntityEvent k) :
    Tx ApplyOutcome → List Write → List Resource → Prop
  | start : Stage db ev (applyEntity ev) [] []
  | missing : Stage db ev (createEntity ev.key >>= applyTo ev) [] []
  | raced {id} (entity : db.entities.lookup ev.key = some id) :
      Stage db ev (rereadEntity ev.key >>= applyTo ev) [] []
  | found {id} (entity : db.entities.lookup ev.key = some id) : Stage db ev (applyTo ev id) [] []
  | created {id} (noEntity : db.entities.lookup ev.key = none) (unused : Unused db id) :
      Stage db ev (applyTo ev id) [.entity ev.key id] [.entityKey ev.key, .entityId id]
  | observed {id} (entity : db.entities.lookup ev.key = some id)
      (new : db.appliedEvents.lookup (id, ev.eventId) = none) :
      Stage db ev (applyObserved ev id) [observation ev id] [.appliedEvent id ev.eventId]
  | createdObserved {id} (noEntity : db.entities.lookup ev.key = none) (unused : Unused db id) :
      Stage db ev (applyObserved ev id) [.entity ev.key id, observation ev id]
        [.entityKey ev.key, .entityId id, .appliedEvent id ev.eventId]
  | present {id} (fits : ev.fits = true) (entity : db.entities.lookup ev.key = some id)
      (new : db.appliedEvents.lookup (id, ev.eventId) = none) :
      Stage db ev (lockProjection ev id) [observation ev id] [.appliedEvent id ev.eventId]
  | locked {id row} (fits : ev.fits = true) (known : Known db ev id row) :
      Stage db ev (applyExisting ev id row) [observation ev id]
        [.appliedEvent id ev.eventId, .projection k id]
  | duplicate {id} (entity : db.entities.lookup ev.key = some id)
      (seen : (db.appliedEvents.lookup (id, ev.eventId)).isSome) :
      Stage db ev (.ret .alreadyApplied) [] []
  | opened {id held} (fits : ev.fits = true) (noEntity : db.entities.lookup ev.key = none)
      (unused : Unused db id)
      (taken : [.entityKey ev.key, .entityId id, .appliedEvent id ev.eventId, .projection k id] ⊆ held) :
      Stage db ev (.ret .appliedInitial)
        [.entity ev.key id, observation ev id, .projection k id (initialRow ev)] held
  | decided {id row outcome w held} (fits : ev.fits = true) (known : Known db ev id row)
      (decides : Decides ev id row outcome w)
      (taken : [.appliedEvent id ev.eventId, .projection k id] ⊆ held) :
      Stage db ev (.ret outcome) [observation ev id, w] held

/-- The rows a transaction sees: the committed ones and its own. -/
def sees (db : Store) (pending : List Write) (seq : Nat) : Store :=
  { db.writeAll pending with entitiesSeq := seq }

theorem sees_eq (db : Store) (pending : List Write) :
    sees db pending db.entitiesSeq = db.writeAll pending := by
  rw [sees, ← Store.writeAll_entitiesSeq db pending]

/-- Alone in the database, a statement's writes are seen by the next one. -/
theorem Sql.handle_sees (q : Sql) (db : Store) (pending : List Write) (n : Nat) :
    q.handle (sees db pending n) = ((q.exec (sees db pending n)).1,
      sees db (pending ++ (q.exec (sees db pending n)).2) (q.nextSeq n)) := by
  unfold Sql.handle
  refine Prod.ext rfl ?_
  simp only [sees, Store.writeAll_append, Store.writeAll_withSeq]

theorem Sql.le_nextSeq (q : Sql) (n : Nat) : n ≤ q.nextSeq n := by
  cases q <;> simp [Sql.nextSeq]

/-- An entity is created under the value the sequence had. -/
theorem Sql.id_lt_nextSeq {q : Sql} {s : Store} {key : EntityKey} {id : EntityId}
    (hm : .entity key id ∈ (q.exec s).2) :
    id = s.entitiesSeq ∧ q.nextSeq s.entitiesSeq = s.entitiesSeq + 1 := by
  cases q with
  | insertEntity key' =>
    simp only [Sql.exec] at hm
    split at hm
    · cases hm
    · simp only [List.mem_singleton, Write.entity.injEq] at hm
      exact ⟨hm.2, rfl⟩
  | selectEntity | selectForUpdate => cases hm
  | insertStaleEvent => simp [Sql.exec] at hm
  | insertAppliedEvent | updateProjection | insertProjection =>
    simp only [Sql.exec] at hm
    repeat' split at hm
    all_goals simp at hm

/-- The one statement that may not be encoded inserts a projection. -/
theorem fits_of_encodes {ev : CanonicalEntityEvent k} {id : EntityId}
    (h : (Sql.insertProjection k id (initialRow ev)).encodes = true) : ev.fits = true :=
  (encodes_initialColumns ev).symm.trans h

namespace Stage
variable {db : Store} {ev : CanonicalEntityEvent k} {pending : List Write} {held : List Resource}

/-- **A statement leads from stage to stage**, whatever the others have committed
meanwhile. -/
theorem step (hdb : Consistent db) {n : Nat} (hn : Unused db n) {p : Tx ApplyOutcome}
    (h : Stage db ev p pending held) {q : Sql} {next : Except ApplyError q.Result → Tx ApplyOutcome}
    (hp : p = .op q next) (hencodes : q.encodes = true) :
    Stage db ev (next (q.exec (sees db pending n)).1) (pending ++ (q.exec (sees db pending n)).2)
      (held ++ q.takes (sees db pending n)) := by
  cases h with
  | start =>
    cases hp
    cases hkey : db.entities.lookup ev.key with
    | none =>
      have hexec : (Sql.selectEntity ev.key).exec (sees db [] n) = (.ok none, []) := by
        simp [Sql.exec, sees, hkey]
      rw [hexec]
      exact .missing
    | some id =>
      have hexec : (Sql.selectEntity ev.key).exec (sees db [] n) = (.ok (some id), []) := by
        simp [Sql.exec, sees, hkey]
      rw [hexec]
      exact .found hkey
  | missing =>
    cases hp
    cases hkey : db.entities.lookup ev.key with
    | none =>
      have hexec : (Sql.insertEntity ev.key).exec (sees db [] n) =
          (.ok (some n), [.entity ev.key n]) := by
        simp [Sql.exec, sees, hkey]
      have htakes : (Sql.insertEntity ev.key).takes (sees db [] n) =
          [.entityKey ev.key, .entityId n] := by
        simp [Sql.takes, sees, hkey]
      rw [hexec, htakes]
      exact .created hkey hn
    | some id =>
      have hexec : (Sql.insertEntity ev.key).exec (sees db [] n) = (.ok none, []) := by
        simp [Sql.exec, sees, hkey]
      have htakes : (Sql.insertEntity ev.key).takes (sees db [] n) = [] := by
        simp [Sql.takes, sees, hkey]
      rw [hexec, htakes]
      exact .raced hkey
  | @raced id entity =>
    cases hp
    have hexec : (Sql.selectEntity ev.key).exec (sees db [] n) = (.ok (some id), []) := by
      simp [Sql.exec, sees, entity]
    rw [hexec]
    exact .found entity
  | @found id entity =>
    cases hp
    cases hseen : db.appliedEvents.lookup (id, ev.eventId) with
    | none =>
      have hexec : (Sql.insertAppliedEvent id ev.eventId (stateValue k ev.targetState)).exec
          (sees db [] n) = (.ok (some id), [observation ev id]) := by
        simp [Sql.exec, sees, hseen, observation]
      have htakes : (Sql.insertAppliedEvent id ev.eventId (stateValue k ev.targetState)).takes
          (sees db [] n) = [.appliedEvent id ev.eventId] := by
        simp [Sql.takes, sees, hseen]
      rw [hexec, htakes]
      exact .observed entity hseen
    | some state =>
      have hexec : (Sql.insertAppliedEvent id ev.eventId (stateValue k ev.targetState)).exec
          (sees db [] n) = (.ok none, []) := by
        simp [Sql.exec, sees, hseen]
      have htakes : (Sql.insertAppliedEvent id ev.eventId (stateValue k ev.targetState)).takes
          (sees db [] n) = [] := by
        simp [Sql.takes, sees, hseen]
      rw [hexec, htakes]
      exact .duplicate entity (Option.isSome_of_eq_some hseen)
  | @created id noEntity unused =>
    cases hp
    have hnew := hdb.applied_unused unused ev.eventId
    have hexec : (Sql.insertAppliedEvent id ev.eventId (stateValue k ev.targetState)).exec
        (sees db [.entity ev.key id] n) = (.ok (some id), [observation ev id]) := by
      simp [Sql.exec, sees, hnew, observation]
    have htakes : (Sql.insertAppliedEvent id ev.eventId (stateValue k ev.targetState)).takes
        (sees db [.entity ev.key id] n) = [.appliedEvent id ev.eventId] := by
      simp [Sql.takes, sees, hnew]
    rw [hexec, htakes]
    exact .createdObserved noEntity unused
  | @observed id entity new =>
    cases hp
    obtain ⟨row, hrow⟩ : ∃ row, (db.projections k).lookup id = some row :=
      Option.isSome_iff_exists.mp (hdb.entity_projection entity)
    have hfits : encodesColumns k (initialRow ev).columns = true := hencodes
    have hexec : (Sql.insertProjection k id (initialRow ev)).exec
        (sees db [observation ev id] n) = (.ok none, []) := by
      simp [Sql.exec, sees, observation, hrow, hfits]
    have htakes : (Sql.insertProjection k id (initialRow ev)).takes
        (sees db [observation ev id] n) = [] := by
      simp [Sql.takes, sees, observation, hrow]
    rw [hexec, htakes]
    exact .present (fits_of_encodes hencodes) entity new
  | @createdObserved id noEntity unused =>
    cases hp
    have hfree := hdb.projection_unused unused k
    have hfits : encodesColumns k (initialRow ev).columns = true := hencodes
    have hexec : (Sql.insertProjection k id (initialRow ev)).exec
        (sees db [.entity ev.key id, observation ev id] n) =
          (.ok (some id), [.projection k id (initialRow ev)]) := by
      have hname := hdb.name_free noEntity
      simp only [Sql.exec, hfits, if_true, sees, observation, Store.writeAll_cons, Store.write_entity,
        Store.write_appliedEvent, Store.writeAll_nil, hfree]
      exact if_neg (Bool.not_eq_true _ ▸ hname)
    have htakes : (Sql.insertProjection k id (initialRow ev)).takes
        (sees db [.entity ev.key id, observation ev id] n) =
          [.projection k id, .projectionName k ev.vendorId ev.entityExternalId] := by
      simp [Sql.takes, sees, observation, hfree, initialRow]
    rw [hexec, htakes]
    exact .opened (fits_of_encodes hencodes) noEntity unused (by simp)
  | @present id fits entity new =>
    cases hp
    obtain ⟨row, hrow⟩ : ∃ row, (db.projections k).lookup id = some row :=
      Option.isSome_iff_exists.mp (hdb.entity_projection entity)
    have hexec : (Sql.selectForUpdate k id).exec (sees db [observation ev id] n) =
        (.ok (some row), []) := by
      simp [Sql.exec, sees, observation, hrow]
    have htakes : (Sql.selectForUpdate k id).takes (sees db [observation ev id] n) =
        [.projection k id] := by
      simp [Sql.takes, sees, observation, hrow]
    rw [hexec, htakes]
    exact .locked fits ⟨entity, hrow, new⟩
  | @locked id row fits known =>
    by_cases older : ev.eventTimestamp.instant < row.lastAppliedTs
    · rw [applyExisting, if_pos older] at hp
      cases hp
      exact .decided fits known (.stale older) (by simp)
    rw [applyExisting, if_neg older] at hp
    have timely := Int.not_lt.mp older
    by_cases no : rejects k row.state ev.targetState
    · rw [if_pos no] at hp
      cases hp
      exact .decided fits known (.rejected timely no) (by simp)
    rw [if_neg no] at hp
    -- the row is still the one that was locked, so the version matches
    have hexec : ∀ set, (Sql.updateProjection k id row.version set).exec
        (sees db [observation ev id] n) = (.ok 1, [.projection k id (set row)]) := by
      intro set
      simp [Sql.exec, sees, observation, known.projection]
    by_cases same : ev.targetState = row.state
    · rw [if_pos same] at hp
      cases hp
      rw [hexec]
      exact .decided fits known (.repeated timely no same) (by simp)
    · rw [if_neg same] at hp
      cases hp
      rw [hexec]
      exact .decided fits known (.moved timely no same) (by simp)
  | duplicate | opened | decided => cases hp

/-- `applyExisting` starts with a statement, whatever it decides. -/
theorem applyExisting_op (ev : CanonicalEntityEvent k) (id : EntityId) (row : Projection k) :
    ∃ q next, applyExisting ev id row = .op q next := by
  unfold applyExisting
  split
  · exact ⟨_, _, rfl⟩
  · split
    · exact ⟨_, _, rfl⟩
    · split <;> exact ⟨_, _, rfl⟩

/-- **A transaction that has returned applied its event**, and has taken all its rows occupy. -/
theorem returned {outcome : ApplyOutcome} (h : Stage db ev (.ret outcome) pending held) :
    Applies db ev outcome pending ∧ ∀ w ∈ pending, w.occupies ⊆ held := by
  generalize hp : Program.ret outcome = p at h
  cases h with
  | duplicate entity seen =>
    cases hp
    exact ⟨.alreadyApplied entity seen, by simp⟩
  | opened fits noEntity unused taken =>
    cases hp
    refine ⟨.initial fits noEntity unused, ?_⟩
    simpa [Write.occupies, observation, and_assoc] using taken
  | decided fits known decides taken =>
    cases hp
    refine ⟨.existing fits known decides, ?_⟩
    simp only [List.cons_subset, List.nil_subset, and_true] at taken
    rcases decides.write_cases with ⟨note, rfl⟩ | ⟨-, row', rfl, -⟩ <;>
      simp [Write.occupies, observation, taken]
  | @locked id row fits known =>
    obtain ⟨q, next, hop⟩ := applyExisting_op ev id row
    rw [hop] at hp
    cases hp
  | _ => cases hp

/-- **No assertion fails and no constraint is violated.** -/
theorem not_raised {e : ApplyError} : ¬ Stage db ev (.raise e) pending held := by
  intro h
  generalize hp : Program.raise e = p at h
  cases h with
  | @locked id row fits known =>
    obtain ⟨q, next, hop⟩ := applyExisting_op ev id row
    rw [hop] at hp
    cases hp
  | _ => cases hp

/-- **An `UPDATE` finds the version it asks for**: it changes exactly one row. -/
theorem update_one {k' : EntityType} {id : EntityId} {version : Nat}
    {set : Projection k' → Projection k'} {next : Except ApplyError Nat → Tx ApplyOutcome}
    (h : Stage db ev (.op (.updateProjection k' id version set) next) pending held) (n : Nat) :
    ((Sql.updateProjection k' id version set).exec (sees db pending n)).1 = .ok 1 := by
  generalize hp : (.op (.updateProjection k' id version set) next : Tx ApplyOutcome) = p at h
  cases h with
  | @locked id row fits known =>
    have hone : ∀ set, ((Sql.updateProjection k id row.version set).exec
        (sees db [observation ev id] n)).1 = .ok 1 := by
      intro set
      simp [Sql.exec, sees, observation, known.projection]
    unfold applyExisting at hp
    split at hp
    · cases hp
    · split at hp
      · cases hp
      · split at hp <;> (cases hp; exact hone _)
  | _ => cases hp

/-- **A statement that cannot be encoded** is the insert of a projection for a new event
whose amount is out of range, and its error is the transaction's. -/
theorem unencoded {q : Sql} {next : Except ApplyError q.Result → Tx ApplyOutcome}
    (h : Stage db ev (.op q next) pending held) (hencodes : q.encodes = false) :
    ev.fits = false ∧ ¬ db.Observed ev.key ev.eventId ∧
      ∀ s, next (q.exec s).1 = .raise .dataError ∧ (q.exec s).2 = [] := by
  have hinsert : ∀ {id : EntityId}, (Sql.insertProjection k id (initialRow ev)).encodes = false →
      ev.fits = false ∧ ∀ s, (Sql.insertProjection k id (initialRow ev)).exec s = (.error .dataError, []) := by
    intro id hno
    refine ⟨(encodes_initialColumns ev).symm.trans hno, fun s => ?_⟩
    have hno' : encodesColumns k (initialRow ev).columns = false := hno
    simp [Sql.exec, hno']
  generalize hp : (.op q next : Tx ApplyOutcome) = p at h
  cases h with
  | @observed id entity new =>
    cases hp
    obtain ⟨unfit, hexec⟩ := hinsert hencodes
    refine ⟨unfit, ?_, fun s => ?_⟩
    · rintro ⟨id', entity', seen⟩
      obtain rfl := Option.some.inj (entity.symm.trans entity')
      rw [new] at seen
      cases seen
    · rw [hexec s]
      exact ⟨rfl, rfl⟩
  | @createdObserved id noEntity unused =>
    cases hp
    obtain ⟨unfit, hexec⟩ := hinsert hencodes
    refine ⟨unfit, ?_, fun s => ?_⟩
    · rintro ⟨id', entity', seen⟩
      cases noEntity.symm.trans entity'
    · rw [hexec s]
      exact ⟨rfl, rfl⟩
  | @locked id row fits known =>
    unfold applyExisting at hp
    repeat' split at hp
    all_goals
      cases hp
      cases hencodes
  | start | missing | raced | found | created | present =>
    cases hp
    cases hencodes
  | duplicate | opened | decided => cases hp

/-- Alone in the database, a transaction goes through its stages to its end, or raises. -/
theorem run (hdb : Consistent db) {p : Tx ApplyOutcome} (h : Stage db ev p pending held) {n : Nat}
    (hn : ∀ key id, db.entities.lookup key = some id → id < n)
    (hpending : ∀ key id, .entity key id ∈ pending → id < n) :
    ∃ result ws written n', Finishes db ev result ws ∧
      p.run Sql.handle (sees db pending n) = (result, sees db written n') ∧ n ≤ n' ∧
      (∀ outcome, result = .ok outcome → written = ws) ∧ ∀ key id, .entity key id ∈ ws → id < n' := by
  induction p generalizing pending held n with
  | ret outcome =>
    exact ⟨_, pending, pending, n, .applied h.returned.1, rfl, le_refl n, fun _ _ => rfl, hpending⟩
  | raise e => exact absurd h not_raised
  | op q next ih =>
    have hunused : Unused db n := fun key hkey => Nat.lt_irrefl n (hn key n hkey)
    have hle := q.le_nextSeq n
    cases hencodes : q.encodes with
    | false =>
      obtain ⟨unfit, new, hraise⟩ := h.unencoded hencodes
      refine ⟨.error .dataError, [], pending, q.nextSeq n, .raised unfit new, ?_, hle, nofun, by simp⟩
      rw [Program.run_op, q.handle_sees, (hraise _).2, List.append_nil]
      dsimp only
      rw [(hraise _).1]
      rfl
    | true =>
      obtain ⟨result, ws, written, n', hends, hrun, hn', hwritten, hws⟩ := ih _ (h.step hdb hunused rfl hencodes)
        (n := q.nextSeq n) (fun key id hid => Nat.lt_of_lt_of_le (hn key id hid) hle) (by
          intro key id hm
          rcases List.mem_append.mp hm with hm | hm
          · exact Nat.lt_of_lt_of_le (hpending key id hm) hle
          · obtain ⟨hid, hnext⟩ := Sql.id_lt_nextSeq hm
            exact (hid.trans_lt (Nat.lt_succ_self n)).trans_eq hnext.symm)
      refine ⟨result, ws, written, n', hends, ?_, Nat.le_trans hle hn', hwritten, hws⟩
      rw [Program.run_op, q.handle_sees]
      exact hrun

end Stage

/-- **Alone in the database, the appliers take one of the six paths**, or raise and leave no row. -/
theorem applyEntity_transaction {s : Store} (hs : Consistent s) (hnum : Numbered s)
    (ev : CanonicalEntityEvent k) :
    ∃ result ws n, Finishes s ev result ws ∧
      (applyEntity ev).transaction s = (result, sees s ws n) ∧ s.entitiesSeq ≤ n ∧
      ∀ key id, .entity key id ∈ ws → id < n := by
  obtain ⟨result, ws, written, n, hends, hrun, hn, hwritten, hws⟩ :=
    (show Stage s ev (applyEntity ev) [] [] from .start).run hs hnum (by simp)
  refine ⟨result, ws, n, hends, ?_, hn, hws⟩
  rw [sees_eq, Store.writeAll_nil] at hrun
  cases hends with
  | applied applies => rw [Tx.transaction, hrun, hwritten _ rfl]
  | raised unfit new =>
    rw [Tx.transaction, hrun]
    rfl

end Paths

end WebhookIngestion
