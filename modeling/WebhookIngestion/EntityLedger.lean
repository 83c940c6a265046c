import WebhookIngestion.ApplyPaths
import WebhookIngestion.Library.Lifecycle
import Mathlib.Data.Int.Order.Basic

/-! # The tables as ledgers

One entity's rows are a `Lifecycle.Ledger`: the projection is its head, the
`applied_events` rows what it has seen, the `stale_event_log` rows what it skipped.
Applying an event is one `Lifecycle.step` of the ledger of the event's entity
(`Applies.took`) and leaves every other ledger alone (`Applies.others`), and it keeps the
tables `Consistent`. -/
namespace WebhookIngestion
open Tables Lifecycle

/-- The apply rule of one entity type. -/
def rules (k : EntityType) :
    Rules (CanonicalEntityEvent k) EventId Int (StateOf k) (ColumnsOf k) String StaleNote where
  id ev := ev.eventId
  time ev := ev.eventTimestamp.instant
  target ev := ev.targetState
  label := stateValue k
  refuses current target := decide (rejects k current target)
  opening := initialColumns
  renewal := repeatColumns
  advance := moveColumns
  lateNote := olderNote
  refusedNote := disallowedNote

/-- What `apply_event` returns for each verdict. -/
def ApplyOutcome.ofVerdict : Verdict → ApplyOutcome
  | .duplicate => alreadyApplied
  | .opened => appliedInitial
  | .late => staleSkipped
  | .refused => transitionRejected
  | .renewed | .advanced => applied

abbrev EntityLedger (k : EntityType) :=
  Ledger EventId Int (StateOf k) (ColumnsOf k) String StaleNote

/-- A projection row without its name. -/
def Projection.head {k : EntityType} (row : Projection k) :
    Head EventId Int (StateOf k) (ColumnsOf k) :=
  ⟨row.state, row.lastAppliedEventId, row.lastAppliedTs, row.version, row.columns⟩

namespace Store

/-- The `stale_event_log` rows of one entity, latest first. -/
def staleEvents (s : Store) (id : EntityId) : List (EventId × StaleNote) :=
  s.staleEventLog.filterMap fun row => if row.entityId = id then some (row.eventId, row.note) else none

/-- The ledger behind an entity id. -/
def ledgerOf (s : Store) (k : EntityType) (id : EntityId) : EntityLedger k :=
  ⟨((s.projections k).lookup id).map Projection.head, fiber s.appliedEvents id, s.staleEvents id⟩

/-- **The ledger of an entity**, by its key. -/
def ledger (s : Store) (key : EntityKey) : EntityLedger key.entityType :=
  match s.entities.lookup key with
  | none => .empty
  | some id => s.ledgerOf key.entityType id

variable {s : Store} {key : EntityKey} {id : EntityId}

theorem ledger_of_none (h : s.entities.lookup key = none) : s.ledger key = .empty := by
  rw [ledger, h]

theorem ledger_of_some (h : s.entities.lookup key = some id) :
    s.ledger key = s.ledgerOf key.entityType id := by
  rw [ledger, h]

/-! ### One write, seen by the ledgers -/

theorem ledgerOf_entity (k : EntityType) (key : EntityKey) (id id' : EntityId) :
    (s.write (.entity key id)).ledgerOf k id' = s.ledgerOf k id' := rfl

theorem ledgerOf_appliedEvent {eventId : EventId} (h : s.appliedEvents.lookup (id, eventId) = none)
    (state : String) (k : EntityType) :
    (s.write (.appliedEvent id eventId state)).ledgerOf k id =
      { s.ledgerOf k id with applied := (eventId, state) :: (s.ledgerOf k id).applied } := by
  simp only [ledgerOf, write_appliedEvent, fiber_insert_self (notMem_of_lookup h)]
  rfl

theorem ledgerOf_staleEvent (eventId : EventId) (note : StaleNote) (k : EntityType) :
    (s.write (.staleEvent ⟨id, eventId, note⟩)).ledgerOf k id =
      { s.ledgerOf k id with skipped := (eventId, note) :: (s.ledgerOf k id).skipped } := by
  simp [ledgerOf, staleEvents]

theorem ledgerOf_projection {k : EntityType} (row : Projection k) :
    (s.write (.projection k id row)).ledgerOf k id =
      { s.ledgerOf k id with head := some row.head } := by
  simp only [ledgerOf, lookup_write_projection, if_pos, Option.map_some]
  rfl

/-- A row of one entity leaves the others' books alone. -/
theorem ledgerOf_write_of_ne (s : Store) {w : Write} (k : EntityType) {id : EntityId}
    (hne : w.entityId ≠ id) : (s.write w).ledgerOf k id = s.ledgerOf k id := by
  cases w with
  | entity key id' => rfl
  | appliedEvent id' eventId state =>
    have hfiber : fiber (s.appliedEvents.insert (id', eventId) state) id = fiber s.appliedEvents id :=
      fiber_insert_of_ne s.appliedEvents eventId state hne
    simp only [ledgerOf, write_appliedEvent, hfiber]
    rfl
  | staleEvent row =>
    have hne : row.entityId ≠ id := hne
    simp [ledgerOf, staleEvents, hne]
  | projection k' id' row =>
    have hne' : id ≠ id' := fun h => hne h.symm
    have hproj : ((s.write (.projection k' id' row)).projections k).lookup id =
        (s.projections k).lookup id := by
      by_cases hk : k = k'
      · subst hk
        rw [lookup_write_projection, if_neg hne']
      · rw [projections_write_of_ne s id' row hk]
    simp only [ledgerOf, hproj]
    rfl

theorem ledgerOf_writeAll_of_ne (s : Store) {ws : List Write} (k : EntityType) {id : EntityId}
    (hne : ∀ w ∈ ws, w.entityId ≠ id) : (s.writeAll ws).ledgerOf k id = s.ledgerOf k id := by
  induction ws generalizing s with
  | nil => rfl
  | cons w ws ih =>
    rw [writeAll_cons, ih _ fun w' hw' => hne w' (List.mem_cons_of_mem _ hw'),
      ledgerOf_write_of_ne s k (hne w List.mem_cons_self)]

end Store

/-! ### One application, seen by the ledgers -/

section Applied
variable {s : Store} {k : EntityType} {ev : CanonicalEntityEvent k}

namespace Known
variable {id : EntityId} {row : Projection k} (known : Known s ev id row)
include known

theorem ledger_eq : s.ledger ev.key = s.ledgerOf k id := Store.ledger_of_some known.entity

theorem ledger_head : (s.ledger ev.key).head = some row.head := by
  rw [known.ledger_eq, Store.ledgerOf, known.projection]
  rfl

theorem ledger_new : (rules k).id ev ∉ (s.ledger ev.key).applied.map Prod.fst := by
  rw [known.ledger_eq]
  intro hm
  exact notMem_of_lookup known.new (mem_fiber_keys.mp hm)

/-- The event's ledger once the event is logged as skipped. -/
theorem ledger_skip (note : StaleNote) :
    (s.writeAll [observation ev id, .staleEvent ⟨id, ev.eventId, note⟩]).ledger ev.key =
      ⟨some row.head, (ev.eventId, stateValue k ev.targetState) :: (s.ledger ev.key).applied,
        (ev.eventId, note) :: (s.ledger ev.key).skipped⟩ := by
  have hentity : (s.writeAll [observation ev id, .staleEvent ⟨id, ev.eventId, note⟩]).entities.lookup
      ev.key = some id := known.entity
  rw [Store.ledger_of_some hentity, Store.writeAll_cons, Store.writeAll_cons, Store.writeAll_nil,
    Store.ledgerOf_staleEvent, observation, Store.ledgerOf_appliedEvent known.new,
    ← known.ledger_head, known.ledger_eq]

/-- The event's ledger once the event has changed the projection. -/
theorem ledger_act (row' : Projection k) :
    (s.writeAll [observation ev id, .projection k id row']).ledger ev.key =
      ⟨some row'.head, (ev.eventId, stateValue k ev.targetState) :: (s.ledger ev.key).applied,
        (s.ledger ev.key).skipped⟩ := by
  have hentity : (s.writeAll [observation ev id, .projection k id row']).entities.lookup
      ev.key = some id := known.entity
  rw [Store.ledger_of_some hentity, Store.writeAll_cons, Store.writeAll_cons, Store.writeAll_nil,
    Store.ledgerOf_projection, observation, Store.ledgerOf_appliedEvent known.new, known.ledger_eq]

end Known

/-- **The event's own ledger takes the event**, and the outcome is its verdict. -/
theorem Applies.took (hs : Consistent s) {outcome : ApplyOutcome} {ws : List Write}
    (h : Applies s ev outcome ws) :
    ∃ v, outcome = .ofVerdict v ∧
      Took (rules k) (s.ledger ev.key) ev v ((s.writeAll ws).ledger ev.key) := by
  cases h with
  | alreadyApplied entity seen =>
    refine ⟨.duplicate, rfl, .duplicate ?_⟩
    rw [Store.ledger_of_some entity]
    exact mem_fiber_keys.mpr (AList.lookup_isSome.mp seen)
  | @initial id fits noEntity unused =>
    refine ⟨.opened, rfl, ?_⟩
    have hnew := hs.applied_unused unused ev.eventId
    have hentity : (s.writeAll [.entity ev.key id, observation ev id,
        .projection k id (initialRow ev)]).entities.lookup ev.key = some id :=
      AList.lookup_insert _
    -- nothing is on the books under an unused id
    have hbefore : s.ledgerOf k id = .empty := by
      have hstale : s.staleEvents id = [] := by
        rw [Store.staleEvents, List.filterMap_eq_nil_iff]
        intro row hrow
        obtain ⟨key, hkey⟩ := hs.stale_entity hrow
        exact if_neg fun (he : row.entityId = id) => unused key (he ▸ hkey)
      rw [Store.ledgerOf, hs.projection_unused unused, fiber_eq_nil (hs.applied_unused unused), hstale]
      rfl
    rw [Store.ledger_of_none noEntity, Store.ledger_of_some hentity, Store.writeAll_cons,
      Store.writeAll_cons, Store.writeAll_cons, Store.writeAll_nil, Store.ledgerOf_projection,
      observation, Store.ledgerOf_appliedEvent (by exact hnew), Store.ledgerOf_entity, hbefore]
    exact .opened List.not_mem_nil rfl
  | existing fits known decides =>
    cases decides with
    | stale older =>
      refine ⟨.late, rfl, ?_⟩
      rw [known.ledger_skip]
      exact .late known.ledger_new known.ledger_head older
    | rejected timely no =>
      refine ⟨.refused, rfl, ?_⟩
      rw [known.ledger_skip]
      exact .refused known.ledger_new known.ledger_head timely (decide_eq_true no)
    | repeated timely ok same =>
      refine ⟨.renewed, rfl, ?_⟩
      rw [known.ledger_act]
      exact .renewed known.ledger_new known.ledger_head timely (decide_eq_false ok) same
    | moved timely ok other =>
      refine ⟨.advanced, rfl, ?_⟩
      rw [known.ledger_act]
      exact .advanced known.ledger_new known.ledger_head timely (decide_eq_false ok) other

namespace Applies
variable {outcome : ApplyOutcome} {ws : List Write} (h : Applies s ev outcome ws)
include h

/-- A path writes rows of one entity, the event's. -/
theorem entityId_mem : ∃ id, (s.writeAll ws).entities.lookup ev.key = some id ∧
    (s.entities.lookup ev.key = some id ∨ s.entities.lookup ev.key = none ∧ Unused s id) ∧
    ∀ w ∈ ws, w.entityId = id := by
  cases h with
  | alreadyApplied entity seen => exact ⟨_, entity, .inl entity, by simp⟩
  | @initial id fits noEntity unused =>
    exact ⟨id, AList.lookup_insert _, .inr ⟨noEntity, unused⟩, by simp [Write.entityId, observation]⟩
  | existing fits known decides =>
    refine ⟨_, ?_, .inl known.entity, ?_⟩
    · rcases decides.write_cases with ⟨note, rfl⟩ | ⟨-, row', rfl, -⟩ <;> exact known.entity
    · rcases decides.write_cases with ⟨note, rfl⟩ | ⟨-, row', rfl, -⟩ <;>
        simp [Write.entityId, observation]

/-- No other entity is registered. -/
theorem entities_of_ne {key : EntityKey} (hne : key ≠ ev.key) :
    (s.writeAll ws).entities.lookup key = s.entities.lookup key := by
  refine Store.lookup_writeAll_entities s fun w hw hocc => ?_
  cases w with
  | entity key' id =>
    simp only [Write.occupies, List.mem_cons, Resource.entityKey.injEq, reduceCtorEq,
      List.not_mem_nil, or_false] at hocc
    exact hne (hocc.trans (h.entity_mem hw).1)
  | _ => simp [Write.occupies] at hocc

/-- An entity keeps its id. -/
theorem entities_mono {key : EntityKey} {id : EntityId} (hkey : s.entities.lookup key = some id) :
    (s.writeAll ws).entities.lookup key = some id := by
  by_cases he : key = ev.key
  · subst he
    obtain ⟨own, hafter, hown | ⟨hnone, -⟩, -⟩ := h.entityId_mem
    · rw [hafter, ← hown, hkey]
    · cases hnone.symm.trans hkey
  · rw [h.entities_of_ne he, hkey]

/-- **Every other ledger is left alone.** -/
theorem others (hs : Consistent s) {key : EntityKey} (hne : key ≠ ev.key) :
    (s.writeAll ws).ledger key = s.ledger key := by
  have hentity := h.entities_of_ne hne
  cases hkey : s.entities.lookup key with
  | none => rw [Store.ledger_of_none (hentity.trans hkey), Store.ledger_of_none hkey]
  | some id =>
    rw [Store.ledger_of_some (hentity.trans hkey), Store.ledger_of_some hkey]
    obtain ⟨own, -, hown, hws⟩ := h.entityId_mem
    refine Store.ledgerOf_writeAll_of_ne s _ fun w hw he => ?_
    rw [hws w hw] at he
    rcases hown with hown | ⟨-, hunused⟩
    · exact hne (hs.entity_inj hkey (he ▸ hown))
    · exact hunused key (he ▸ hkey)

end Applies

/-! ### The tables stay well kept -/

namespace Linked
variable (hs : Linked s)
include hs

theorem register {key : EntityKey} {id : EntityId} (noEntity : s.entities.lookup key = none)
    (unused : Unused s id) : Linked (s.write (.entity key id)) := by
  have hlookup : ∀ key', (s.write (.entity key id)).entities.lookup key' =
      if key' = key then some id else s.entities.lookup key' := fun key' => lookup_insert_eq _ _ _ _
  have hkeep : ∀ {key' id'}, s.entities.lookup key' = some id' →
      (s.write (.entity key id)).entities.lookup key' = some id' := by
    intro key' id' h
    rw [hlookup, if_neg, h]
    rintro rfl
    cases noEntity.symm.trans h
  constructor
  · intro key₁ key₂ id' h₁ h₂
    rw [hlookup] at h₁ h₂
    split at h₁ <;> split at h₂
    · rename_i he₁ he₂
      exact he₁.trans he₂.symm
    · cases h₁
      exact absurd h₂ (unused key₂)
    · cases h₂
      exact absurd h₁ (unused key₁)
    · exact hs.entity_inj h₁ h₂
  · exact fun h => hkeep (hs.projection_entity h)
  · intro id' eventId state h
    obtain ⟨key', hkey'⟩ := hs.applied_entity h
    exact ⟨key', hkeep hkey'⟩
  · intro row h
    obtain ⟨key', hkey'⟩ := hs.stale_entity h
    exact ⟨key', hkeep hkey'⟩

theorem observe {key : EntityKey} {id : EntityId} (hkey : s.entities.lookup key = some id)
    (eventId : EventId) (state : String) : Linked (s.write (.appliedEvent id eventId state)) where
  entity_inj := hs.entity_inj
  projection_entity := hs.projection_entity
  applied_entity {id' eventId' state'} h := by
    rw [Store.write_appliedEvent, lookup_insert_eq] at h
    split at h
    · rename_i he
      cases he
      exact ⟨key, hkey⟩
    · exact hs.applied_entity h
  stale_entity := hs.stale_entity

theorem log {key : EntityKey} {row : StaleEvent}
    (hkey : s.entities.lookup key = some row.entityId) : Linked (s.write (.staleEvent row)) where
  entity_inj := hs.entity_inj
  projection_entity := hs.projection_entity
  applied_entity := hs.applied_entity
  stale_entity {row'} h := by
    rcases List.mem_cons.mp h with rfl | h
    · exact ⟨key, hkey⟩
    · exact hs.stale_entity h

theorem project {id : EntityId} {row : Projection k}
    (hkey : s.entities.lookup ⟨row.vendorId, k, row.externalId⟩ = some id) :
    Linked (s.write (.projection k id row)) where
  entity_inj := hs.entity_inj
  projection_entity {k' id' row'} h := by
    by_cases hk : k' = k
    · subst hk
      rw [Store.lookup_write_projection] at h
      split at h
      · rename_i he
        cases h
        exact he ▸ hkey
      · exact hs.projection_entity h
    · rw [Store.projections_write_of_ne s id row hk] at h
      exact hs.projection_entity h
  applied_entity := hs.applied_entity
  stale_entity := hs.stale_entity

end Linked

/-- Writing a projection takes none away. -/
theorem isSome_lookup_projection (id : EntityId) (row : Projection k) {k' : EntityType}
    {id' : EntityId} (h : ((s.projections k').lookup id').isSome) :
    (((s.write (.projection k id row)).projections k').lookup id').isSome := by
  by_cases hk : k' = k
  · subst hk
    rw [Store.lookup_write_projection]
    split
    · rfl
    · exact h
  · rw [Store.projections_write_of_ne s id row hk]
    exact h

theorem Applies.linked (hs : Linked s) {outcome : ApplyOutcome} {ws : List Write}
    (h : Applies s ev outcome ws) : Linked (s.writeAll ws) := by
  cases h with
  | alreadyApplied entity seen => exact hs
  | @initial id fits noEntity unused =>
    have hkey : (s.write (.entity ev.key id)).entities.lookup ev.key = some id :=
      AList.lookup_insert _
    exact ((hs.register noEntity unused).observe hkey _ _).project hkey
  | existing fits known decides =>
    have hobserved := hs.observe known.entity ev.eventId (stateValue k ev.targetState)
    rcases decides.write_cases with ⟨note, rfl⟩ | ⟨-, row', rfl, hv, hx⟩
    · exact hobserved.log known.entity
    · refine hobserved.project ?_
      rw [hv, hx]
      exact hs.projection_entity known.projection

/-- **The tables stay well kept.** -/
theorem Applies.consistent (hs : Consistent s) {outcome : ApplyOutcome} {ws : List Write}
    (h : Applies s ev outcome ws) : Consistent (s.writeAll ws) where
  toLinked := h.linked hs.toLinked
  entity_projection {key id'} hkey := by
    cases h with
    | alreadyApplied entity seen => exact hs.entity_projection hkey
    | @initial id fits noEntity unused =>
      have hlookup : (s.writeAll [.entity ev.key id, observation ev id,
          .projection k id (initialRow ev)]).entities.lookup key =
            if key = ev.key then some id else s.entities.lookup key := lookup_insert_eq _ _ _ _
      rw [hlookup] at hkey
      split at hkey
      · rename_i he
        cases hkey
        subst he
        rw [Store.writeAll_cons, Store.writeAll_cons, Store.writeAll_cons, Store.writeAll_nil,
          Store.lookup_write_projection, if_pos rfl]
        rfl
      · exact isSome_lookup_projection id _ (hs.entity_projection hkey)
    | existing fits known decides =>
      rcases decides.write_cases with ⟨note, rfl⟩ | ⟨-, row', rfl, -⟩
      · exact hs.entity_projection hkey
      · exact isSome_lookup_projection _ _ (hs.entity_projection hkey)

end Applied

end WebhookIngestion
