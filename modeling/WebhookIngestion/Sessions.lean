import WebhookIngestion.Convergence
import WebhookIngestion.Library.Interleaving

/-! # Concurrent transactions

Any number of appliers at once, their statements interleaved, under READ COMMITTED:
a statement is atomic and sees the committed rows and its transaction's own; it waits while
another transaction holds a unique key it would insert under or a row it would lock.
A transaction's rows become visible when it commits, and it may roll back at any time;
sequence values are not given back.  A statement that the driver cannot encode is not sent: all
that is left to its transaction is to roll back. -/
namespace WebhookIngestion
open Programs Tables Lifecycle Interleaving

/-- `_apply_shipment` or `_apply_invoice`. -/
def applier : (k : EntityType) → CanonicalEntityEvent k → Tx ApplyOutcome
  | .shipment => applyShipment
  | .invoice => applyInvoice

theorem applier_eq : ∀ {k : EntityType} (ev : CanonicalEntityEvent k), applier k ev = applyEntity ev
  | .shipment, ev => applyShipment_eq ev
  | .invoice, ev => applyInvoice_eq ev

/-- A committed transaction: its event and what it returned. -/
structure Commit where
  {entityType : EntityType}
  event : CanonicalEntityEvent entityType
  outcome : ApplyOutcome

def Commit.canonicalEvent (c : Commit) : CanonicalEvent := .entity c.entityType c.event

/-- The database: the committed tables (with the sequence as it stands), and the
transactions committed so far, in order. -/
structure Server where
  db : Store
  commits : List Commit

/-- A session, between transactions or within one: the event it applies, what is left
of the program, its uncommitted rows, and what it holds. -/
inductive Session where
  | idle
  | active {k : EntityType} (ev : CanonicalEntityEvent k) (program : Tx ApplyOutcome)
      (pending : List Write) (held : List Resource)

def Session.held : Session → List Resource
  | idle => []
  | active _ _ _ held => held

/-- The moves of a session. -/
inductive Move : Moves Server Session
  | start {g : Server} {k : EntityType} (ev : CanonicalEntityEvent k) :
      Move g .idle (fun _ => False) g (.active ev (applier k ev) [] [])
  | statement {g : Server} {k : EntityType} {ev : CanonicalEntityEvent k} {q : Sql}
      {next : Except ApplyError q.Result → Tx ApplyOutcome} {pending : List Write}
      {held : List Resource} {seen : Store} (encodes : q.encodes = true)
      (sees : seen = g.db.writeAll pending) :
      Move g (.active ev (.op q next) pending held) (fun m => ∃ r ∈ q.takes seen, r ∈ m.held)
        { g with db := { g.db with entitiesSeq := q.nextSeq g.db.entitiesSeq } }
        (.active ev (next (q.exec seen).1) (pending ++ (q.exec seen).2) (held ++ q.takes seen))
  | commit {g : Server} {k : EntityType} {ev : CanonicalEntityEvent k} {outcome : ApplyOutcome}
      {pending : List Write} {held : List Resource} :
      Move g (.active ev (.ret outcome) pending held) (fun _ => False)
        ⟨g.db.writeAll pending, g.commits ++ [⟨ev, outcome⟩]⟩ .idle
  | rollback {g : Server} {k : EntityType} {ev : CanonicalEntityEvent k} {program : Tx ApplyOutcome}
      {pending : List Write} {held : List Resource} :
      Move g (.active ev program pending held) (fun _ => False) g .idle

/-- The states reachable from freshly migrated tables, with sessions named by `ι`. -/
def Reachable {ι : Type} [DecidableEq ι] (s : Server × (ι → Session)) : Prop :=
  Relation.ReflTransGen (Step Move) (⟨Store.empty, []⟩, fun _ => .idle) s

/-! ### Stages withstand the others -/

section Stages
variable {db : Store} {k : EntityType} {ev : CanonicalEntityEvent k} {program : Tx ApplyOutcome}
  {pending : List Write} {held : List Resource}

/-- A stage does not depend on the sequence. -/
theorem Stage.withSeq (h : Stage db ev program pending held) (n : Nat) :
    Stage { db with entitiesSeq := n } ev program pending held := by
  cases h with
  | start => exact .start
  | missing => exact .missing
  | raced entity => exact .raced entity
  | found entity => exact .found entity
  | created noEntity unused => exact .created noEntity unused
  | observed entity new => exact .observed entity new
  | createdObserved noEntity unused => exact .createdObserved noEntity unused
  | present fits entity new => exact .present fits entity new
  | locked fits known => exact .locked fits ⟨known.entity, known.projection, known.new⟩
  | duplicate entity seen => exact .duplicate entity seen
  | opened fits noEntity unused taken => exact .opened fits noEntity unused taken
  | decided fits known decides taken =>
    exact .decided fits ⟨known.entity, known.projection, known.new⟩ decides taken

/-- What another transaction's rows may not touch, and do not lose. -/
structure Unharmed (db db' : Store) (held : List Resource) : Prop where
  entity : ∀ {key id}, db.entities.lookup key = some id → db'.entities.lookup key = some id
  noEntity : ∀ {key}, .entityKey key ∈ held → db.entities.lookup key = none →
    db'.entities.lookup key = none
  unused : ∀ {id}, .entityId id ∈ held → Unused db id → Unused db' id
  seen : ∀ {id eventId}, (db.appliedEvents.lookup (id, eventId)).isSome →
    (db'.appliedEvents.lookup (id, eventId)).isSome
  new : ∀ {id eventId}, .appliedEvent id eventId ∈ held →
    db.appliedEvents.lookup (id, eventId) = none → db'.appliedEvents.lookup (id, eventId) = none
  projection : ∀ {k id}, .projection k id ∈ held →
    (db'.projections k).lookup id = (db.projections k).lookup id

/-- A commit leaves unharmed whoever holds nothing that it writes. -/
theorem Applies.unharmed {k' : EntityType} {ev' : CanonicalEntityEvent k'} {outcome : ApplyOutcome}
    {ws : List Write} (h : Applies db ev' outcome ws)
    (hfree : ∀ w ∈ ws, ∀ r ∈ w.occupies, r ∉ held) : Unharmed db (db.writeAll ws) held where
  entity := h.entities_mono
  noEntity {key} hheld hnone := by
    rw [Store.lookup_writeAll_entities db fun w hw hocc => hfree w hw _ hocc hheld]
    exact hnone
  unused {id} hheld hunused key hkey := by
    rcases Store.entities_writeAll db hkey with hkey | hmem
    · exact hunused key hkey
    · exact hfree _ hmem (.entityId id) (by simp [Write.occupies]) hheld
  seen h := Store.isSome_lookup_writeAll_appliedEvents db h
  new hheld hnone := by
    rw [Store.lookup_writeAll_appliedEvents db fun w hw hocc => hfree w hw _ hocc hheld]
    exact hnone
  projection hheld :=
    Store.lookup_writeAll_projections db fun w hw hocc => hfree w hw _ hocc hheld

theorem Known.unharmed {id : EntityId} {row : Projection k} (h : Known db ev id row) {db' : Store}
    (hdb : Unharmed db db' held) (taken : [.appliedEvent id ev.eventId, .projection k id] ⊆ held) :
    Known db' ev id row where
  entity := hdb.entity h.entity
  projection := (hdb.projection (taken (by simp))).trans h.projection
  new := hdb.new (taken (by simp)) h.new

/-- **A stage withstands the commits of others.** -/
theorem Stage.unharmed (h : Stage db ev program pending held) {db' : Store}
    (hdb : Unharmed db db' held) : Stage db' ev program pending held := by
  cases h with
  | start => exact .start
  | missing => exact .missing
  | raced entity => exact .raced (hdb.entity entity)
  | found entity => exact .found (hdb.entity entity)
  | created noEntity unused =>
    exact .created (hdb.noEntity (by simp) noEntity) (hdb.unused (by simp) unused)
  | observed entity new => exact .observed (hdb.entity entity) (hdb.new (by simp) new)
  | createdObserved noEntity unused =>
    exact .createdObserved (hdb.noEntity (by simp) noEntity) (hdb.unused (by simp) unused)
  | present fits entity new => exact .present fits (hdb.entity entity) (hdb.new (by simp) new)
  | locked fits known => exact .locked fits (known.unharmed hdb (List.Subset.refl _))
  | duplicate entity seen => exact .duplicate (hdb.entity entity) (hdb.seen seen)
  | opened fits noEntity unused taken =>
    exact .opened fits (hdb.noEntity (taken (by simp)) noEntity) (hdb.unused (taken (by simp)) unused) taken
  | decided fits known decides taken => exact .decided fits (known.unharmed hdb taken) decides taken

end Stages

/-! ### Equal up to the numbering of entities -/

/-- **The same tables up to the numbering of entities**: the same entities, and for
each the same projection, observed events and log entries; in neither does a row
belong to no entity, or two entities share an id. -/
structure SameTables (s s' : Store) : Prop where
  linked : Linked s ∧ Linked s'
  entities : ∀ key, (s.entities.lookup key).isSome = (s'.entities.lookup key).isSome
  rows : ∀ key id id', s.entities.lookup key = some id → s'.entities.lookup key = some id' →
    (s.projections key.entityType).lookup id = (s'.projections key.entityType).lookup id' ∧
    fiber s.appliedEvents id = fiber s'.appliedEvents id' ∧ s.staleEvents id = s'.staleEvents id'

/-- A projection is its name and its head. -/
theorem Projection.eq_of_head {k : EntityType} {row row' : Projection k} (hv : row.vendorId = row'.vendorId)
    (hx : row.externalId = row'.externalId) (hh : row.head = row'.head) : row = row' := by
  obtain ⟨v, x, state, eventId, ts, version, columns⟩ := row
  obtain ⟨v', x', state', eventId', ts', version', columns'⟩ := row'
  simp only [Projection.head, Head.mk.injEq] at hv hx hh ⊢
  obtain ⟨rfl, rfl, rfl, rfl, rfl⟩ := hh
  obtain rfl := hv
  obtain rfl := hx
  rfl

/-- Tables with the same ledgers are the same up to the numbering of entities. -/
theorem sameTables_of_ledgers {s s' : Store} (hs : Consistent s) (hs' : Consistent s')
    (h : ∀ key, s.ledger key = s'.ledger key) : SameTables s s' where
  linked := ⟨hs.toLinked, hs'.toLinked⟩
  entities key := by
    have registered : ∀ {s s' : Store}, Consistent s → s.ledger key = s'.ledger key →
        (s.entities.lookup key).isSome → (s'.entities.lookup key).isSome := by
      intro s s' hs heq hkey
      obtain ⟨id, hid⟩ := Option.isSome_iff_exists.mp hkey
      obtain ⟨row, hrow⟩ := Option.isSome_iff_exists.mp (hs.entity_projection hid)
      rw [Store.ledger_of_some hid, Store.ledgerOf, hrow] at heq
      by_contra hnone
      rw [Store.ledger_of_none (Option.not_isSome_iff_eq_none.mp hnone)] at heq
      cases congrArg Ledger.head heq
    exact Bool.eq_iff_iff.mpr ⟨registered hs (h key), registered hs' (h key).symm⟩
  rows key id id' hid hid' := by
    have heq := h key
    rw [Store.ledger_of_some hid, Store.ledger_of_some hid'] at heq
    refine ⟨?_, congrArg Ledger.applied heq, congrArg Ledger.skipped heq⟩
    obtain ⟨row, hrow⟩ := Option.isSome_iff_exists.mp (hs.entity_projection hid)
    obtain ⟨row', hrow'⟩ := Option.isSome_iff_exists.mp (hs'.entity_projection hid')
    have hhead := congrArg Ledger.head heq
    rw [Store.ledgerOf, Store.ledgerOf, hrow, hrow'] at hhead
    obtain ⟨hv, hx⟩ := hs.projection_name hid hrow
    obtain ⟨hv', hx'⟩ := hs'.projection_name hid' hrow'
    rw [hrow, hrow', Projection.eq_of_head (hv.trans hv'.symm) (hx.trans hx'.symm) (Option.some.inj hhead)]

/-! ### Serializability -/

/-- The committed transactions, run one after another on freshly migrated tables. -/
def Server.serial (g : Server) : List (Except ApplyError ApplyOutcome) × Store :=
  applyEvents (g.commits.map Commit.canonicalEvent) Store.empty

theorem applyEvents_concat (events : List CanonicalEvent) (event : CanonicalEvent) (s : Store) :
    applyEvents (events ++ [event]) s =
      ((applyEvents events s).1 ++ [(applyEvent event (applyEvents events s).2).1],
        (applyEvent event (applyEvents events s).2).2) := by
  induction events generalizing s with
  | nil => rfl
  | cons e events ih => rw [List.cons_append, applyEvents, ih]; rfl

/-- What holds in every reachable state: the committed tables are those of the serial
run, every session is at a stage of its program, and no two hold the same. -/
def sessionInvariant : Invariant Server Session where
  good g := Sound g.db ∧ (∀ key, g.db.ledger key = g.serial.2.ledger key) ∧
    g.serial.1 = g.commits.map fun c => .ok c.outcome
  own g
    | .idle => True
    | .active ev program pending held => Stage g.db ev program pending held ∧
        ∀ key id, .entity key id ∈ pending → id < g.db.entitiesSeq
  apart l m := List.Disjoint l.held m.held

theorem sound_withSeq {s : Store} (hs : Sound s) {n : Nat} (hn : s.entitiesSeq ≤ n) :
    Sound { s with entitiesSeq := n } where
  consistent := ⟨⟨hs.consistent.entity_inj, hs.consistent.projection_entity,
    hs.consistent.applied_entity, hs.consistent.stale_entity⟩, hs.consistent.entity_projection⟩
  numbered key id hkey := Nat.lt_of_lt_of_le (hs.numbered key id hkey) hn

/-- A commit keeps the committed tables those of the serial run. -/
theorem good_commit {g : Server} (hgood : sessionInvariant.good g) {k : EntityType}
    {ev : CanonicalEntityEvent k} {outcome : ApplyOutcome} {ws : List Write}
    (h : Applies g.db ev outcome ws) (hws : ∀ key id, .entity key id ∈ ws → id < g.db.entitiesSeq) :
    sessionInvariant.good ⟨g.db.writeAll ws, g.commits ++ [⟨ev, outcome⟩]⟩ := by
  obtain ⟨hs, hledger, houtcomes⟩ := hgood
  have hserial : Sound g.serial.2 := sound_applyEvents sound_empty _
  have hconcat : Server.serial ⟨g.db.writeAll ws, g.commits ++ [⟨ev, outcome⟩]⟩ =
      (g.serial.1 ++ [(applyEvent (.entity k ev) g.serial.2).1],
        (applyEvent (.entity k ev) g.serial.2).2) := by
    rw [Server.serial, List.map_append]
    exact applyEvents_concat _ _ _
  refine ⟨?_, fun key => ?_, ?_⟩
  · have := hs.sees (.applied h) (le_refl _) hws
    rwa [sees_eq] at this
  · rw [hconcat, ledger_applyEvent hserial, ← hledger]
    exact h.ledger_eq hs.consistent key
  · rw [hconcat, houtcomes, List.map_append, h.outcome_congr hs.consistent hserial (hledger ev.key)]
    rfl

theorem sessionInvariant_kept : sessionInvariant.Kept Move where
  apart_symm l m h := List.disjoint_comm.mp h
  own g l waits g' l' hgood hown hmove := by
    cases hmove with
    | start ev =>
      refine ⟨hgood, ?_, by simp⟩
      rw [applier_eq]
      exact .start
    | @statement _ k ev q next pending held seen hencodes hseen =>
      obtain ⟨hs, hledger, houtcomes⟩ := hgood
      obtain ⟨hstage, hpending⟩ := hown
      have hle := q.le_nextSeq g.db.entitiesSeq
      rw [← sees_eq] at hseen
      refine ⟨⟨sound_withSeq hs hle, hledger, houtcomes⟩, ?_, fun key id hm => ?_⟩
      · have hunused : Unused g.db g.db.entitiesSeq :=
          fun key hkey => Nat.lt_irrefl _ (hs.numbered key _ hkey)
        rw [hseen]
        exact (hstage.step hs.consistent hunused rfl hencodes).withSeq _
      · rcases List.mem_append.mp hm with hm | hm
        · exact Nat.lt_of_lt_of_le (hpending key id hm) hle
        · obtain ⟨hid, hnext⟩ := Sql.id_lt_nextSeq hm
          rw [hseen] at hid hnext
          exact (hid.trans_lt (Nat.lt_succ_self _)).trans_eq hnext.symm
    | commit =>
      obtain ⟨hstage, hpending⟩ := hown
      exact ⟨good_commit hgood hstage.returned.1 hpending, trivial⟩
    | rollback => exact ⟨hgood, trivial⟩
  other g l waits g' l' m hgood hown hm hapart hmove hfree := by
    cases hmove with
    | start ev => exact ⟨hm, List.disjoint_nil_left _⟩
    | @statement _ k ev q next pending held seen hencodes hseen =>
      refine ⟨?_, ?_⟩
      · cases m with
        | idle => trivial
        | active ev' program' pending' held' =>
          exact ⟨hm.1.withSeq _, fun key id hid =>
            Nat.lt_of_lt_of_le (hm.2 key id hid) (q.le_nextSeq g.db.entitiesSeq)⟩
      · refine List.disjoint_append_left.mpr ⟨hapart, fun r hr hheld => ?_⟩
        exact hfree ⟨r, hr, hheld⟩
    | @commit _ k ev outcome pending held =>
      refine ⟨?_, List.disjoint_nil_left _⟩
      cases m with
      | idle => trivial
      | active ev' program' pending' held' =>
        obtain ⟨happlies, hoccupied⟩ := hown.1.returned
        refine ⟨hm.1.unharmed (happlies.unharmed fun w hw r hr hheld => ?_), ?_⟩
        · exact hapart (hoccupied w hw hr) hheld
        · rw [Store.writeAll_entitiesSeq]
          exact hm.2
    | rollback => exact ⟨hm, List.disjoint_nil_left _⟩

theorem sessionInvariant_holds {ι : Type} [DecidableEq ι] {s : Server × (ι → Session)}
    (h : Reachable s) : sessionInvariant.Holds s := by
  have hinit : sessionInvariant.Holds ((⟨Store.empty, []⟩ : Server), fun _ : ι => Session.idle) :=
    { good := ⟨sound_empty, fun _ => rfl, rfl⟩
      own := fun _ => trivial
      apart := fun _ _ _ => List.disjoint_nil_left _ }
  exact sessionInvariant_kept.reachable hinit h

/-- A transaction that has written an entity holds its key, and no such entity is committed. -/
theorem Stage.entity_pending {db : Store} {k : EntityType} {ev : CanonicalEntityEvent k}
    {program : Tx ApplyOutcome} {pending : List Write} {held : List Resource}
    (h : Stage db ev program pending held) {key : EntityKey} {id : EntityId}
    (hm : .entity key id ∈ pending) :
    db.entities.lookup key = none ∧ .entityKey key ∈ held := by
  cases h with
  | created noEntity | createdObserved noEntity =>
    simp only [observation, List.mem_cons, Write.entity.injEq, reduceCtorEq, List.not_mem_nil,
      or_false] at hm
    obtain ⟨rfl, rfl⟩ := hm
    exact ⟨noEntity, List.mem_cons_self⟩
  | opened fits noEntity unused taken =>
    simp only [observation, List.mem_cons, Write.entity.injEq, reduceCtorEq, List.not_mem_nil,
      or_false] at hm
    obtain ⟨rfl, rfl⟩ := hm
    exact ⟨noEntity, taken List.mem_cons_self⟩
  | decided fits known decides =>
    rcases decides.write_cases with ⟨note, rfl⟩ | ⟨-, row', rfl, -⟩ <;> simp [observation] at hm
  | _ => simp [observation] at hm

/-- The uncommitted rows of a session. -/
def Session.pending : Session → List Write
  | idle => []
  | active _ _ pending _ => pending

/-- **Concurrent appliers are serializable.**  In every reachable state the committed
tables are those of the committed transactions run one after another in the order of
their commits, up to the numbering of entities, and each returned there what it returned here.
No running transaction has failed an assertion, an `UPDATE` about to run changes
exactly one row, and an entity about to be committed is neither there already nor
about to be committed by another transaction. -/
theorem reachable_serializable {ι : Type} [DecidableEq ι] {s : Server × (ι → Session)}
    (h : Reachable s) :
    SameTables s.1.db s.1.serial.2 ∧
    s.1.serial.1 = s.1.commits.map (fun c => .ok c.outcome) ∧
    (∀ t k (ev : CanonicalEntityEvent k) program pending held,
      s.2 t = .active ev program pending held →
      (∀ e, program ≠ .raise e) ∧
      (∀ k' id version set next, program = .op (.updateProjection k' id version set) next →
        ((Sql.updateProjection k' id version set).exec (s.1.db.writeAll pending)).1 = .ok 1) ∧
      ∀ key id, .entity key id ∈ pending → s.1.db.entities.lookup key = none ∧
        ∀ t', t' ≠ t → ∀ id', .entity key id' ∉ (s.2 t').pending) := by
  have hinv := sessionInvariant_holds h
  obtain ⟨hs, hledger, houtcomes⟩ := hinv.good
  have hserial : Sound s.1.serial.2 := sound_applyEvents sound_empty _
  refine ⟨sameTables_of_ledgers hs.consistent hserial.consistent hledger, houtcomes, ?_⟩
  intro t k ev program pending held ht
  have hown := hinv.own t
  rw [ht] at hown
  obtain ⟨hstage, -⟩ := hown
  refine ⟨?_, ?_, fun key id hm => ?_⟩
  · rintro e rfl
    exact hstage.not_raised
  · rintro k' id version set next rfl
    have := hstage.update_one s.1.db.entitiesSeq
    rwa [sees_eq] at this
  · obtain ⟨hnone, hheld⟩ := hstage.entity_pending hm
    refine ⟨hnone, fun t' hne id' hm' => ?_⟩
    have hown' := hinv.own t'
    have hapart := hinv.apart t t' hne.symm
    cases ht' : s.2 t' with
    | idle =>
      rw [ht'] at hm'
      cases hm'
    | active ev' program' pending' held' =>
      rw [ht'] at hown' hm' hapart
      rw [ht] at hapart
      exact hapart hheld (hown'.1.entity_pending hm').2

end WebhookIngestion
