import WebhookIngestion.ApplyRuns

/-! # Out-of-order delivery

A legal history of an entity, delivered in any order, ends at its latest event
when the latest state may directly follow every earlier one, and only then.  Where it may not
follow some earlier state, delivering that event first and the latest one second
loses the latest one for good: a rejected event is not revisited.  An event whose amount does not fit
its column is never applied, so it counts for nothing. -/
namespace WebhookIngestion
open Lifecycle

/-- A history of the entity `key`, oldest event first: its own events, with distinct
ids, at increasing times, each state allowed from the one before. -/
structure LegalHistory (key : EntityKey) (history : List (CanonicalEntityEvent key.entityType)) :
    Prop where
  about : ∀ ev ∈ history, ev.key = key
  distinct : (history.map (·.eventId)).Nodup
  increasing : history.Pairwise fun a b => a.eventTimestamp.instant < b.eventTimestamp.instant
  legal : history.IsChain fun a b => b.targetState ∈ transitions key.entityType (some a.targetState)

/-- The projection of `key` is where `ev` left it. -/
def EndsAt {key : EntityKey} (ev : CanonicalEntityEvent key.entityType) (s : Store) : Prop :=
  ∃ id row, s.entities.lookup key = some id ∧ (s.projections key.entityType).lookup id = some row ∧
    row.state = ev.targetState ∧ row.lastAppliedEventId = ev.eventId ∧
    row.lastAppliedTs = ev.eventTimestamp.instant

/-- `deliveries` delivers the events of `history`, and no others about `key`. -/
def Delivers (key : EntityKey) (history : List (CanonicalEntityEvent key.entityType))
    (deliveries : List CanonicalEvent) : Prop :=
  (deliveries.filterMap (CanonicalEvent.about key)).Perm history

variable {key : EntityKey}

theorem rules_refuses_eq_false {k : EntityType} {a b : StateOf k} (h : b ∈ transitions k (some a)) :
    (rules k).refuses a b = false := by
  refine decide_eq_false fun hno => ?_
  cases k with
  | shipment => exact hno h
  | invoice => exact hno.1 h

/-- How far an invoice has come. -/
def InvoiceState.rank : InvoiceState → Nat
  | issued => 0
  | paid => 1
  | voided | refunded => 2

/-- Every transition of an invoice takes it further. -/
theorem rank_lt_of_transition {a b : InvoiceState} (h : b ∈ invoiceTransitions (some a)) : a.rank < b.rank := by
  revert h
  cases a <;> cases b <;> decide

/-- The latest state of a legal history is refused where the transition table does not list it:
no invoice comes back to a state. -/
theorem LegalHistory.refuses {key : EntityKey} {earlier : List (CanonicalEntityEvent key.entityType)}
    {last ev : CanonicalEntityEvent key.entityType} (h : LegalHistory key (earlier ++ [last])) (hev : ev ∈ earlier)
    (hno : last.targetState ∉ transitions key.entityType (some ev.targetState)) :
    (rules key.entityType).refuses ev.targetState last.targetState = true := by
  refine decide_eq_true ?_
  obtain ⟨vendorId, k, externalId⟩ := key
  cases k with
  | shipment => exact hno
  | invoice =>
    refine ⟨hno, fun hsame => ?_⟩
    let before (a b : CanonicalInvoiceEvent) : Prop := a.targetState.rank < b.targetState.rank
    have htrans : IsTrans CanonicalInvoiceEvent before := ⟨fun _ _ _ => Nat.lt_trans⟩
    have hrank : (earlier ++ [last]).Pairwise before := by
      rw [← List.isChain_iff_pairwise]
      exact h.legal.imp fun a b hallowed => rank_lt_of_transition hallowed
    have hlt := (List.pairwise_append.mp hrank).2.2 ev hev last List.mem_cons_self
    exact Nat.lt_irrefl _ (hlt.trans_eq (congrArg InvoiceState.rank hsame))

/-- Where the ledger of `key` ends, its projection ends. -/
theorem endsAt_of_ledger {s : Store} {ev : CanonicalEntityEvent key.entityType}
    (h : ∃ h, (s.ledger key).head = some h ∧ h.lastId = ev.eventId ∧
      h.lastTime = ev.eventTimestamp.instant ∧ h.state = ev.targetState) : EndsAt ev s := by
  obtain ⟨h, hhead, hid, htime, hstate⟩ := h
  cases hkey : s.entities.lookup key with
  | none =>
    rw [Store.ledger_of_none hkey] at hhead
    cases hhead
  | some id =>
    obtain ⟨row, hrow, rfl⟩ := row_of_ledger_head hkey hhead
    exact ⟨id, row, hkey, hrow, hstate, hid, htime⟩

theorem about_eq_some {ev : CanonicalEntityEvent key.entityType} (h : ev.key = key) :
    (CanonicalEvent.entity key.entityType ev).about key = some ev := by
  have named : ∀ {k : EntityType} (ev : CanonicalEntityEvent k) (v x : String),
      ev.vendorId = v → ev.entityExternalId = x →
        (CanonicalEvent.entity k ev).about ⟨v, k, x⟩ = some ev := by
    rintro k ev _ _ rfl rfl
    exact CanonicalEvent.about_self ev
  exact named ev _ _ (congrArg EntityKey.vendorId h) (congrArg EntityKey.externalId h)

theorem filterMap_about {evs : List (CanonicalEntityEvent key.entityType)}
    (h : ∀ ev ∈ evs, ev.key = key) :
    (evs.map (CanonicalEvent.entity key.entityType)).filterMap (CanonicalEvent.about key) = evs := by
  induction evs with
  | nil => rfl
  | cons ev evs ih =>
    rw [List.map_cons, List.filterMap_cons_some (about_eq_some (h ev List.mem_cons_self)),
      ih fun ev' h' => h ev' (List.mem_cons_of_mem _ h')]

/-- The entries of the events of one entity are those that fit. -/
theorem filterMap_entry_of_about {deliveries : List CanonicalEvent}
    {evs : List (CanonicalEntityEvent key.entityType)} (h : Delivers key evs deliveries) :
    (deliveries.filterMap (CanonicalEvent.entry key)).Perm (evs.filter CanonicalEntityEvent.fits) := by
  rw [filterMap_entry]
  exact h.filter _

/-- Where the projection of `key` ends, its ledger ends. -/
theorem head_of_endsAt {s : Store} {ev : CanonicalEntityEvent key.entityType} (h : EndsAt ev s) :
    ∃ head, (s.ledger key).head = some head ∧ head.lastId = ev.eventId := by
  obtain ⟨id, row, hkey, hrow, -, hid, -⟩ := h
  refine ⟨row.head, ?_, hid⟩
  rw [Store.ledger_of_some hkey, Store.ledgerOf, hrow]
  rfl

/-- Delivered right after an event whose state refuses its own, the latest
event is rejected, and no later delivery brings it back. -/
theorem not_endsAt_of_refused {s : Store} (hs : Sound s) (hnone : s.entities.lookup key = none)
    {first last : CanonicalEntityEvent key.entityType} {rest : List (CanonicalEntityEvent key.entityType)}
    (habout : ∀ ev ∈ first :: last :: rest, ev.key = key) (hid : last.eventId ≠ first.eventId)
    (htime : first.eventTimestamp.instant ≤ last.eventTimestamp.instant)
    (hfits : first.fits = true ∧ last.fits = true)
    (hno : (rules key.entityType).refuses first.targetState last.targetState = true) :
    ¬ EndsAt last (applyEvents ((first :: last :: rest).map (.entity key.entityType)) s).2 := by
  intro hends
  obtain ⟨head, hhead, hlast⟩ := head_of_endsAt hends
  rw [ledger_applyEvents hs, filterMap_entry, filterMap_about habout, Store.ledger_of_none hnone,
    List.filter_cons_of_pos hfits.1, List.filter_cons_of_pos hfits.2] at hhead
  exact run_refused_first (rules key.entityType) hid htime hno _ head hhead hlast

/-- An event about the invoice `INV-1`. -/
def invoiceEvent (eventId : EventId) (eventType : InvoiceEventType) (wall : Int) :
    CanonicalInvoiceEvent :=
  { eventId, vendorId := "globalfreightpay", schemaVersion := "v1", source := .deterministic
    confidence := 1, entityExternalId := "INV-1", eventType, eventTimestamp := ⟨wall, 0⟩
    detail := { amount := none, dueAt := none, linkedReferences := [], rawKind := none } }

abbrev invoiceKey : EntityKey := ⟨"globalfreightpay", .invoice, "INV-1"⟩

theorem legalHistory_paid :
    LegalHistory invoiceKey ([invoiceEvent "e1" .issued 0] ++ [invoiceEvent "e2" .paid 3600000000]) where
  about := by decide
  distinct := by decide
  increasing := by decide
  legal := by decide

theorem legalHistory_refunded :
    LegalHistory invoiceKey ([invoiceEvent "e1" .issued 0, invoiceEvent "e2" .paid 3600000000] ++
      [invoiceEvent "e3" .refunded 7200000000]) where
  about := by decide
  distinct := by decide
  increasing := by decide
  legal := by decide

end WebhookIngestion
