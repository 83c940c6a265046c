import WebhookIngestion.Deliveries
import WebhookIngestion.Sessions

/-! # What concurrent appliers leave

Workers apply events at the same time, roll back, and are given events more than once.  What counts for an
entity is the order in which its own events are committed for the first time
(`concurrent_view_congr`): of the transactions that commit one event the first takes effect
(`committed_alreadyApplied_iff`), and where a legal history was committed, in any order and with any
repeats, the entity is at its latest event (`concurrent_history_converges`).  Every sequence of events
that fit is one that sessions can commit (`reachable_commits`), so none of this is about nothing. -/
namespace WebhookIngestion
open Programs Tables Lifecycle Interleaving

/-- The events whose transactions were committed, in the order of their commits. -/
def Server.events (g : Server) : List CanonicalEvent := g.commits.map Commit.canonicalEvent

/-! ### Sessions may commit anything that fits -/

section Serial
variable {ι : Type} [DecidableEq ι]

/-- A transaction that nobody hinders runs to its commit. -/
theorem reachable_commit {t : ι} {k : EntityType} {ev : CanonicalEntityEvent k} {program : Tx ApplyOutcome}
    {g : Server} {ls : ι → Session} {pending : List Write} {held : List Resource}
    (hfits : ev.fits = true) (h : Reachable (g, ls)) (ht : ls t = .active ev program pending held)
    (hidle : ∀ t', t' ≠ t → ls t' = .idle) :
    ∃ g' outcome, Reachable (g', fun _ : ι => Session.idle) ∧ g'.commits = g.commits ++ [⟨ev, outcome⟩] := by
  induction program generalizing g ls pending held with
  | ret outcome =>
    refine ⟨⟨g.db.writeAll pending, g.commits ++ [⟨ev, outcome⟩]⟩, outcome, ?_, rfl⟩
    have hmove : Move g (ls t) (fun _ => False) ⟨g.db.writeAll pending, g.commits ++ [⟨ev, outcome⟩]⟩ .idle := by
      rw [ht]
      exact .commit
    have hstep := h.tail (.move hmove fun _ _ hwaits => hwaits)
    have hall : Function.update ls t .idle = fun _ => Session.idle := by
      funext t'
      by_cases he : t' = t
      · rw [he, Function.update_self]
      · rw [Function.update_of_ne he, hidle t' he]
    rw [hall] at hstep
    exact hstep
  | raise e =>
    -- no transaction of a reachable state has raised
    have hown : sessionInvariant.own g (ls t) := (sessionInvariant_holds h).own t
    rw [ht] at hown
    exact absurd hown.1 Stage.not_raised
  | op q next ih =>
    have hencodes : q.encodes = true := by
      by_contra hno
      have hown : sessionInvariant.own g (ls t) := (sessionInvariant_holds h).own t
      rw [ht] at hown
      cases hfits.symm.trans (hown.1.unencoded (Bool.not_eq_true _ ▸ hno)).1
    have hmove : Move g (ls t) (fun m => ∃ r ∈ q.takes (g.db.writeAll pending), r ∈ m.held)
        { g with db := { g.db with entitiesSeq := q.nextSeq g.db.entitiesSeq } }
        (.active ev (next (q.exec (g.db.writeAll pending)).1) (pending ++ (q.exec (g.db.writeAll pending)).2)
          (held ++ q.takes (g.db.writeAll pending))) := by
      rw [ht]
      exact .statement hencodes rfl
    have hfree : ∀ t', t' ≠ t → ¬ ∃ r ∈ q.takes (g.db.writeAll pending), r ∈ (ls t').held := by
      rintro t' hne ⟨r, -, hr⟩
      rw [hidle t' hne] at hr
      cases hr
    have hothers : ∀ l t', t' ≠ t → Function.update ls t l t' = .idle := fun l t' hne => by
      rw [Function.update_of_ne hne, hidle t' hne]
    obtain ⟨g', outcome, hreachable, hcommits⟩ := ih (q.exec (g.db.writeAll pending)).1
      (h.tail (.move (t := t) hmove hfree)) (Function.update_self ..) (hothers _)
    exact ⟨g', outcome, hreachable, hcommits⟩

/-- **Sessions can commit any events that fit in any order**, and be idle afterwards. -/
theorem reachable_commits [Nonempty ι] (events : List ((k : EntityType) × CanonicalEntityEvent k))
    (hfits : ∀ e ∈ events, e.2.fits = true) :
    ∃ g, Reachable (g, fun _ : ι => Session.idle) ∧ g.events = events.map fun e => .entity e.1 e.2 := by
  induction events using List.reverseRecOn with
  | nil => exact ⟨⟨Store.empty, []⟩, .refl, rfl⟩
  | append_singleton events e ih =>
    obtain ⟨g, hreachable, hevents⟩ := ih fun e he => hfits e (List.mem_append_left _ he)
    obtain ⟨t⟩ := ‹Nonempty ι›
    have hstart : Reachable (g, Function.update (fun _ : ι => Session.idle) t
        (.active e.2 (applier e.1 e.2) [] [])) :=
      hreachable.tail (.move (t := t) (.start e.2) fun _ _ hwaits => hwaits)
    obtain ⟨g', outcome, hreachable', hcommits⟩ := reachable_commit
      (hfits e (List.mem_append_right _ List.mem_cons_self)) hstart (Function.update_self ..)
      fun t' hne => Function.update_of_ne hne ..
    refine ⟨g', hreachable', ?_⟩
    rw [Server.events, hcommits, List.map_append, List.map_append, ← hevents]
    rfl

end Serial

/-! ### What is committed of an entity -/

section Reached
variable {ι ι' : Type} [DecidableEq ι] [DecidableEq ι'] {s : Server × (ι → Session)} {s' : Server × (ι' → Session)}

/-- An entity's ledger is that of its committed events. -/
theorem ledger_of_reachable (h : Reachable s) (key : EntityKey) :
    s.1.db.ledger key =
      run (rules key.entityType) .empty (s.1.events.filterMap (CanonicalEvent.entry key)) := by
  rw [(sessionInvariant_holds h).good.2.1 key]
  exact ledger_applyEvents sound_empty s.1.events key

theorem outcomes_append (events more : List CanonicalEvent) (s : Store) :
    (applyEvents (events ++ more) s).1 =
      (applyEvents events s).1 ++ (applyEvents more (applyEvents events s).2).1 := by
  induction events generalizing s with
  | nil => rfl
  | cons event events ih => exact congrArg ((applyEvent event s).1 :: ·) (ih _)

theorem length_outcomes (events : List CanonicalEvent) (s : Store) :
    (applyEvents events s).1.length = events.length := by
  induction events generalizing s with
  | nil => rfl
  | cons event events ih => exact congrArg (· + 1) (ih _)

/-- What a transaction returned it would have returned after the ones committed before it. -/
theorem committed_returned (h : Reachable s) {before after : List Commit} {c : Commit}
    (hsplit : s.1.commits = before ++ c :: after) :
    (applyEvent c.canonicalEvent (applyEvents (before.map Commit.canonicalEvent) Store.empty).2).1 =
      .ok c.outcome := by
  have houtcomes := (sessionInvariant_holds h).good.2.2
  rw [Server.serial, hsplit, List.map_append, List.map_cons, outcomes_append, applyEvents, List.map_append,
    List.map_cons] at houtcomes
  have hlength : (applyEvents (before.map Commit.canonicalEvent) Store.empty).1.length =
      (before.map fun c => (.ok c.outcome : Except ApplyError ApplyOutcome)).length := by
    rw [length_outcomes, List.length_map, List.length_map]
  exact (List.cons.inj (List.append_inj houtcomes hlength).2).1

/-- A commit leaves its event observed. -/
theorem committed_observed (h : Reachable s) {before after : List Commit}
    (hsplit : s.1.commits = before ++ after) {c : Commit} (hc : c ∈ before) :
    (applyEvents (before.map Commit.canonicalEvent) Store.empty).2.Observed c.event.key c.event.eventId := by
  obtain ⟨first, rest, rfl⟩ := List.append_of_mem hc
  rw [List.append_assoc, List.cons_append] at hsplit
  have hs := sound_applyEvents sound_empty (first.map Commit.canonicalEvent)
  rw [List.map_append, List.map_cons, applyEvents_append, applyEvents]
  exact (applyEvents_induction (P := fun s => s.Observed c.event.key c.event.eventId)
    (fun _ more hs hobserved => hobserved.mono hs more) (sound_applyEvent hs c.canonicalEvent)
    (observed_applyEvent hs (committed_returned h hsplit)) (rest.map Commit.canonicalEvent)).2

theorem exists_about_iff {k : EntityType} (ev : CanonicalEntityEvent k) (key : EntityKey) (eventId : EventId) :
    (∃ own, (CanonicalEvent.entity k ev).about key = some own ∧ own.eventId = eventId) ↔
      ev.key = key ∧ ev.eventId = eventId := by
  by_cases hkey : ev.key = key
  · subst hkey
    simp [CanonicalEvent.about_self]
  · simp [CanonicalEvent.about_of_ne hkey, hkey]

/-- What was observed is the id of an event that fits. -/
theorem exists_entry_of_observed {events : List CanonicalEvent} {key : EntityKey} {eventId : EventId}
    (h : (applyEvents events Store.empty).2.Observed key eventId) :
    ∃ own ∈ events.filterMap (CanonicalEvent.entry key), own.eventId = eventId := by
  rw [observed_iff_ledger, ledger_applyEvents sound_empty, mem_applied_run] at h
  exact h.resolve_left List.not_mem_nil

/-- **Of the events committed under one id, one fits.** -/
theorem exists_entry_of_about (h : Reachable s) {key : EntityKey} {ev : CanonicalEntityEvent key.entityType}
    (hev : ev ∈ s.1.events.filterMap (CanonicalEvent.about key)) :
    ∃ own ∈ s.1.events.filterMap (CanonicalEvent.entry key), own.eventId = ev.eventId := by
  obtain ⟨event, hevent, habout⟩ := List.mem_filterMap.mp hev
  obtain ⟨c, hc, rfl⟩ := List.mem_map.mp hevent
  obtain ⟨hkey, hid⟩ := (exists_about_iff c.event key ev.eventId).mp ⟨ev, habout, rfl⟩
  have hobserved := committed_observed h (List.append_nil _).symm hc
  rw [hkey, hid] at hobserved
  exact exists_entry_of_observed hobserved

/-- **Concurrent deliveries converge**: where the transactions committed for an entity are those of a legal history,
in whatever order and however often, and the latest state may follow every earlier one, the entity is at the latest
event. -/
theorem concurrent_history_converges {key : EntityKey} {earlier : List (CanonicalEntityEvent key.entityType)}
    {last : CanonicalEntityEvent key.entityType} (h : Reachable s) (hhistory : LegalHistory key (earlier ++ [last]))
    (hallowed : ∀ ev ∈ earlier, last.targetState ∈ transitions key.entityType (some ev.targetState))
    (hcommitted : ∀ ev, ev ∈ s.1.events.filterMap (CanonicalEvent.about key) ↔ ev ∈ earlier ++ [last]) :
    EndsAt last s.1.db := by
  apply endsAt_of_ledger
  rw [ledger_of_reachable h key]
  have hothers : ∀ ev ∈ earlier ++ [last], ev ≠ last → ev ∈ earlier := by
    intro ev hev hne
    exact (List.mem_append.mp hev).resolve_right fun h => hne (List.mem_singleton.mp h)
  have hlast : last ∈ earlier ++ [last] := List.mem_append_right earlier List.mem_cons_self
  have hsub : ∀ ev ∈ s.1.events.filterMap (CanonicalEvent.entry key), ev ∈ earlier ++ [last] := by
    intro ev hev
    rw [filterMap_entry] at hev
    exact (hcommitted ev).mp (List.mem_of_mem_filter hev)
  apply run_deliveries_head (rules key.entityType) hhistory.distinct hlast
  · intro ev hev hne
    exact (List.pairwise_append.mp hhistory.increasing).2.2 ev (hothers ev hev hne) last List.mem_cons_self
  · intro ev hev hne
    exact rules_refuses_eq_false (hallowed ev (hothers ev hev hne))
  · exact hsub
  · -- the history has one event under the id of the latest
    obtain ⟨own, hown, hid⟩ := exists_entry_of_about h ((hcommitted last).mpr hlast)
    exact List.inj_on_of_nodup_map hhistory.distinct (hsub own hown) hlast hid ▸ hown

/-- **Only the order of first commits counts**: two services that have committed the events of an entity in the same
order, repeats aside, have the same rows of it, whatever else they have done and however it was interleaved. -/
theorem concurrent_view_congr {key : EntityKey} (h : Reachable s) (h' : Reachable s')
    (hsame : (firstDeliveries [] s.1.events).filterMap (CanonicalEvent.about key) =
      (firstDeliveries [] s'.1.events).filterMap (CanonicalEvent.about key)) :
    s.1.db.view key = s'.1.db.view key := by
  have hfirst : ∀ events : List CanonicalEvent,
      run (rules key.entityType) .empty (events.filterMap (CanonicalEvent.entry key)) =
        run (rules key.entityType) .empty ((firstDeliveries [] events).filterMap (CanonicalEvent.entry key)) := by
    intro events
    have hnone : ∀ d ∈ ([] : List (EntityKey × EventId)), Store.empty.Observed d.1 d.2 := fun _ hd => by cases hd
    have hrun := applyEvents_firstDeliveries_of_observed sound_empty hnone events
    have hledger := congrArg (fun s => s.ledger key) hrun
    simp only [ledger_applyEvents sound_empty] at hledger
    exact hledger
  have hledger : s.1.db.ledger key = s'.1.db.ledger key := by
    rw [ledger_of_reachable h, ledger_of_reachable h', hfirst s.1.events, hfirst s'.1.events, filterMap_entry,
      filterMap_entry, hsame]
  rw [(sessionInvariant_holds h).good.1.consistent.view_eq,
    (sessionInvariant_holds h').good.1.consistent.view_eq, hledger]

/-! ### One commit of an event counts -/

theorem step_duplicate_iff {k : EntityType} (L : EntityLedger k) (ev : CanonicalEntityEvent k) :
    ApplyOutcome.ofVerdict (step (rules k) L ev).1 = .alreadyApplied ↔ ev.eventId ∈ L.applied.map Prod.fst := by
  have htook := took_step (rules k) L ev
  generalize (step (rules k) L ev).1 = v at htook ⊢
  generalize (step (rules k) L ev).2 = L' at htook
  cases htook with
  | duplicate seen => exact iff_of_true rfl seen
  | opened new | late new | refused new | renewed new | advanced new =>
    exact iff_of_false (by simp [ApplyOutcome.ofVerdict]) new

/-- **An event takes effect once**: a committed transaction finds its event applied already if and only if a
transaction with the same entity and event id was committed before it. -/
theorem committed_alreadyApplied_iff (h : Reachable s) {before after : List Commit} {c : Commit}
    (hsplit : s.1.commits = before ++ c :: after) :
    c.outcome = .alreadyApplied ↔
      ∃ earlier ∈ before, earlier.event.key = c.event.key ∧ earlier.event.eventId = c.event.eventId := by
  have hs := sound_applyEvents sound_empty (before.map Commit.canonicalEvent)
  rw [applyEvent_outcome hs (committed_returned h hsplit), step_duplicate_iff, ← observed_iff_ledger]
  constructor
  · intro hobserved
    obtain ⟨own, hown, hid⟩ := exists_entry_of_observed hobserved
    rw [filterMap_entry] at hown
    obtain ⟨event, hevent, habout⟩ := List.mem_filterMap.mp (List.mem_of_mem_filter hown)
    obtain ⟨earlier, hearlier, rfl⟩ := List.mem_map.mp hevent
    exact ⟨earlier, hearlier, (exists_about_iff earlier.event _ _).mp ⟨own, habout, hid⟩⟩
  · rintro ⟨earlier, hearlier, hkey, hid⟩
    rw [← hkey, ← hid]
    exact committed_observed h hsplit hearlier

end Reached

/-! ### An invoice, delivered by two workers -/

/-- Issued and paid, in the wrong order, and paid once more. -/
def paidTwice : List ((k : EntityType) × CanonicalEntityEvent k) :=
  [⟨.invoice, invoiceEvent "e2" .paid 3600000000⟩, ⟨.invoice, invoiceEvent "e1" .issued 0⟩,
    ⟨.invoice, invoiceEvent "e2" .paid 3600000000⟩]

/-- Two of them were committed, and the last one has begun: the committed ones stand in the tables as
one after the other would have put them there, and the last one has not failed. -/
theorem paidTwice_serializable :
    ∃ (s : Server × (Bool → Session)) (program : Tx ApplyOutcome), Reachable s ∧ s.1.events.length = 2 ∧
      s.2 true = .active (invoiceEvent "e2" .paid 3600000000) program [] [] ∧
      SameTables s.1.db s.1.serial.2 ∧ s.1.serial.1 = s.1.commits.map (fun c => .ok c.outcome) ∧
      ∀ e, program ≠ .raise e := by
  obtain ⟨g, hreachable, hevents⟩ := @reachable_commits Bool _ _ (paidTwice.take 2) (by decide)
  have hstart : Reachable (g, Function.update (fun _ : Bool => Session.idle) true
      (.active (invoiceEvent "e2" .paid 3600000000) (applier .invoice (invoiceEvent "e2" .paid 3600000000)) [] [])) :=
    hreachable.tail (.move (t := true) (.start (invoiceEvent "e2" .paid 3600000000)) fun _ _ hwaits => hwaits)
  have hlast : (Function.update (fun _ : Bool => Session.idle) true (.active (invoiceEvent "e2" .paid 3600000000)
      (applier .invoice (invoiceEvent "e2" .paid 3600000000)) [] [])) true =
        .active (invoiceEvent "e2" .paid 3600000000) (applier .invoice (invoiceEvent "e2" .paid 3600000000)) [] [] :=
    Function.update_self true _ _
  obtain ⟨htables, houtcomes, hactive⟩ := reachable_serializable hstart
  refine ⟨_, _, hstart, ?_, hlast, htables, houtcomes, (hactive true _ _ _ _ _ hlast).1⟩
  rw [hevents]
  rfl

/-- The invoice is paid in some reachable state of two workers. -/
theorem paidTwice_converges :
    ∃ g : Server, Reachable (g, fun _ : Bool => Session.idle) ∧ g.events.length = 3 ∧
      @EndsAt invoiceKey (invoiceEvent "e2" .paid 3600000000) g.db := by
  obtain ⟨g, hreachable, hevents⟩ := @reachable_commits Bool _ _ paidTwice (by decide)
  refine ⟨g, hreachable, by rw [hevents]; rfl, ?_⟩
  apply concurrent_history_converges hreachable legalHistory_paid (by decide)
  intro ev
  have habout : g.events.filterMap (CanonicalEvent.about invoiceKey) = [invoiceEvent "e2" .paid 3600000000,
      invoiceEvent "e1" .issued 0, invoiceEvent "e2" .paid 3600000000] := by
    rw [hevents]
    decide
  rw [habout]
  simp only [List.mem_cons, List.not_mem_nil, or_false, List.mem_append]
  tauto

/-- Two services that were sent the invoice's events in one order, one of them with a repeat. -/
theorem paidTwice_same_view :
    ∃ g g' : Server, Reachable (g, fun _ : Bool => Session.idle) ∧ Reachable (g', fun _ : Fin 3 => Session.idle) ∧
      g.events.length = 3 ∧ g'.events.length = 2 ∧ g.db.view invoiceKey = g'.db.view invoiceKey := by
  obtain ⟨g, hreachable, hevents⟩ := @reachable_commits Bool _ _ paidTwice (by decide)
  obtain ⟨g', hreachable', hevents'⟩ := @reachable_commits (Fin 3) _ _ (paidTwice.take 2) (by decide)
  refine ⟨g, g', hreachable, hreachable', by rw [hevents]; rfl, by rw [hevents']; rfl, ?_⟩
  apply concurrent_view_congr hreachable hreachable'
  rw [hevents, hevents']
  decide

/-- The second payment finds the first one. -/
theorem paidTwice_alreadyApplied :
    ∃ g : Server, Reachable (g, fun _ : Bool => Session.idle) ∧
      ∃ before c, g.commits = before ++ [c] ∧ c.event.eventId = "e2" ∧ c.outcome = .alreadyApplied := by
  obtain ⟨g, hreachable, hevents⟩ := @reachable_commits Bool _ _ paidTwice (by decide)
  obtain ⟨c₁, commits, hc₁, hfirst, hevents⟩ := List.map_eq_cons_iff.mp hevents
  obtain ⟨c₂, commits, rfl, -, hevents⟩ := List.map_eq_cons_iff.mp hevents
  obtain ⟨c₃, commits, rfl, hlast, hevents⟩ := List.map_eq_cons_iff.mp hevents
  obtain rfl := List.map_eq_nil_iff.mp hevents
  have hid : ∀ c : Commit, c.canonicalEvent = .entity .invoice (invoiceEvent "e2" .paid 3600000000) →
      c.event.key = invoiceKey ∧ c.event.eventId = "e2" := by
    rintro ⟨ev, outcome⟩ h
    cases h
    exact ⟨rfl, rfl⟩
  have hsplit : g.commits = [c₁, c₂] ++ c₃ :: [] := hc₁
  refine ⟨g, hreachable, [c₁, c₂], c₃, hsplit, (hid c₃ hlast).2, ?_⟩
  refine (committed_alreadyApplied_iff hreachable hsplit).mpr ⟨c₁, List.mem_cons_self, ?_, ?_⟩
  · rw [(hid c₁ hfirst).1, (hid c₃ hlast).1]
  · rw [(hid c₁ hfirst).2, (hid c₃ hlast).2]

end WebhookIngestion
