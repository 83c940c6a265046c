import WebhookIngestion.Convergence
import WebhookIngestion.Reprocessing

/-! # Replays

Two passes of the worker over the same raw events, with the projections truncated in
between and what was learned kept.  The passes end at the same rows as far as each step of
the second one is told the same of its entity as the first one's was (`replay_reproduces`).
A schema learned in the first pass may tell another account of an event than the answer it
was learned from (`replay_may_differ`). -/
namespace WebhookIngestion
open Tables Text Programs Runs Lifecycle

/-! ### The rows a replay is compared by -/

/-- The money columns of a row. -/
def amountColumns : {k : EntityType} → ColumnsOf k → Option String × Option Nat
  | .shipment, _ => (none, none)
  | .invoice, columns => (columns.currency, columns.amountMinor)

/-- The columns of a projection row that a replay is compared by. -/
structure Snapshot (k : EntityType) where
  vendorId : String
  externalId : String
  state : StateOf k
  lastAppliedEventId : EventId
  lastAppliedTs : Int
  version : Nat
  amount : Option String × Option Nat
  deriving DecidableEq

def Projection.snapshot {k : EntityType} (row : Projection k) : Snapshot k :=
  { vendorId := row.vendorId
    externalId := row.externalId
    state := row.state
    lastAppliedEventId := row.lastAppliedEventId
    lastAppliedTs := row.lastAppliedTs
    version := row.version
    amount := amountColumns row.columns }

/-- The rows of `shipments` or of `invoices`. -/
def Store.snapshots (s : Store) (k : EntityType) : List (Snapshot k) :=
  (s.projections k).entries.map fun e => e.2.snapshot

/-- **The two stores agree row by row.** -/
def SameRows (s s' : Store) : Prop := ∀ k, (s.snapshots k).Perm (s'.snapshots k)

/-- A row is seen under its name. -/
theorem mem_snapshots {s : Store} {k : EntityType} {snapshot : Snapshot k} :
    snapshot ∈ s.snapshots k ↔ ∃ id row, (s.projections k).lookup id = some row ∧ row.snapshot = snapshot := by
  rw [Store.snapshots, List.mem_map]
  constructor
  · rintro ⟨⟨id, row⟩, hmem, rfl⟩
    exact ⟨id, row, mem_entries_iff.mp hmem, rfl⟩
  · rintro ⟨id, row, hrow, rfl⟩
    exact ⟨⟨id, row⟩, mem_entries_iff.mpr hrow, rfl⟩

/-- No two rows have one name. -/
theorem nodup_snapshots {s : Store} (hs : Linked s) (k : EntityType) : (s.snapshots k).Nodup := by
  refine List.Nodup.map_on ?_ (s.projections k).nodupKeys.nodup
  rintro ⟨id, row⟩ hmem ⟨id', row'⟩ hmem' hsame
  have hrow := mem_entries_iff.mp hmem
  have hrow' := mem_entries_iff.mp hmem'
  have hname : row.vendorId = row'.vendorId ∧ row.externalId = row'.externalId :=
    ⟨congrArg Snapshot.vendorId hsame, congrArg Snapshot.externalId hsame⟩
  have hid : s.entities.lookup ⟨row.vendorId, k, row.externalId⟩ = some id' := by
    rw [hname.1, hname.2]
    exact hs.projection_entity hrow'
  obtain rfl := Option.some.inj ((hs.projection_entity hrow).symm.trans hid)
  obtain rfl := Option.some.inj (hrow.symm.trans hrow')
  rfl

/-- The books of every entity read the same. -/
def SameLedgers (s s' : Store) : Prop := ∀ key, SameBooks amountColumns (s.ledger key) (s'.ledger key)

theorem SameLedgers.symm {s s' : Store} (h : SameLedgers s s') : SameLedgers s' s := fun key => (h key).symm

/-- A row of one store is a row of the other. -/
theorem SameLedgers.mem_snapshots {s s' : Store} (hs : Consistent s) (hs' : Consistent s') (h : SameLedgers s s')
    {k : EntityType} {snapshot : Snapshot k} (hmem : snapshot ∈ s.snapshots k) : snapshot ∈ s'.snapshots k := by
  obtain ⟨id, row, hrow, rfl⟩ := WebhookIngestion.mem_snapshots.mp hmem
  obtain ⟨hledger, hhead⟩ := hs.ledger_of_row hrow
  obtain ⟨columns, hhead', hcolumns⟩ := (h ⟨row.vendorId, k, row.externalId⟩).head_some (hledger ▸ hhead)
  cases hkey : s'.entities.lookup ⟨row.vendorId, k, row.externalId⟩ with
  | none =>
    rw [Store.ledger_of_none hkey] at hhead'
    cases hhead'
  | some id' =>
    obtain ⟨row', hrow', he⟩ := row_of_ledger_head hkey hhead'
    obtain ⟨hvendor, hexternal⟩ := hs'.projection_name hkey hrow'
    refine WebhookIngestion.mem_snapshots.mpr ⟨id', row', hrow', ?_⟩
    simp only [Projection.head, Head.mk.injEq] at he
    obtain ⟨hstate, hid, htime, hversion, hdata⟩ := he
    simp only [Projection.snapshot, hvendor, hexternal, hstate, hid, htime, hversion, hdata, ← hcolumns]
    rfl

/-- **Stores with the same books agree row by row.** -/
theorem SameLedgers.sameRows {s s' : Store} (hs : Consistent s) (hs' : Consistent s') (h : SameLedgers s s') :
    SameRows s s' := fun k =>
  (List.perm_ext_iff_of_nodup (nodup_snapshots hs.toLinked k) (nodup_snapshots hs'.toLinked k)).mpr fun _ =>
    ⟨h.mem_snapshots hs hs', h.symm.mem_snapshots hs' hs⟩

/-! ### What an event does to a row -/

/-- What an event does to the rows a replay is compared by. -/
structure Effect where
  key : EntityKey
  eventId : EventId
  state : String
  timestamp : Int
  amount : Option Money
  deriving DecidableEq

def CanonicalEvent.effect : CanonicalEvent → Option Effect
  | entity k ev =>
    some ⟨ev.key, ev.eventId, stateValue k ev.targetState, ev.eventTimestamp.instant, ev.detail.amount?⟩
  | unclassified _ => none

theorem stateValue_inj {k : EntityType} {a b : StateOf k} (h : stateValue k a = stateValue k b) : a = b := by
  cases k <;> cases a <;> cases b <;> first | rfl | exact absurd h (by decide)

/-- Events of one effect fit alike. -/
theorem fits_of_effect {k : EntityType} {ev ev' : CanonicalEntityEvent k}
    (h : (CanonicalEvent.entity k ev).effect = (CanonicalEvent.entity k ev').effect) : ev.fits = ev'.fits := by
  have hamount : ev.detail.amount? = ev'.detail.amount? := congrArg Effect.amount (Option.some.inj h)
  rw [CanonicalEntityEvent.fits, CanonicalEntityEvent.fits]
  show (DetailOf.amount? ev.detail).all _ = (DetailOf.amount? ev'.detail).all _
  rw [hamount]

/-- Events of one effect do the same to every entity. -/
theorem alike_of_effect {k : EntityType} {ev ev' : CanonicalEntityEvent k}
    (h : (CanonicalEvent.entity k ev).effect = (CanonicalEvent.entity k ev').effect) :
    Alike (rules k) amountColumns ev ev' := by
  simp only [CanonicalEvent.effect, Option.some.injEq, Effect.mk.injEq] at h
  obtain ⟨-, hid, hstate, htime, hamount⟩ := h
  refine ⟨hid, htime, stateValue_inj hstate, ?_, ?_, ?_⟩
  · cases k with
    | shipment => rfl
    | invoice =>
      have hamount : ev.detail.amount = ev'.detail.amount := hamount
      simp only [rules, initialColumns, amountColumns, hamount]
  · intro columns columns' hcolumns
    cases k with
    | shipment => rfl
    | invoice => exact hcolumns
  · intro columns columns' hcolumns
    cases k with
    | shipment => rfl
    | invoice =>
      have hamount : ev.detail.amount = ev'.detail.amount := hamount
      have hcurrency : columns.currency = columns'.currency := congrArg Prod.fst hcolumns
      have hminor : columns.amountMinor = columns'.amountMinor := congrArg Prod.snd hcolumns
      simp only [rules, moveColumns, amountColumns, hamount, hcurrency, hminor]

/-- What is told of an entity settles what its event does. -/
theorem effect_eq_of_account {event event' : CanonicalEvent} (h : event.account = event'.account)
    (hid : event.base.eventId = event'.base.eventId) : event.effect = event'.effect := by
  have hrecorded : event.recorded = event'.recorded := by rw [← toRecorded_account, h, toRecorded_account]
  have hamount := congrArg Account.amount h
  cases event with
  | unclassified ev =>
    cases event' with
    | unclassified ev' => rfl
    | entity k' ev' => cases congrArg Recorded.entity hrecorded
  | entity k ev =>
    cases event' with
    | unclassified ev' => cases congrArg Recorded.entity hrecorded
    | entity k' ev' =>
      have hkey := key_of_recorded hrecorded
      obtain rfl : k = k' := congrArg EntityKey.entityType hkey
      simp only [CanonicalEvent.recorded, Recorded.mk.injEq, Option.some.injEq, Prod.mk.injEq] at hrecorded
      obtain ⟨-, -, -, htype, htime⟩ := hrecorded
      have hstate : ev.targetState = ev'.targetState := by
        rw [CanonicalEntityEvent.targetState, CanonicalEntityEvent.targetState, eventTypeValue_inj htype]
      have hid : ev.eventId = ev'.eventId := hid
      have hamount : DetailOf.amount? ev.detail = DetailOf.amount? ev'.detail := hamount
      rw [CanonicalEvent.effect, CanonicalEvent.effect, hkey, hid, hstate, htime, hamount]

/-- **Events of one effect keep the books the same.** -/
theorem SameLedgers.applyEvent {s s' : Store} (hs : Sound s) (hs' : Sound s') (h : SameLedgers s s')
    {event event' : CanonicalEvent} (he : event.effect = event'.effect) :
    SameLedgers (applyEvent event s).2 (applyEvent event' s').2 := by
  cases event with
  | unclassified ev =>
    cases event' with
    | unclassified ev' => exact h
    | entity k' ev' => cases he
  | entity k ev =>
    cases event' with
    | unclassified ev' => cases he
    | entity k' ev' =>
      have hkey : ev'.key = ev.key := congrArg Effect.key (Option.some.inj he).symm
      obtain rfl : k' = k := congrArg EntityKey.entityType hkey
      intro key
      rw [ledger_applyEvent hs, ledger_applyEvent hs']
      by_cases hmine : ev.key = key
      · subst hmine
        have habout : (CanonicalEvent.entity k' ev').about ev.key = some ev' := about_eq_some hkey
        have halike := alike_of_effect he
        rw [CanonicalEvent.entry, CanonicalEvent.entry, CanonicalEvent.about_self, habout]
        simp only [Option.filter_some, fits_of_effect he]
        split
        · exact (h ev.key).run (.cons halike .nil)
        · exact h ev.key
      · rw [CanonicalEvent.entry_of_ne hmine, CanonicalEvent.entry_of_ne (hkey ▸ hmine)]
        exact h key

/-! ### Passes -/

/-- One `process_event` call of a pass. -/
structure Work where
  eventId : EventId
  day : Nat
  answers : List (Except PyError LLMResult)

def Work.action (work : Work) : Action := .process work.eventId work.day work.answers

/-- The transaction of `truncate`. -/
def truncate (w : World) : World := (Op.truncate.handle w).2

/-- There are no projections, and nothing was applied. -/
def Emptied (s : Store) : Prop := ∃ n, s = { Store.empty with entitiesSeq := n }

theorem emptied_truncate (w : World) : Emptied (truncate w).db.store := ⟨_, rfl⟩

theorem Emptied.sound {s : Store} (h : Emptied s) : Sound s := by
  obtain ⟨n, rfl⟩ := h
  exact sound_emptied n

theorem sameLedgers_of_emptied {s s' : Store} (h : Emptied s) (h' : Emptied s') : SameLedgers s s' := by
  have hledger : ∀ {s : Store}, Emptied s → ∀ key, s.ledger key = .empty := by
    rintro _ ⟨n, rfl⟩ key
    exact Store.ledger_of_none rfl
  intro key
  rw [hledger h, hledger h']
  exact .refl _ _

section Passes
variable (env : Externals) (dtparse : Nat → String → Bool → Except PyError ParsedDateTime) (settings : Settings)

/-- A step of a pass. -/
def Work.serve (w : World) (work : Work) : World := serveOn env dtparse settings w work.action

/-- A pass over raw events. -/
def pass (w : World) (works : List Work) : World := works.foldl (Work.serve env dtparse settings) w

/-- What a step of a pass is told of its event. -/
def Work.Told (w : World) (work : Work) (account : Account) : Prop :=
  ∃ row, w.db.rawEvents.lookup work.eventId = some row ∧
    Tells (env.on dtparse work.day) settings (w.facing work.day work.answers) row.payload work.eventId
      (resolveVendorId (env.on dtparse work.day).toUnicode row) account

/-- **Two steps are told the same**: the same accounts of an entity's event, or none by either. -/
def SameTold (w w' : World) (work work' : Work) : Prop :=
  ∀ account, account.entity.isSome →
    (work.Told env dtparse settings w account ↔ work'.Told env dtparse settings w' account)

variable {env dtparse settings} {w : World}

/-- An event of an unknown shape is told by what the provider says of it. -/
theorem Work.told_of_says {env' : Externals} {work : Work} {row : RawEvent} {vendorId : String} {result : LLMResult}
    {data : JsonObject} {cached : CacheEntry} {event normalized : CanonicalEvent}
    (henv : env.on dtparse work.day = env') (hrow : w.db.rawEvents.lookup work.eventId = some row)
    (hvendor : resolveVendorId env'.toUnicode row = vendorId)
    (hlookup : lookupSchema w.db.vendorSchemas vendorId (structuralFingerprint env' (.obj row.payload) []) = none)
    (hmiss : w.db.llmCache.lookup (extractCacheKey env' settings vendorId row.payload) = none)
    (hallowed : (Job.run (allow settings vendorId (1 / 1000)) (w.facing work.day work.answers)).1 = .ok true)
    (hsaid : Says env' work.answers result data) (hcached : CacheEntry.toRow ⟨data, result.costEstimate⟩ = .ok cached)
    (hbuild : buildCanonical env' work.eventId data .llm = .ok event)
    (hnormalize : normalize (overrideVendor vendorId event) = .ok normalized) :
    work.Told env dtparse settings w normalized.account := by
  subst henv hvendor
  have hsure : Sure (env.on dtparse work.day) settings (w.facing work.day work.answers) row.payload work.eventId _
      event := .llm (.unknown hlookup) (.asked hmiss hallowed hsaid hcached) hbuild
  exact ⟨row, hrow, tells_iff.mpr ⟨event, normalized, hsure, hnormalize, rfl⟩⟩

/-- An event of a known shape is told by what is stored of it. -/
theorem Work.told_of_reads {env' : Externals} {work : Work} {row : RawEvent} {vendorId : String}
    {schemaMatch : SchemaMatch} {canonical normalized : CanonicalEvent} (henv : env.on dtparse work.day = env')
    (hrow : w.db.rawEvents.lookup work.eventId = some row) (hvendor : resolveVendorId env'.toUnicode row = vendorId)
    (hlookup : lookupSchema w.db.vendorSchemas vendorId (structuralFingerprint env' (.obj row.payload) []) =
      some schemaMatch)
    (hreads : Reads env' row.payload work.eventId vendorId schemaMatch.schemaDoc (Stored w.db vendorId) canonical)
    (hnormalize : normalize (overrideVendor vendorId canonical) = .ok normalized) :
    work.Told env dtparse settings w normalized.account := by
  subst henv hvendor
  exact ⟨row, hrow, tells_of_reads (w := w.facing work.day work.answers) hlookup hreads hnormalize⟩

/-- A step is told one account at most. -/
theorem Work.Told.unique {work : Work} {account account' : Account} (h : work.Told env dtparse settings w account)
    (h' : work.Told env dtparse settings w account') : account = account' := by
  obtain ⟨row, hrow, htells⟩ := h
  obtain ⟨row', hrow', htells'⟩ := h'
  cases hrow.symm.trans hrow'
  exact htells.unique htells'

/-- Steps that are told one account are told the same. -/
theorem sameTold_of_told {w' : World} {work work' : Work} {account : Account}
    (h : work.Told env dtparse settings w account) (h' : work'.Told env dtparse settings w' account) :
    SameTold env dtparse settings w w' work work' := by
  intro account' _
  constructor
  · intro htold
    rw [htold.unique h]
    exact h'
  · intro htold
    rw [htold.unique h']
    exact h

/-- **What a step is told, it applies.** -/
theorem Work.Told.store {work : Work} {account : Account} (h : work.Told env dtparse settings w account) :
    ∃ normalized, normalized.account = account ∧ normalized.base.eventId = work.eventId ∧
      (work.serve env dtparse settings w).db.store = (applyEvent normalized w.db.store).2 := by
  obtain ⟨row, hrow, htells⟩ := h
  obtain ⟨normalized, hid, hfinal, haccount⟩ :=
    processEvent_told (w := w.facing work.day work.answers) hrow htells
  exact ⟨normalized, haccount, hid, hfinal.store⟩

/-- A step that is told of no entity leaves the rows. -/
theorem store_of_untold {work : Work}
    (h : ∀ account, account.entity.isSome → ¬ work.Told env dtparse settings w account) :
    (work.serve env dtparse settings w).db.store = w.db.store := by
  cases hrow : w.db.rawEvents.lookup work.eventId with
  | none =>
    rw [Work.serve, Work.action, serveOn, serve, serve_process_none _ settings hrow]
    rfl
  | some row =>
    by_cases htold : ∃ account, work.Told env dtparse settings w account
    · obtain ⟨account, htold⟩ := htold
      obtain ⟨normalized, rfl, -, hstore⟩ := htold.store
      cases normalized with
      | unclassified ev => exact hstore
      | entity k ev => exact absurd htold (h _ rfl)
    · have hidle : Idle (w.facing work.day work.answers) _ _ :=
        processEvent_untold hrow fun account htells => htold ⟨account, row, hrow, htells⟩
      exact hidle.store

/-- **Steps that are told the same keep the books the same.** -/
theorem SameTold.sameLedgers {w' : World} {work work' : Work} (hs : Sound w.db.store) (hs' : Sound w'.db.store)
    (h : SameLedgers w.db.store w'.db.store) (hid : work'.eventId = work.eventId)
    (htold : SameTold env dtparse settings w w' work work') :
    SameLedgers (work.serve env dtparse settings w).db.store (work'.serve env dtparse settings w').db.store := by
  by_cases hentity : ∃ account, account.entity.isSome ∧ work.Told env dtparse settings w account
  · obtain ⟨account, hsome, hfirst⟩ := hentity
    have hsecond := (htold account hsome).mp hfirst
    obtain ⟨normalized, haccount, heventId, hstore⟩ := hfirst.store
    obtain ⟨normalized', haccount', heventId', hstore'⟩ := hsecond.store
    rw [hstore, hstore']
    refine h.applyEvent hs hs' (effect_eq_of_account (haccount.trans haccount'.symm) ?_)
    rw [heventId, heventId', hid]
  · -- neither step is told of an entity
    have hfirst (account : Account) (hsome : account.entity.isSome) : ¬ work.Told env dtparse settings w account :=
      fun h => hentity ⟨account, hsome, h⟩
    rw [store_of_untold hfirst, store_of_untold fun account hsome hsecond =>
      hfirst account hsome ((htold account hsome).mpr hsecond)]
    exact h

theorem sound_serveWork (hs : Sound w.db.store) (work : Work) : Sound (work.serve env dtparse settings w).db.store :=
  sound_serve (env.on dtparse work.day) settings hs _

/-- **Passes that are told the same keep the books the same.** -/
theorem sameLedgers_pass {w w' : World} (hs : Sound w.db.store) (hs' : Sound w'.db.store)
    (h : SameLedgers w.db.store w'.db.store) {first second : List Work}
    (hsame : second.map Work.eventId = first.map Work.eventId)
    (htold : Along (fun ws works => (Work.serve env dtparse settings ws.1 works.1,
        Work.serve env dtparse settings ws.2 works.2))
      (fun ws works => SameTold env dtparse settings ws.1 ws.2 works.1 works.2) (w, w') (first.zip second)) :
    Sound (pass env dtparse settings w first).db.store ∧ Sound (pass env dtparse settings w' second).db.store ∧
      SameLedgers (pass env dtparse settings w first).db.store (pass env dtparse settings w' second).db.store := by
  induction first generalizing second w w' with
  | nil =>
    obtain rfl := List.map_eq_nil_iff.mp hsame
    exact ⟨hs, hs', h⟩
  | cons work first ih =>
    obtain ⟨work', second, rfl, hid, hrest⟩ := List.map_eq_cons_iff.mp hsame
    obtain ⟨hstep, hafter⟩ := htold
    exact ih (sound_serveWork hs work) (sound_serveWork hs' work') (hstep.sameLedgers hs hs' h hid) hrest hafter

/-- **A replay rebuilds the projections**, where each of its steps is told of its entity what the
first pass was told. -/
theorem replay_reproduces {w : World} (hempty : Emptied w.db.store) {first second : List Work}
    (hsame : second.map Work.eventId = first.map Work.eventId)
    (htold : Along (fun ws works => (Work.serve env dtparse settings ws.1 works.1,
        Work.serve env dtparse settings ws.2 works.2))
      (fun ws works => SameTold env dtparse settings ws.1 ws.2 works.1 works.2)
      (w, truncate (pass env dtparse settings w first)) (first.zip second)) :
    SameRows (pass env dtparse settings w first).db.store
      (pass env dtparse settings (truncate (pass env dtparse settings w first)) second).db.store := by
  have hemptied := emptied_truncate (pass env dtparse settings w first)
  obtain ⟨hs, hs', hbooks⟩ := sameLedgers_pass hempty.sound hemptied.sound
    (sameLedgers_of_emptied hempty hemptied) hsame htold
  exact hbooks.sameRows hs.consistent hs'.consistent

end Passes

/-! ### An invoice replayed -/

/-- The worker on the invoice, with the LLM's answer. -/
def issuedWork (createdAt : String) : Work :=
  ⟨issuedId "INV-1" createdAt, 1, [.ok (issuedResult ["issued"])]⟩

/-- The worker on the invoice once more, when there is nothing left to ask. -/
def issuedWorkAgain (createdAt : String) : Work := ⟨issuedId "INV-1" createdAt, 2, []⟩

/-- The invoice has come in at its vendor's URL. -/
def issuedReceived (createdAt : String) : World :=
  run april28Runtime .defaults [.receive (some globalfreightpayPath) (issuedRequest "INV-1" createdAt) none]

theorem emptied_issuedReceived (createdAt : String) : Emptied (issuedReceived createdAt).db.store := by
  refine ⟨1, ?_⟩
  rcases serve_receive april28Runtime .defaults World.start (some globalfreightpayPath)
    (issuedRequest "INV-1" createdAt) none with ⟨hdb, -⟩ | ⟨payload, signatureVerified, -, -, hdb, -⟩
  · rw [issuedReceived, run, List.foldl_cons, List.foldl_nil, hdb]
    rfl
  · rw [issuedReceived, run, List.foldl_cons, List.foldl_nil, hdb]
    rfl

theorem pass_issuedWork {createdAt : String}
    (h : IssuedRun .defaults (some globalfreightpayPath) (issuedRequest "INV-1" createdAt) createdAt
      (issuedWorld (some "globalfreightpay") false createdAt)) :
    pass april28Runtime april28Days .defaults (issuedReceived createdAt) [issuedWork createdAt] =
      issuedWorld (some "globalfreightpay") false createdAt := by
  rw [pass, List.foldl_cons, List.foldl_nil, Work.serve, serveOn_april28Days]
  exact h.serve_eq

/-- The invoice that was created before it was issued is replayed at another time: its row says
that it was last changed when it was created. -/
theorem replay_may_differ :
    let w := pass april28Runtime april28Days .defaults (issuedReceived "2026-04-28T01:00:00Z")
      [issuedWork "2026-04-28T01:00:00Z"]
    ¬ SameRows w.db.store (pass april28Runtime april28Days .defaults (truncate w)
      [issuedWorkAgain "2026-04-28T01:00:00Z"]).db.store := by
  intro w h
  have hworld : w = issuedWorld (some "globalfreightpay") false "2026-04-28T01:00:00Z" :=
    pass_issuedWork issuedRun_after_created
  have hrows := h .invoice
  rw [hworld] at hrows
  have hsame := List.perm_singleton.mp hrows.symm
  revert hsame
  decide +kernel

/-- What the LLM tells of the invoice. -/
def issuedAccount : Account :=
  ⟨issuedRecord 5, (issuedEvent (issuedId "INV-1" "2026-04-28T05:00:00Z") .llm 1 5).detail.amount?⟩

/-- The LLM's answer is what the first step is told. -/
theorem told_issuedWork : (issuedWork "2026-04-28T05:00:00Z").Told april28Runtime april28Days .defaults
    (issuedReceived "2026-04-28T05:00:00Z") issuedAccount := by
  let row : RawEvent :=
    ⟨some "globalfreightpay", issuedPayload "INV-1" "2026-04-28T05:00:00Z", [], false, .queued, none⟩
  have hrow : (issuedReceived "2026-04-28T05:00:00Z").db.rawEvents.lookup
      (issuedId "INV-1" "2026-04-28T05:00:00Z") = some row := by decide +kernel
  have hvendor : resolveVendorId april28Runtime.toUnicode row = "globalfreightpay" := by decide +kernel
  let event : CanonicalEvent := .entity .invoice (issuedEvent (issuedId "INV-1" "2026-04-28T05:00:00Z") .llm 1 5)
  have hlookup : lookupSchema (issuedReceived "2026-04-28T05:00:00Z").db.vendorSchemas "globalfreightpay"
      (structuralFingerprint april28Runtime (.obj row.payload) []) = none := by decide +kernel
  have hmiss : (issuedReceived "2026-04-28T05:00:00Z").db.llmCache.lookup
      (extractCacheKey april28Runtime .defaults "globalfreightpay" row.payload) = none := by decide +kernel
  have hallowed : (Job.run (allow .defaults "globalfreightpay" (1 / 1000))
      ((issuedReceived "2026-04-28T05:00:00Z").facing 1 [.ok (issuedResult ["issued"])])).1 = .ok true := by
    decide +kernel
  have hsaid : Says april28Runtime [.ok (issuedResult ["issued"])] (issuedResult ["issued"])
      (issuedAnswer ["issued"]) := .first (by decide +kernel)
  have hstored : CacheEntry.toRow ⟨issuedAnswer ["issued"], (issuedResult ["issued"]).costEstimate⟩ =
      .ok ⟨issuedAnswer ["issued"], 1 / 1000⟩ := by decide +kernel
  have hbuild : buildCanonical april28Runtime (issuedId "INV-1" "2026-04-28T05:00:00Z") (issuedAnswer ["issued"])
      .llm = .ok event := by decide +kernel
  have hnormalize : normalize (overrideVendor "globalfreightpay" event) = .ok event := by decide +kernel
  have haccount : event.account = issuedAccount := by decide +kernel
  rw [← haccount]
  exact Work.told_of_says (on_april28Days _) hrow hvendor hlookup hmiss hallowed hsaid hstored hbuild hnormalize

/-- The learned schema tells the replay the same. -/
theorem told_issuedWorkAgain : (issuedWorkAgain "2026-04-28T05:00:00Z").Told april28Runtime april28Days .defaults
    (truncate (issuedWorld (some "globalfreightpay") false "2026-04-28T05:00:00Z")) issuedAccount := by
  let row : RawEvent :=
    ⟨some "globalfreightpay", issuedPayload "INV-1" "2026-04-28T05:00:00Z", [], false, .queued, none⟩
  have hrow : (truncate (issuedWorld (some "globalfreightpay") false
      "2026-04-28T05:00:00Z")).db.rawEvents.lookup (issuedId "INV-1" "2026-04-28T05:00:00Z") = some row := by
    decide +kernel
  have hvendor : resolveVendorId april28Runtime.toUnicode row = "globalfreightpay" := by decide +kernel
  have haccount : CanonicalEvent.account issuedReading = issuedAccount := by decide +kernel
  rw [← haccount]
  exact Work.told_of_reads (on_april28Days _) hrow hvendor lookupSchema_issued reads_issued normalize_issued

/-- Where the invoice was created as it was issued, a replay rebuilds its row. -/
theorem issued_when_created_replayed :
    let w := pass april28Runtime april28Days .defaults (issuedReceived "2026-04-28T05:00:00Z")
      [issuedWork "2026-04-28T05:00:00Z"]
    SameRows w.db.store (pass april28Runtime april28Days .defaults (truncate w)
      [issuedWorkAgain "2026-04-28T05:00:00Z"]).db.store := by
  have hids : [issuedWorkAgain "2026-04-28T05:00:00Z"].map Work.eventId =
      [issuedWork "2026-04-28T05:00:00Z"].map Work.eventId := rfl
  have htold : SameTold april28Runtime april28Days .defaults (issuedReceived "2026-04-28T05:00:00Z")
      (truncate (issuedWorld (some "globalfreightpay") false "2026-04-28T05:00:00Z"))
      (issuedWork "2026-04-28T05:00:00Z") (issuedWorkAgain "2026-04-28T05:00:00Z") :=
    sameTold_of_told told_issuedWork told_issuedWorkAgain
  rw [← pass_issuedWork issuedRun_when_created] at htold
  refine replay_reproduces (emptied_issuedReceived _) hids ⟨?_, trivial⟩
  dsimp only
  exact htold

end WebhookIngestion
