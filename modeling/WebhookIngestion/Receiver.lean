import WebhookIngestion.Fallback

/-! # The webhook receiver

The hot path: a request is checked, its payload gets a content-addressed event id, and
its row is inserted unless it is there.  The signature is checked here, against the
secret of the vendor in the URL; the vendor an event is applied under is settled later,
by the worker. -/
namespace WebhookIngestion
open Text Programs

/-- A request; the names of its headers are in lower case. -/
structure Request where
  body : Bytes
  headers : List (String × String)

/-- `request.headers.get(name)`. -/
def Request.header (request : Request) (name : String) : Option String :=
  request.headers.lookup (String.ofList (lower name.toList))

/-- The `{vendor_id}` of a URL, which the router never finds empty. -/
structure VendorPath where
  text : String
  nonempty : text ≠ ""

/-- What a delivery is answered with. -/
structure Ingested where
  eventId : EventId
  deduplicated : Bool
  deriving DecidableEq

/-- `_safe_str`; a `bool` is an `int`. -/
def safeStr (u : Unicode) : Json → Option String
  | .str s => some s
  | .int n => some ((Json.int n).text u)
  | .bool b => some ((Json.bool b).text u)
  | _ => none

/-- `a or b or …`, on optional strings. -/
def firstTruthy : List (Option String) → Option String
  | [] => none
  | [value] => value
  | value :: values => if value.getD "" = "" then firstTruthy values else value

/-- `vendor_event_id`. -/
def vendorEventId (u : Unicode) (request : Request) (payload : JsonObject) : Option String :=
  firstTruthy (request.header "X-Event-Id" ::
    ["event_msg_id", "event_id", "doc_ref", "advisory_id"].map fun key => safeStr u (payload.get key))

/-- `hmac.compare_digest` of two strings, which must be ASCII. -/
def compareDigest (a b : Chars) : Except PyError Bool :=
  if a.all isAscii && b.all isAscii then .ok (a = b) else .error .typeError

/-- The digest in a signature header, with or without its `sha256=`. -/
def suppliedDigest (supplied : String) : Chars :=
  let stripped := stripWhere isSpace supplied.toList
  if "sha256=".toList.isPrefixOf (lower stripped) then stripped.drop 7 else stripped

section
variable (env : Externals) (settings : Settings)

/-- `_verify_signature`. -/
def verifySignature (request : Request) (vendorHint : Option String) : Except PyError Bool :=
  let hint := vendorHint.getD ""
  if hint = "" then .ok false
  else
    let secret := (settings.webhookVendorSecrets.lookup hint).getD ""
    if secret = "" then .ok false
    else
      let supplied := (request.header settings.webhookSignatureHeader).getD ""
      if supplied = "" then
        if settings.webhookSignatureEnforce then .error (.httpException 401 "missing signature")
        else .ok false
      else do
        let expected := (env.hmacSha256 secret request.body).text
        let ok ← compareDigest (lower (suppliedDigest supplied)) (lower expected.toList)
        if !ok && settings.webhookSignatureEnforce then
          throw (.httpException 401 "invalid signature")
        return ok

/-- The headers that are stored; of equal names a dictionary keeps the last. -/
def storedHeaders : List (String × String) → List (String × String)
  | [] => []
  | (name, value) :: headers =>
    let kept := ["content-type", "user-agent", "x-event-id", "x-request-id", "x-forwarded-for"]
    if name ∈ kept ∧ (headers.lookup name).isNone then (name, value) :: storedHeaders headers
    else storedHeaders headers

/-- The payload of a request, if it is acceptable. -/
def readPayload (request : Request) : Except PyError JsonObject :=
  if request.body = [] then .error (.httpException 400 "empty body")
  else if settings.receiverMaxPayloadBytes < request.body.length then
    .error (.httpException 413 "payload too large")
  else
    match env.loadsBytes request.body with
    | none => .error (.httpException 400 "invalid json")
    | some (.obj payload) => .ok payload
    | some _ => .error (.httpException 400 "json object required")

/-- `_ingest`. -/
def ingest (vendorHint : Option String) (request : Request) : Job Ingested := do
  let payload ← .ofExcept (readPayload env settings request)
  let eventId := computeEventId env (.obj payload) (vendorEventId env.toUnicode request payload)
  let signatureVerified ← .ofExcept (verifySignature env settings request vendorHint)
  let headers := storedHeaders request.headers
  match ← .perform (Op.insertRawEvent eventId vendorHint payload headers signatureVerified) with
  | some inserted =>
    .perform (Op.note (.accepted inserted vendorHint))
    .perform (Op.enqueue eventId)
    return ⟨eventId, false⟩
  | none => return ⟨eventId, true⟩

/-- `receive_any` and `receive_vendor`. -/
def receive (vendorId : Option VendorPath) (request : Request) : Job Ingested :=
  ingest env settings (vendorId.map VendorPath.text) request

/-! ### What a delivery does -/

/-- **Where signatures are enforced, a vendor with a secret accepts no others.** -/
theorem verified_of_enforced {request : Request} {vendorId secret : String} {ok : Bool}
    (hsecret : settings.webhookVendorSecrets.lookup vendorId = some secret) (hvendor : vendorId ≠ "")
    (hnonempty : secret ≠ "") (henforce : settings.webhookSignatureEnforce = true)
    (h : verifySignature env settings request (some vendorId) = .ok ok) : ok = true := by
  simp only [verifySignature, Option.getD_some, if_neg hvendor, hsecret, if_neg hnonempty,
    henforce, Bool.and_true, if_true] at h
  split at h
  · cases h
  · obtain ⟨same, -, h⟩ := bind_eq_ok.mp h
    cases same with
    | true => exact (Except.ok.inj h).symm
    | false => cases h

/-- What becomes of the job of an event whose row is in, and of the request. -/
inductive Queues (eventId : EventId) (w : World) : Except PyError Ingested → World → Prop
  | enqueued (hqueue : w.queueError = none) :
      Queues eventId w (.ok ⟨eventId, false⟩) { w with trace := .enqueued eventId :: w.trace }
  | failed {e : PyError} (hqueue : w.queueError = some e) : Queues eventId w (.error e) w

/-- **What a delivery does, and how it is answered**: it is refused, or its event is there
already, or it inserts the event, and puts its job into the queue unless that is down. -/
inductive Ingests (vendorHint : Option String) (request : Request) (w : World) :
    Except PyError Ingested → World → Prop
  | refused (e : PyError) : Ingests vendorHint request w (.error e) w
  | repeated {eventId : EventId} {row : RawEvent} (hrow : w.db.rawEvents.lookup eventId = some row) :
      Ingests vendorHint request w (.ok ⟨eventId, true⟩) w
  | inserted {eventId : EventId} {payload : JsonObject} {signatureVerified : Bool} {r : Except PyError Ingested}
      {w' : World}
      (hid : eventId = computeEventId env (.obj payload) (vendorEventId env.toUnicode request payload))
      (hverify : verifySignature env settings request vendorHint = .ok signatureVerified)
      (hnew : w.db.rawEvents.lookup eventId = none)
      (hqueues : Queues eventId
        { w with
          db := w.db.insertRawEvent eventId vendorHint payload (storedHeaders request.headers) signatureVerified
          trace := .accepted eventId vendorHint :: w.trace } r w') :
      Ingests vendorHint request w r w'

theorem queues_enqueue (eventId : EventId) (w : World) :
    Queues eventId w
      (Program.run Op.handle (.perform (Op.enqueue eventId) >>= fun _ => .ret ⟨eventId, false⟩ : Job Ingested) w).1
      (Program.run Op.handle
        (.perform (Op.enqueue eventId) >>= fun _ => .ret ⟨eventId, false⟩ : Job Ingested) w).2 := by
  have hanswer : (Op.enqueue eventId).handle w = (.ok (), { w with trace := .enqueued eventId :: w.trace }) ∧
      w.queueError = none ∨ ∃ e, (Op.enqueue eventId).handle w = (.error e, w) ∧ w.queueError = some e := by
    rw [Op.handle]
    split
    · next hqueue => exact .inl ⟨rfl, hqueue⟩
    · next e hqueue => exact .inr ⟨e, rfl, hqueue⟩
  rcases hanswer with ⟨hhandle, hqueue⟩ | ⟨e, hhandle, hqueue⟩
  · rw [Program.run_perform_bind Op.handle hhandle]
    exact .enqueued hqueue
  · rw [Program.run_perform_error Op.handle hhandle]
    exact .failed hqueue

theorem ingest_ingests (vendorHint : Option String) (request : Request) (w : World) :
    Ingests env settings vendorHint request w (Job.run (ingest env settings vendorHint request) w).1
      (Job.run (ingest env settings vendorHint request) w).2 := by
  rw [Job.run, ingest]
  cases readPayload env settings request with
  | error e => exact .refused e
  | ok payload =>
    rw [Program.ofExcept, Program.ret_bind]
    cases hverify : verifySignature env settings request vendorHint with
    | error e => exact .refused e
    | ok signatureVerified =>
      rw [Program.ofExcept, Program.ret_bind]
      cases hrow : w.db.rawEvents.lookup
          (computeEventId env (.obj payload) (vendorEventId env.toUnicode request payload)) with
      | some row =>
        rw [Program.run_perform_bind Op.handle (by rw [Op.handle, hrow])]
        exact .repeated hrow
      | none =>
        rw [Program.run_perform_bind Op.handle (by rw [Op.handle, hrow])]
        refine .inserted rfl hverify hrow ?_
        simp only []
        rw [Program.run_perform_bind Op.handle rfl]
        exact queues_enqueue _ _

/-- The trace of a delivery that inserted its event. -/
def Accepted (eventId : EventId) (vendorHint : Option String) (w w' : World) : Prop :=
  w'.db = w.db ∧ (w'.trace = .accepted eventId vendorHint :: w.trace ∨
    w'.trace = .enqueued eventId :: .accepted eventId vendorHint :: w.trace)

/-- **A delivery inserts its event or changes nothing**: an event id is taken by the first
delivery that has it. -/
theorem ingest_cases (vendorHint : Option String) (request : Request) (w : World) :
    let w' := (Job.run (ingest env settings vendorHint request) w).2
    w' = w ∨ ∃ payload signatureVerified,
      let eventId := computeEventId env (.obj payload) (vendorEventId env.toUnicode request payload)
      verifySignature env settings request vendorHint = .ok signatureVerified ∧
        w.db.rawEvents.lookup eventId = none ∧
        Accepted eventId vendorHint { w with
          db := w.db.insertRawEvent eventId vendorHint payload (storedHeaders request.headers)
            signatureVerified } w' := by
  have hingests := ingest_ingests env settings vendorHint request w
  generalize Job.run (ingest env settings vendorHint request) w = step at hingests
  obtain ⟨r, w'⟩ := step
  cases hingests with
  | refused => exact .inl rfl
  | repeated hrow => exact .inl rfl
  | @inserted eventId payload signatureVerified _ _ hid hverify hnew hqueues =>
    subst hid
    refine .inr ⟨payload, signatureVerified, hverify, hnew, ?_⟩
    cases hqueues with
    | enqueued hqueue => exact ⟨rfl, .inr rfl⟩
    | failed hqueue => exact ⟨rfl, .inl rfl⟩

end

end WebhookIngestion
