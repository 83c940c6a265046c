import WebhookIngestion.FallbackRuns

/-! # What is hashed into keys

Two deliveries share an event id just when they are the same delivery.  Two questions to
the LLM share a cache key just when they are the same question, but for the questions
about event types: nothing keeps a vendor's name and the raw type behind it apart if both
have the separator in them. -/
namespace WebhookIngestion
open Text Delimited

/-! ### Parts with separators -/

/-- The separator as a character. -/
def sepChar : Char := Char.ofNat 0x1f

theorem encode_sep : encode (String.ofList [sepChar]) = [recordSep] := by decide

theorem encode_cons_sep (s t : Chars) :
    encode (String.ofList s) ++ recordSep :: encode (String.ofList t) = encode (String.ofList (s ++ sepChar :: t)) := by
  have hsplit :
      String.ofList (s ++ sepChar :: t) = String.ofList s ++ (String.ofList [sepChar] ++ String.ofList t) := by
    simp
  rw [hsplit, encode_append, encode_append, encode_sep]
  rfl

/-- A value that is there, an empty one counting as absent. -/
def present (value : Option String) : Option String := value.filter (· ≠ "")

/-- What an optional last part adds to the characters. -/
def optionalChars (value : Option String) : Chars :=
  match present value with
  | some value => sepChar :: value.toList
  | none => []

theorem stops_optionalChars (value : Option String) : Stops isNumberChar (optionalChars value) := by
  rw [optionalChars]
  cases present value with
  | none => exact .nil
  | some s => exact .cons (by decide) _

theorem optionalChars_inj {value value' : Option String} :
    optionalChars value = optionalChars value' ↔ present value = present value' := by
  rw [optionalChars, optionalChars]
  constructor
  · intro h
    cases hs : present value with
    | none =>
      cases ht : present value' with
      | none => rfl
      | some t =>
        rw [hs, ht] at h
        cases h
    | some s =>
      cases ht : present value' with
      | none =>
        rw [hs, ht] at h
        cases h
      | some t =>
        rw [hs, ht] at h
        rw [String.toList_inj.mp (List.cons.inj h).2]
  · intro h
    rw [h]

theorem present_some (t : String) : present (some t) = if t = "" then none else some t := by
  by_cases ht : t = "" <;> simp [present, Option.filter, ht]

/-- A text with an optional part behind it. -/
theorem joinBytes_optionalPart (s : Chars) (value : Option String) :
    joinBytes recordSep (encode (String.ofList s) :: optionalPart value) =
      encode (String.ofList (s ++ optionalChars value)) := by
  cases value with
  | none => simp [optionalPart, optionalChars, present, joinBytes]
  | some t =>
    by_cases ht : t = ""
    · simp [optionalPart, optionalChars, present_some, joinBytes, ht]
    · have hpart : optionalPart (some t) = [encode (String.ofList t.toList)] := by
        simp [optionalPart, ht]
      have hchars : optionalChars (some t) = sepChar :: t.toList := by
        simp [optionalChars, present_some, ht]
      rw [hpart, hchars, joinBytes, joinBytes]
      · exact encode_cons_sep s t.toList
      · exact List.cons_ne_nil _ _

/-! ### Event ids -/

section
variable (env : Externals)

/-- What an event id is the digest of. -/
def eventIdBytes (payload : Json) (vendorEventId : Option String) : Bytes :=
  joinBytes recordSep (canonicalJson env payload :: optionalPart vendorEventId)

example (payload : Json) (vendorEventId : Option String) :
    computeEventId env payload vendorEventId = (env.sha256 (eventIdBytes env payload vendorEventId)).text := rfl

variable {env} {number : Json → Chars}

theorem eventIdBytes_eq (h : PrintsJson number env) {payload : Json} (hparsed : payload.parsed = true)
    (vendorEventId : Option String) :
    eventIdBytes env payload vendorEventId =
      encode (String.ofList (jsonText number payload ++ optionalChars vendorEventId)) := by
  rw [eventIdBytes, canonicalJson, h.dumps payload hparsed, joinBytes_optionalPart]

/-- **Deliveries are hashed alike just when they are equal**: payloads up to the order of
keys, and vendor event ids, an empty one counting as absent. -/
theorem eventIdBytes_eq_iff (h : PrintsJson number env) {p q : JsonObject} (hp : (Json.obj p).parsed = true)
    (hq : (Json.obj q).parsed = true) (v w : Option String) :
    eventIdBytes env (.obj p) v = eventIdBytes env (.obj q) w ↔
      (Json.obj p).Reordered (.obj q) ∧ v.filter (· ≠ "") = w.filter (· ≠ "") := by
  rw [eventIdBytes_eq h hp, eventIdBytes_eq h hq, encode_inj]
  constructor
  · intro heq
    obtain ⟨htext, hoptional⟩ := readsOff_jsonText h hp hq _ _ (stops_optionalChars v) (stops_optionalChars w)
      (String.ofList_injective heq)
    exact ⟨reordered_of_jsonText h hp hq htext, optionalChars_inj.mp hoptional⟩
  · rintro ⟨hreordered, hpresent⟩
    rw [jsonText_of_reordered hreordered, optionalChars_inj.mpr hpresent]

end

/-! ### A printer -/

/-- A sign and digits. -/
def numeral (negative : Bool) (digits : Nat) : Chars :=
  (if negative then ['-'] else []) ++ Nat.toDigits 10 digits

/-- A text for each number: decimal for integers, digits and exponent for floats. -/
def printNumber : Json → Chars
  | .int n => numeral (n < 0) n.natAbs
  | .float (.finite negative digits exponent) =>
    numeral negative digits ++ 'e' :: numeral (exponent < 0) exponent.natAbs
  | _ => []

/-- The libraries with a printer. -/
def Externals.printing (env : Externals) : Externals :=
  { env with dumps := fun x => encode (String.ofList (jsonText printNumber x)) }

theorem numeral_inj {negative negative' : Bool} {digits digits' : Nat} {rest rest' : Chars}
    (hrest : Stops isAsciiDigit rest) (hrest' : Stops isAsciiDigit rest')
    (h : numeral negative digits ++ rest = numeral negative' digits' ++ rest') :
    negative = negative' ∧ digits = digits' ∧ rest = rest' := by
  have hdigits {n : Nat} : ∀ c ∈ Nat.toDigits 10 n, isAsciiDigit c = true := fun _ => isAsciiDigit_of_mem_toDigits
  have hhead {n : Nat} {s t : Chars} (heq : '-' :: s = Nat.toDigits 10 n ++ t) : False := by
    obtain ⟨c, cs, hcs⟩ := List.exists_cons_of_ne_nil (Nat.toDigits_ne_nil (n := n) (b := 10))
    rw [hcs] at heq
    have hc := hdigits (n := n) c (hcs ▸ List.mem_cons_self)
    rw [← (List.cons.inj heq).1] at hc
    exact absurd hc (by decide)
  have hsame {n m : Nat} (heq : Nat.toDigits 10 n ++ rest = Nat.toDigits 10 m ++ rest') : n = m ∧ rest = rest' := by
    obtain ⟨hnm, hrests⟩ := append_inj hdigits hdigits hrest hrest' heq
    refine ⟨?_, hrests⟩
    rw [← Nat.ofDigitChars_ten_toDigits (n := n), hnm, Nat.ofDigitChars_ten_toDigits]
  cases negative <;> cases negative' <;>
    simp only [numeral, Bool.false_eq_true, if_false, if_true, List.nil_append, List.cons_append] at h
  · exact ⟨rfl, hsame h⟩
  · exact (hhead h.symm).elim
  · exact (hhead h).elim
  · exact ⟨rfl, hsame (List.cons.inj h).2⟩

theorem numeral_chars (negative : Bool) (digits : Nat) : ∀ c ∈ numeral negative digits, isNumberChar c = true := by
  intro c hc
  rcases List.mem_append.mp hc with hsign | hdigit
  · cases negative
    · cases hsign
    · rw [List.mem_singleton.mp hsign]
      decide
  · rw [isNumberChar, isAsciiDigit_of_mem_toDigits hdigit]
    rfl

theorem int_of_sign {n m : Int} (hsign : decide (n < 0) = decide (m < 0)) (habs : n.natAbs = m.natAbs) : n = m := by
  have hiff : n < 0 ↔ m < 0 := by simpa using hsign
  omega

theorem printsJson_printing (env : Externals) : PrintsJson printNumber env.printing where
  dumps _ _ := rfl
  number_chars x hx hparsed := by
    cases x with
    | int n => exact numeral_chars _ _
    | float x =>
      cases x with
      | finite negative digits exponent =>
        intro c hc
        rcases List.mem_append.mp hc with hc | hc
        · exact numeral_chars _ _ c hc
        · rcases List.mem_cons.mp hc with rfl | hc
          · decide
          · exact numeral_chars _ _ c hc
      | infinite negative => cases hparsed
      | nan => cases hparsed
    | null | bool | str | arr | obj => cases hx
  number_ne_nil x hx hparsed := by
    have hne (negative : Bool) (digits : Nat) (rest : Chars) : numeral negative digits ++ rest ≠ [] := by
      cases negative <;> simp [numeral]
    cases x with
    | int n => simpa [printNumber] using hne (n < 0) n.natAbs []
    | float x =>
      cases x with
      | finite negative digits exponent => exact hne _ _ _
      | infinite negative => cases hparsed
      | nan => cases hparsed
    | null | bool | str | arr | obj => cases hx
  number_inj x y hx hparsed hy hparsed' h := by
    have hint {n : Int} {negative : Bool} {digits : Nat} {rest : Chars}
        (heq : numeral (n < 0) n.natAbs ++ [] = numeral negative digits ++ 'e' :: rest) : False := by
      cases (numeral_inj .nil (.cons (by decide) rest) heq).2.2
    cases x with
    | int n =>
      cases y with
      | int m =>
        have heq : numeral (n < 0) n.natAbs ++ [] = numeral (m < 0) m.natAbs ++ [] := congrArg (· ++ []) h
        obtain ⟨hsign, habs, -⟩ := numeral_inj .nil .nil heq
        rw [int_of_sign hsign habs]
      | float y =>
        cases y with
        | finite negative digits exponent => exact (hint (by simpa [printNumber] using h)).elim
        | infinite negative => cases hparsed'
        | nan => cases hparsed'
      | null | bool | str | arr | obj => cases hy
    | float x =>
      cases x with
      | finite negative digits exponent =>
        cases y with
        | int m => exact (hint (by simpa [printNumber] using h.symm)).elim
        | float y =>
          cases y with
          | finite negative' digits' exponent' =>
            obtain ⟨rfl, rfl, htail⟩ := numeral_inj (.cons (by decide) _) (.cons (by decide) _) h
            have heq : numeral (exponent < 0) exponent.natAbs ++ [] = numeral (exponent' < 0) exponent'.natAbs ++ [] :=
              congrArg (· ++ []) (List.cons.inj htail).2
            obtain ⟨hsign, habs, -⟩ := numeral_inj .nil .nil heq
            rw [int_of_sign hsign habs]
          | infinite negative => cases hparsed'
          | nan => cases hparsed'
        | null | bool | str | arr | obj => cases hy
      | infinite negative => cases hparsed
      | nan => cases hparsed
    | null | bool | str | arr | obj => cases hx

/-- Keys in another order, and an empty vendor event id for an absent one. -/
theorem eventIdBytes_eq_iff_witness :
    eventIdBytes (Externals.ofTables [] [] [] []).printing (.obj [("id", .int 7), ("kind", .str "issued")]) none =
      eventIdBytes (Externals.ofTables [] [] [] []).printing
        (.obj [("kind", .str "issued"), ("id", .int 7)]) (some "") :=
  (eventIdBytes_eq_iff (printsJson_printing _) (by decide) (by decide) none (some "")).mpr
    ⟨.keys (.swap _ _ []), by decide⟩

/-! ### Cache keys -/

/-- The two calls ask the same: of one kind, about the same payload up to the order of keys,
the same vendor and the same raw type. -/
def SameQuestion : FallbackCall → FallbackCall → Prop
  | .classifyExtract _ vendorHint payload, .classifyExtract _ vendorHint' payload' =>
    vendorHint = vendorHint' ∧ (Json.obj payload).Reordered (.obj payload')
  | .classifyEventType vendorId rawEventType, .classifyEventType vendorId' rawEventType' =>
    vendorId = vendorId' ∧ rawEventType = rawEventType'
  | _, _ => False

/-- The vendor's name in the second question takes the separator and what stands before
another one from the raw type in the first. -/
def Shifted (call call' : FallbackCall) : Prop :=
  ∃ vendorId middle rawEventType : String,
    call = .classifyEventType vendorId (middle ++ String.singleton sepChar ++ rawEventType) ∧
    call' = .classifyEventType (vendorId ++ String.singleton sepChar ++ middle) rawEventType

/-- The payload of a call was parsed. -/
def FallbackCall.Parsed : FallbackCall → Prop
  | .classifyExtract _ _ payload => (Json.obj payload).parsed = true
  | .classifyEventType _ _ => True

section
variable {env : Externals} {settings : Settings} {number : Json → Chars}

theorem question_classifyExtract (h : PrintsJson number env) {payload : JsonObject}
    (hparsed : (Json.obj payload).parsed = true) (eventId : EventId) (vendorHint : String) :
    (FallbackCall.classifyExtract eventId vendorHint payload).question env settings =
      encode (String.ofList (settings.promptVersion.toList ++ sepChar :: (jsonText number (.obj payload) ++
        sepChar :: (settings.targetSchemaVersion.toList ++ optionalChars (some vendorHint))))) := by
  have hlast := joinBytes_optionalPart settings.targetSchemaVersion.toList (some vendorHint)
  rw [String.ofList_toList] at hlast
  rw [← encode_cons_sep, ← encode_cons_sep, ← hlast, String.ofList_toList, ← h.dumps _ hparsed]
  rfl

theorem question_classifyEventType (vendorId rawEventType : String) :
    (FallbackCall.classifyEventType vendorId rawEventType).question env settings =
      encode (String.ofList ("classify_event_type_v1".toList ++ sepChar :: (vendorId.toList ++
        sepChar :: rawEventType.toList))) := by
  rw [← encode_cons_sep, ← encode_cons_sep, String.ofList_toList, String.ofList_toList, String.ofList_toList]
  rfl

theorem sameQuestion_of_extract (h : PrintsJson number env) {payload payload' : JsonObject}
    (hparsed : (Json.obj payload).parsed = true) (hparsed' : (Json.obj payload').parsed = true)
    {eventId eventId' : EventId} {vendorHint vendorHint' : String}
    (heq : (FallbackCall.classifyExtract eventId vendorHint payload).question env settings =
      (FallbackCall.classifyExtract eventId' vendorHint' payload').question env settings) :
    vendorHint = vendorHint' ∧ (Json.obj payload).Reordered (.obj payload') := by
  rw [question_classifyExtract h hparsed, question_classifyExtract h hparsed', encode_inj] at heq
  have htail := (List.cons.inj (List.append_cancel_left (String.ofList_injective heq))).2
  have hstops (rest : Chars) : Stops isNumberChar (sepChar :: rest) := .cons (by decide) rest
  obtain ⟨htext, hrest⟩ := readsOff_jsonText h hparsed hparsed' _ _ (hstops _) (hstops _) htail
  have hpresent := optionalChars_inj.mp (List.append_cancel_left (List.cons.inj hrest).2)
  refine ⟨?_, reordered_of_jsonText h hparsed hparsed' htext⟩
  rw [present_some, present_some] at hpresent
  split at hpresent <;> split at hpresent <;> simp_all

theorem eventType_cases {vendorId vendorId' rawEventType rawEventType' : String}
    (heq : (FallbackCall.classifyEventType vendorId rawEventType).question env settings =
      (FallbackCall.classifyEventType vendorId' rawEventType').question env settings) :
    (vendorId = vendorId' ∧ rawEventType = rawEventType') ∨
      Shifted (.classifyEventType vendorId rawEventType) (.classifyEventType vendorId' rawEventType') ∨
      Shifted (.classifyEventType vendorId' rawEventType') (.classifyEventType vendorId rawEventType) := by
  have hshift {v v' r r' : String} {l : Chars} (hv : v'.toList = v.toList ++ l)
      (hr : sepChar :: r.toList = l ++ sepChar :: r'.toList) :
      (v = v' ∧ r = r') ∨ Shifted (.classifyEventType v r) (.classifyEventType v' r') := by
    cases l with
    | nil =>
      rw [List.append_nil, String.toList_inj] at hv
      exact .inl ⟨hv.symm, String.toList_inj.mp (List.cons.inj hr).2⟩
    | cons c middle =>
      obtain ⟨rfl, hraw⟩ := List.cons.inj hr
      have hr' : r = String.ofList middle ++ String.singleton sepChar ++ r' :=
        String.toList_inj.mp (by simpa using hraw)
      have hv' : v' = v ++ String.singleton sepChar ++ String.ofList middle :=
        String.toList_inj.mp (by simpa using hv)
      exact .inr ⟨v, String.ofList middle, r', by rw [hr'], by rw [hv']⟩
  rw [question_classifyEventType, question_classifyEventType, encode_inj] at heq
  have htail := (List.cons.inj (List.append_cancel_left (String.ofList_injective heq))).2
  rcases List.append_eq_append_iff.mp htail with ⟨l, hv, hr⟩ | ⟨l, hv, hr⟩
  · exact (hshift hv hr).imp_right .inl
  · rcases hshift hv hr with ⟨hv, hr⟩ | hshifted
    · exact .inl ⟨hv.symm, hr.symm⟩
    · exact .inr (.inr hshifted)

theorem Shifted.question_eq {call call' : FallbackCall} (h : Shifted call call') :
    call.question env settings = call'.question env settings := by
  obtain ⟨vendorId, middle, rawEventType, rfl, rfl⟩ := h
  rw [question_classifyEventType, question_classifyEventType]
  simp

theorem Shifted.not_same {call call' : FallbackCall} (h : Shifted call call') : ¬ SameQuestion call call' := by
  obtain ⟨vendorId, middle, rawEventType, rfl, rfl⟩ := h
  rintro ⟨hvendor, -⟩
  have hlength := congrArg (fun s => s.toList.length) hvendor
  simp at hlength

/-- **Calls of the LLM ask the same if their cache keys are of the same bytes**, unless they
are two questions about event types of which one is the other with the separator moved. -/
theorem sameQuestion_iff_not_shifted (h : PrintsJson number env)
    (hprompt : settings.promptVersion ≠ "classify_event_type_v1")
    (hsep : recordSep ∉ encode settings.promptVersion) {call call' : FallbackCall} (hcall : call.Parsed)
    (hcall' : call'.Parsed) :
    (call.question env settings = call'.question env settings → SameQuestion call call') ↔
      ¬ (Shifted call call' ∨ Shifted call' call) := by
  constructor
  · rintro hsame (hshifted | hshifted)
    · exact hshifted.not_same (hsame hshifted.question_eq)
    · have hsame := hsame hshifted.question_eq.symm
      obtain ⟨vendorId, middle, rawEventType, rfl, rfl⟩ := hshifted
      have hlength := congrArg (fun s => s.toList.length) hsame.1
      simp at hlength
  · intro hshifted heq
    cases call with
    | classifyExtract eventId vendorHint payload =>
      cases call' with
      | classifyExtract eventId' vendorHint' payload' => exact sameQuestion_of_extract h hcall hcall' heq
      | classifyEventType vendorId rawEventType =>
        exact absurd heq (question_ne hprompt hsep eventId vendorHint payload vendorId rawEventType)
    | classifyEventType vendorId rawEventType =>
      cases call' with
      | classifyExtract eventId vendorHint payload =>
        exact absurd heq.symm (question_ne hprompt hsep eventId vendorHint payload vendorId rawEventType)
      | classifyEventType vendorId' rawEventType' => exact (eventType_cases heq).resolve_right hshifted

end

theorem sameQuestion_iff_not_shifted_witness :
    (FallbackCall.classifyExtract "e1" "acme" [("id", .int 7)]).question (Externals.ofTables [] [] [] []).printing
        .defaults ≠
      (FallbackCall.classifyEventType "acme" "paid").question (Externals.ofTables [] [] [] []).printing .defaults := by
  intro heq
  have hparsed : (FallbackCall.classifyExtract "e1" "acme" [("id", .int 7)]).Parsed :=
    (by decide : (Json.obj [("id", .int 7)]).parsed = true)
  have hparsed' : (FallbackCall.classifyEventType "acme" "paid").Parsed := trivial
  refine (sameQuestion_iff_not_shifted (printsJson_printing _) (by decide) (by decide +kernel) hparsed hparsed').mpr
    ?_ heq
  rintro (⟨_, _, _, h, -⟩ | ⟨_, _, _, -, h⟩) <;> cases h

/-- A separator in a vendor's name: the raw type `invoice U+001F paid` of the vendor `acme` is
looked up as the raw type `paid` of the vendor `acme U+001F invoice`. -/
theorem shifted_questions_share_key :
    (FallbackCall.classifyEventType "acme" ("invoice" ++ String.singleton sepChar ++ "paid")).question
        (Externals.ofTables [] [] [] []).printing .defaults =
      (FallbackCall.classifyEventType ("acme" ++ String.singleton sepChar ++ "invoice") "paid").question
        (Externals.ofTables [] [] [] []).printing .defaults ∧
      ¬ SameQuestion (.classifyEventType "acme" ("invoice" ++ String.singleton sepChar ++ "paid"))
        (.classifyEventType ("acme" ++ String.singleton sepChar ++ "invoice") "paid") :=
  have hshifted : Shifted (.classifyEventType "acme" ("invoice" ++ String.singleton sepChar ++ "paid"))
      (.classifyEventType ("acme" ++ String.singleton sepChar ++ "invoice") "paid") :=
    ⟨"acme", "invoice", "paid", rfl, rfl⟩
  ⟨hshifted.question_eq, hshifted.not_same⟩

end WebhookIngestion
