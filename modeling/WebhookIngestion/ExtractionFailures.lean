import WebhookIngestion.LearnedSchemas
import WebhookIngestion.Pipeline
import WebhookIngestion.Places

/-! # When an extraction raises

An extraction is to report its failures in its result.  For a document that discovery goes
on to persist, it does unless it comes to a path that breaks off (`Breaks`), a timestamp
outside the calendar (`TimestampOverflows`), a coordinate that is no number, or a blank
vendor; each of these raises something that no handler around it expects. -/
namespace WebhookIngestion
open Text Programs

/-! ### Paths -/

/-- A segment that ends in a bracket it has not opened: `part.index("[")` raises. -/
def strayBracket (part : Chars) : Bool := [']'].isSuffixOf part && !part.contains '['

/-- **A path breaks off on a payload**: a bracket stays open, or the walk comes to a segment
with a stray bracket, and not from `None`. -/
def Breaks (u : Unicode) (payload : JsonObject) (path : String) : Prop :=
  ¬ Returns (parsePath path) ∨ ∃ before part after current, parsePath path = .ok (before ++ part :: after) ∧
    before.foldlM (walkSegment u) (.obj payload) = .ok current ∧ current ≠ .null ∧ strayBracket part = true

/-- No path among some breaks off. -/
def Unbroken (u : Unicode) (payload : JsonObject) (paths : List Json) : Prop :=
  ∀ path, Json.str path ∈ paths → ¬ Breaks u payload path

section Paths
variable {u : Unicode} {payload : JsonObject}

theorem returns_walkSegment {current : Json} {part : Chars} :
    Returns (walkSegment u current part) ↔ ¬ (current ≠ .null ∧ strayBracket part = true) := by
  rw [walkSegment]
  by_cases hnull : current = .null
  · rw [if_pos hnull]
    exact iff_of_true (.ok _) fun h => h.1 hnull
  · rw [if_neg hnull]
    by_cases hdollar : part = ['$']
    · rw [if_pos hdollar, hdollar]
      exact iff_of_true (.ok _) fun h => absurd h.2 (by decide)
    · rw [if_neg hdollar]
      by_cases hbare : ['[', ']'].isSuffixOf part = true
      · rw [if_pos hbare]
        have hopen : '[' ∈ part := (List.isSuffixOf_iff_suffix.mp hbare).subset List.mem_cons_self
        refine iff_of_true ?_ fun h => ?_
        · simp only []
          split <;> exact .ok _
        · simp [strayBracket, hopen] at h
      · rw [if_neg hbare]
        by_cases hclose : [']'].isSuffixOf part = true
        · rw [if_pos hclose]
          by_cases hopen : '[' ∈ part
          · rw [if_pos hopen]
            refine iff_of_true ?_ fun h => ?_
            · simp only []
              split <;> exact .ok _
            · simp [strayBracket, hopen] at h
          · rw [if_neg hopen]
            refine iff_of_false (not_returns_error _) fun h => h ⟨hnull, ?_⟩
            rw [strayBracket, hclose]
            simpa using hopen
        · rw [if_neg hclose]
          refine iff_of_true (.ok _) fun h => ?_
          rw [strayBracket, Bool.and_eq_true] at h
          exact hclose h.2.1

/-- A path resolves, to a value or to `None`, unless it breaks off. -/
theorem returns_resolvePath {path : String} :
    Returns (resolvePath u payload (.str path)) ↔ ¬ Breaks u payload path := by
  by_cases hempty : path = ""
  · subst hempty
    have hparse : parsePath "" = .ok [] := rfl
    refine iff_of_true (.ok _) ?_
    rintro (h | ⟨before, part, after, current, h, -⟩)
    · exact h ⟨[], hparse⟩
    · rw [hparse] at h
      simp at h
  · have hresolve : resolvePath u payload (.str path) =
        parsePath path >>= fun parts => parts.foldlM (walkSegment u) (.obj payload) := by
      rw [resolvePath, if_pos (by simpa [Json.truthy] using hempty)]
    rw [hresolve, returns_bind, Breaks]
    cases hparse : parsePath path with
    | error e =>
      refine iff_of_false ?_ fun h => h (.inl (not_returns_error e))
      rintro ⟨parts, h, -⟩
      cases h
    | ok parts =>
      constructor
      · rintro ⟨parts', h, hwalk⟩ (hopen | ⟨before, part, after, current, h', hcurrent, hnull, hstray⟩)
        · exact hopen (.ok parts)
        · cases h
          cases h'
          exact returns_walkSegment.mp (returns_foldlM.mp hwalk before part after current rfl hcurrent) ⟨hnull, hstray⟩
      · intro h
        refine ⟨parts, rfl, returns_foldlM.mpr fun before part after current hparts hcurrent => ?_⟩
        refine returns_walkSegment.mpr fun hstray => h (.inr ?_)
        exact ⟨before, part, after, current, by rw [hparts], hcurrent, hstray.1, hstray.2⟩

end Paths

/-! ### Learned specifications -/

/-- The specifications of a single field that discovery writes. -/
inductive FieldSpec : Json → Prop
  | absent : FieldSpec .null
  | path (path : String) : FieldSpec (.str path)
  | template (template : String) : FieldSpec (.obj [("template", .str template)])

/-- The specifications of a map that discovery writes. -/
inductive NestedSpec : Json → Prop
  | absent : NestedSpec .null
  | paths {entries : JsonObject} (h : ∀ entry ∈ entries, ∃ path, entry.2 = .str path) : NestedSpec (.obj entries)

/-- The fields of a document that discovery writes. -/
structure LearnedFields (fields : JsonObject) : Prop where
  scalar : ∀ key ∉ nestedFields, FieldSpec (fields.get key)
  nested : ∀ key ∈ nestedFields, NestedSpec (fields.get key)

/-- The paths that `_extract_location` resolves. -/
def locationPaths (spec : Json) : List Json :=
  (nestedSpec spec).toList.flatMap fun spec => ["code", "name", "latitude", "longitude"].map spec.get

section Specs
variable {u : Unicode} {payload : JsonObject}

theorem unbroken_singleton {path : String} : Unbroken u payload [.str path] ↔ ¬ Breaks u payload path := by
  constructor
  · intro h
    exact h path List.mem_cons_self
  · intro h path' hmem
    cases List.mem_singleton.mp hmem
    exact h

theorem unbroken_nil : Unbroken u payload [] := fun _ h => absurd h List.not_mem_nil

theorem returns_resolvePart {part : Chars} :
    Returns (resolvePart u payload part) ↔ ∀ path, placeholder? part = some path → ¬ Breaks u payload path := by
  rw [resolvePart]
  cases hplaceholder : placeholder? part with
  | none =>
    refine iff_of_true (.ok _) fun path h => ?_
    cases h
  | some path =>
    simp only []
    rw [returns_bind]
    constructor
    · rintro ⟨val, hval, -⟩ path' h
      cases h
      exact returns_resolvePath.mp ⟨val, hval⟩
    · intro h
      obtain ⟨val, hval⟩ := returns_resolvePath.mpr (h path rfl)
      exact ⟨val, hval, .ok _⟩

theorem returns_resolveTemplate {template : String} :
    Returns (resolveTemplate u payload (.str template)) ↔ Unbroken u payload (placeholderPaths template) := by
  have hparts : Returns (resolveTemplate u payload (.str template)) ↔
      Returns ((splitTemplate false [] template.toList).mapM (resolvePart u payload)) := by
    rw [resolveTemplate, returns_bind]
    constructor
    · rintro ⟨parts, hparts, -⟩
      exact ⟨parts, hparts⟩
    · rintro ⟨parts, hparts⟩
      refine ⟨parts, hparts, ?_⟩
      split <;> exact .ok _
  rw [hparts, returns_mapM]
  constructor
  · intro h path hpath
    obtain ⟨path', hmem, heq⟩ := List.mem_map.mp hpath
    cases heq
    obtain ⟨part, hpart, hplaceholder⟩ := List.mem_filterMap.mp hmem
    exact returns_resolvePart.mp (h part hpart) path hplaceholder
  · intro h part hpart
    refine returns_resolvePart.mpr fun path hplaceholder => h path ?_
    exact List.mem_map_of_mem (List.mem_filterMap.mpr ⟨part, hpart, hplaceholder⟩)

theorem returns_resolveField {spec : Json} (hspec : FieldSpec spec) :
    Returns (resolveField u payload spec) ↔ Unbroken u payload (specPaths spec) := by
  cases hspec with
  | absent => exact iff_of_true (.ok _) unbroken_nil
  | path path =>
    rw [resolveField, specPaths, unbroken_singleton]
    exact returns_resolvePath
  | template template =>
    rw [resolveField, specPaths, templateOf_template]
    by_cases h : template = ""
    · rw [if_pos h]
      exact iff_of_true (.ok _) unbroken_nil
    · rw [if_neg h]
      simp only []
      rw [returns_bind, ← returns_resolveTemplate]
      constructor
      · rintro ⟨value, hvalue, -⟩
        exact ⟨value, hvalue⟩
      · rintro ⟨value, hvalue⟩
        exact ⟨value, hvalue, .ok _⟩

theorem returns_resolveEntityId {fields : JsonObject} (hspec : FieldSpec (fields.get "entity_external_id")) :
    Returns (resolveEntityId u payload fields) ↔
      Unbroken u payload (specPaths (fields.get "entity_external_id")) := by
  rw [resolveEntityId]
  generalize fields.get "entity_external_id" = spec at hspec
  cases hspec with
  | absent => exact iff_of_true (.ok _) unbroken_nil
  | path path =>
    simp only []
    rw [specPaths, unbroken_singleton, ← returns_resolvePath, returns_bind]
    constructor
    · rintro ⟨value, hvalue, -⟩
      exact ⟨value, hvalue⟩
    · rintro ⟨value, hvalue⟩
      exact ⟨value, hvalue, .ok _⟩
  | template template =>
    simp only []
    rw [specPaths, templateOf_template]
    by_cases h : template = ""
    · rw [if_pos h]
      exact iff_of_true (.ok _) unbroken_nil
    · rw [if_neg h]
      exact returns_resolveTemplate

theorem nestedSpec_paths {spec : Json} (hspec : NestedSpec spec) {entries : JsonObject}
    (h : nestedSpec spec = some entries) : ∀ entry ∈ entries, ∃ path, entry.2 = .str path := by
  cases hspec with
  | absent => cases h
  | paths hpaths =>
    rw [nestedSpec] at h
    split at h
    · cases h
      exact hpaths
    · cases h

theorem returns_extractMap {spec : Json} (hspec : NestedSpec spec) :
    Returns (extractMap u payload spec) ↔ Unbroken u payload (mapPaths spec) := by
  rw [extractMap, mapPaths]
  cases hnested : nestedSpec spec with
  | none => exact iff_of_true (.ok _) unbroken_nil
  | some entries =>
    simp only []
    have hpaths := nestedSpec_paths hspec hnested
    rw [returns_bind]
    constructor
    · rintro ⟨read, hread, -⟩ path hpath
      obtain ⟨entry, hentry, heq⟩ := List.mem_map.mp hpath
      have hreturns := returns_mapM.mp ⟨read, hread⟩ entry hentry
      obtain ⟨val, hval, -⟩ := returns_bind.mp hreturns
      rw [heq] at hval
      exact returns_resolvePath.mp ⟨val, hval⟩
    · intro h
      have hreturns := (returns_mapM (l := entries) (f := fun x : String × Json => (do
        return (x.1, ← resolvePath u payload x.2) : Except PyError (String × Json)))).mpr ?_
      · obtain ⟨read, hread⟩ := hreturns
        exact ⟨read, hread, .ok _⟩
      · intro entry hentry
        obtain ⟨path, heq⟩ := hpaths entry hentry
        have hunbroken := h path (heq ▸ List.mem_map_of_mem hentry)
        obtain ⟨val, hval⟩ := returns_resolvePath.mpr hunbroken
        rw [heq, returns_bind]
        exact ⟨val, hval, .ok _⟩

end Specs

/-! ### Timestamps -/

/-- What is relied on of `dateutil`: it raises nothing else. -/
structure DateutilContract (env : Externals) : Prop where
  error : ∀ text dayfirst e, env.dtparse text dayfirst = .error e → e.isValueError = true ∨ e = .overflowError

/-- The reading of a text, day-first if the other one fails. -/
def dateutilReading (env : Externals) (raw : String) : Except PyError ParsedDateTime :=
  match env.dtparse raw false with
  | .ok dt => .ok dt
  | .error _ => env.dtparse raw true

/-- The instant of a parsed text; a naive one is taken as UTC. -/
def ParsedDateTime.instant (dt : ParsedDateTime) : Int := dt.wall - dt.utcoffset.getD 0

/-- The offset of a parsed text, if it has one, is less than a day. -/
def ParsedDateTime.OffsetFits (dt : ParsedDateTime) : Prop :=
  ¬ (dt.utcoffset.getD 0 ≤ -dayLength ∨ dayLength ≤ dt.utcoffset.getD 0)

/-- **A timestamp outside the calendar**: `dateutil` overflows on it, or reads an instant that
has no year from 1 to 9999 in UTC, with an offset of less than a day. -/
def TimestampOverflows (env : Externals) (value : String) : Prop :=
  strip value ≠ "" ∧ (dateutilReading env (strip value) = .error .overflowError ∨
    ∃ dt, dateutilReading env (strip value) = .ok dt ∧ dt.OffsetFits ∧
      ¬ (0 ≤ dt.instant ∧ dt.instant < maxWall))

section Timestamps
variable {env : Externals} {value : String}

theorem parseTimestamp_eq (hdateutil : DateutilContract env) (hne : strip value ≠ "") :
    parseTimestamp env value =
      dateutilReading env (strip value) >>= fun dt => astimezoneUtc dt.wall (dt.utcoffset.getD 0) := by
  rw [parseTimestamp, dateutilReading]
  simp only [if_neg hne]
  cases hfirst : env.dtparse (strip value) false with
  | ok dt => rfl
  | error e =>
    have hexpected := hdateutil.error _ _ _ hfirst
    simp only [if_pos hexpected]

/-- `parse_timestamp` raises a `ValueError`, or overflows. -/
theorem parseTimestamp_error (hdateutil : DateutilContract env) {e : PyError}
    (h : parseTimestamp env value = .error e) :
    e.isValueError = true ∧ ¬ TimestampOverflows env value ∨ e = .overflowError ∧ TimestampOverflows env value := by
  by_cases hne : strip value = ""
  · refine .inl ⟨?_, fun hoverflow => hoverflow.1 hne⟩
    rw [parseTimestamp] at h
    simp only [if_pos hne] at h
    cases h
    rfl
  · rw [parseTimestamp_eq hdateutil hne] at h
    rcases bind_eq_error.mp h with hread | ⟨dt, hread, hrange⟩
    · have hkind : e.isValueError = true ∨ e = .overflowError := by
        rw [dateutilReading] at hread
        split at hread
        · cases hread
        · exact hdateutil.error _ _ _ hread
      rcases hkind with hvalue | rfl
      · refine .inl ⟨hvalue, ?_⟩
        rintro ⟨-, hoverflow | ⟨dt, hok, -⟩⟩
        · cases hread.symm.trans hoverflow
          cases hvalue
        · cases hread.symm.trans hok
      · exact .inr ⟨rfl, hne, .inl hread⟩
    · rw [astimezoneUtc] at hrange
      split at hrange
      · next hoffset =>
        -- an offset of a day or more is refused before the calendar is asked
        cases hrange
        refine .inl ⟨rfl, ?_⟩
        rintro ⟨-, hoverflow | ⟨dt', hok, hfits, -⟩⟩
        · cases hread.symm.trans hoverflow
        · cases hread.symm.trans hok
          exact hfits hoffset
      · next hoffset =>
        split at hrange
        · cases hrange
        · next hout =>
          cases hrange
          exact .inr ⟨rfl, hne, .inr ⟨dt, hread, hoffset, hout⟩⟩

theorem not_overflows_of_parse (hdateutil : DateutilContract env) {t : DateTime}
    (h : parseTimestamp env value = .ok t) : ¬ TimestampOverflows env value := by
  rintro ⟨hne, hoverflow⟩
  rw [parseTimestamp_eq hdateutil hne] at h
  obtain ⟨dt, hread, hrange⟩ := bind_eq_ok.mp h
  rcases hoverflow with hoverflow | ⟨dt', hread', -, hout⟩
  · cases hread.symm.trans hoverflow
  · cases hread.symm.trans hread'
    exact hout (astimezoneUtc_eq_ok hrange).2

theorem returns_orNone_parseTimestamp (hdateutil : DateutilContract env) :
    Returns (orNone badTimestamp (parseTimestamp env value)) ↔ ¬ TimestampOverflows env value := by
  cases hparse : parseTimestamp env value with
  | ok t => exact iff_of_true (.ok _) (not_overflows_of_parse hdateutil hparse)
  | error e =>
    rw [orNone]
    rcases parseTimestamp_error hdateutil hparse with ⟨hvalue, hnot⟩ | ⟨rfl, hoverflow⟩
    · rw [if_pos (by rw [badTimestamp, hvalue]; rfl)]
      exact iff_of_true (.ok _) hnot
    · exact iff_of_false (not_returns_error _) fun h => h hoverflow

end Timestamps

/-! ### The fields of a kind -/

/-- The coordinates of a location that has a code or a name are numbers. -/
def CoordinatesRead (env : Externals) (payload : JsonObject) (spec : Json) : Prop :=
  ∀ locSpec code name, nestedSpec spec = some locSpec →
    resolvePath env.toUnicode payload (locSpec.get "code") = .ok code →
    resolvePath env.toUnicode payload (locSpec.get "name") = .ok name →
    (code.truthy = true ∨ name.truthy = true) → ∀ key ∈ ["latitude", "longitude"], ∀ x,
      resolvePath env.toUnicode payload (locSpec.get key) = .ok x → x ≠ .null → x.readsAsFloat env = true

section Fields
variable {env : Externals} {payload : JsonObject}

theorem returns_resolveGet {u : Unicode} {entries : JsonObject}
    (hpaths : ∀ entry ∈ entries, ∃ path, entry.2 = .str path) (key : String) :
    Returns (resolvePath u payload (entries.get key)) ↔ Unbroken u payload [entries.get key] := by
  rw [JsonObject.get]
  cases hkey : entries.lookup key with
  | none =>
    refine iff_of_true (.ok _) fun path h => ?_
    cases List.mem_singleton.mp h
  | some value =>
    obtain ⟨path, rfl⟩ := hpaths _ (mem_of_lookup hkey)
    rw [Option.getD_some, unbroken_singleton]
    exact returns_resolvePath

theorem unbroken_each {u : Unicode} {paths : List Json} :
    Unbroken u payload paths ↔ ∀ path ∈ paths, Unbroken u payload [path] := by
  constructor
  · intro h path hpath path' hmem
    cases List.mem_singleton.mp hmem
    exact h path' hpath
  · intro h path hpath
    exact h _ hpath path List.mem_cons_self

theorem returns_coordinate {x : Json} :
    Returns (if x = .null then return none else return some (← x.toFloat env) :
      Except PyError (Option PyFloat)) ↔ (x ≠ .null → x.readsAsFloat env = true) := by
  by_cases hnull : x = .null
  · rw [if_pos hnull]
    exact iff_of_true (.ok _) fun h => absurd hnull h
  · rw [if_neg hnull, returns_bind, ← Json.returns_toFloat_iff]
    constructor
    · rintro ⟨value, hvalue, -⟩ -
      exact ⟨value, hvalue⟩
    · intro h
      obtain ⟨value, hvalue⟩ := h hnull
      exact ⟨value, hvalue, .ok _⟩

/-- `if not code and not name`. -/
theorem place_missing {code name : Json} :
    (!code.truthy && !name.truthy) = true ↔ ¬ (code.truthy = true ∨ name.truthy = true) := by
  cases code.truthy <;> cases name.truthy <;> decide

theorem returns_extractLocation {spec : Json} (hspec : NestedSpec spec) :
    Returns (extractLocation env payload spec) ↔
      Unbroken env.toUnicode payload (locationPaths spec) ∧ CoordinatesRead env payload spec := by
  rw [extractLocation, locationPaths]
  cases hnested : nestedSpec spec with
  | none =>
    refine iff_of_true (.ok _) ⟨unbroken_nil, fun locSpec code name h => ?_⟩
    cases hnested.symm.trans h
  | some locSpec =>
    have hpaths := nestedSpec_paths hspec hnested
    have hunbroken : Unbroken env.toUnicode payload ((some locSpec).toList.flatMap fun spec =>
        ["code", "name", "latitude", "longitude"].map spec.get) ↔
        ∀ key ∈ ["code", "name", "latitude", "longitude"],
          Returns (resolvePath env.toUnicode payload (locSpec.get key)) := by
      rw [unbroken_each]
      simp only [Option.toList_some, List.flatMap_cons, List.flatMap_nil, List.append_nil, List.forall_mem_map,
        returns_resolveGet hpaths]
    rw [hunbroken]
    simp only [returns_bind, List.forall_mem_cons]
    constructor
    · rintro ⟨code, hcode, name, hname, lat, hlat, lon, hlon, hreturns⟩
      refine ⟨⟨⟨code, hcode⟩, ⟨name, hname⟩, ⟨lat, hlat⟩, ⟨lon, hlon⟩, fun _ h => absurd h List.not_mem_nil⟩, ?_⟩
      intro locSpec' code' name' hspec' hcode' hname' hplace
      cases hnested.symm.trans hspec'
      cases hcode.symm.trans hcode'
      cases hname.symm.trans hname'
      rw [if_neg (mt place_missing.mp (not_not_intro hplace))] at hreturns
      simp only [returns_bind] at hreturns
      obtain ⟨latitude, hlatitude, longitude, hlongitude, -⟩ := hreturns
      intro key hkey x hx
      rcases List.mem_pair.mp hkey with rfl | rfl
      · cases hlat.symm.trans hx
        exact returns_coordinate.mp ⟨latitude, hlatitude⟩
      · cases hlon.symm.trans hx
        exact returns_coordinate.mp ⟨longitude, hlongitude⟩
    · rintro ⟨⟨⟨code, hcode⟩, ⟨name, hname⟩, ⟨lat, hlat⟩, ⟨lon, hlon⟩, -⟩, hread⟩
      refine ⟨code, hcode, name, hname, lat, hlat, lon, hlon, ?_⟩
      by_cases hplace : code.truthy = true ∨ name.truthy = true
      · have hread := hread locSpec code name hnested hcode hname hplace
        obtain ⟨latitude, hlatitude⟩ := returns_coordinate.mpr (hread "latitude" (by decide) lat hlat)
        obtain ⟨longitude, hlongitude⟩ := returns_coordinate.mpr (hread "longitude" (by decide) lon hlon)
        rw [if_neg (mt place_missing.mp (not_not_intro hplace))]
        simp only [returns_bind]
        exact ⟨latitude, hlatitude, longitude, hlongitude, .ok _⟩
      · rw [if_pos (place_missing.mpr hplace)]
        exact .ok _

theorem returns_orNone {α : Type} {expected : PyError → Bool} {x : Except PyError α} :
    Returns (orNone expected x) ↔ RaisesOnly (expected · = true) x := by
  cases x with
  | ok a => exact iff_of_true (.ok _) (.ok a)
  | error e =>
    rw [orNone, raisesOnly_error_iff]
    split
    · next he => exact iff_of_true (.ok _) he
    · next he => exact iff_of_false (not_returns_error _) he

/-- Nothing but a `ValueError` is raised. -/
abbrev RaisesValueErrors {α : Type} (x : Except PyError α) : Prop := RaisesOnly (PyError.isValueError · = true) x

theorem parseMoney_raises (env : Externals) (value : String) :
    RaisesValueErrors (parseMoney env value) := by
  have hminor : ∀ digits, RaisesValueErrors (parseMinorUnits env.toUnicode digits) := by
    intro digits
    rw [parseMinorUnits]
    simp only []
    split
    · refine .bind ?_ fun _ _ => .ok _
      split
      · exact .ok _
      · exact .error rfl
    · split
      · split
        · refine .bind ?_ fun _ _ => .ok _
          split
          · exact .ok _
          · exact .error rfl
        · exact .error rfl
      · split
        · refine .bind (.ok 0) fun _ _ => .bind ?_ fun _ _ => .ok _
          split
          · exact .ok _
          · exact .error rfl
        · refine .bind ?_ fun _ _ => .bind ?_ fun _ _ => .ok _
          · split
            · exact .ok _
            · exact .error rfl
          · split
            · exact .ok _
            · exact .error rfl
  rw [parseMoney]
  simp only []
  split
  · exact .error rfl
  · split
    · exact .error rfl
    · exact (hminor _).bind fun _ _ => .ok _

theorem moneyValidate_raises (currency : String) (amountMinor : Int) :
    RaisesValueErrors (Money.validate currency amountMinor) := by
  rw [Money.validate]
  split
  · split
    · exact .error rfl
    · exact .ok _
  · exact .error rfl

theorem returns_extractAmount {spec : Json} (hspec : FieldSpec spec) :
    Returns (extractAmount env payload spec) ↔ Unbroken env.toUnicode payload (specPaths spec) := by
  rw [extractAmount, returns_bind, ← returns_resolveField hspec]
  constructor
  · rintro ⟨value, hvalue, -⟩
    exact ⟨value, hvalue⟩
  · rintro ⟨value, hvalue⟩
    refine ⟨value, hvalue, ?_⟩
    split
    · exact .ok _
    · exact returns_orNone.mpr ((parseMoney_raises env _).bind fun money _ => moneyValidate_raises money.1 money.2)

theorem returns_extractDueAt (hdateutil : DateutilContract env) {dueRaw : Json} :
    Returns (extractDueAt env dueRaw) ↔
      (dueRaw.truthy = true → ¬ TimestampOverflows env (dueRaw.text env.toUnicode)) := by
  rw [extractDueAt]
  split
  · next htruthy =>
    rw [returns_orNone_parseTimestamp hdateutil]
    exact ⟨fun h _ => h, fun h => h htruthy⟩
  · next hfalsy => exact iff_of_true (.ok _) fun h => absurd h hfalsy

/-- **What `_extract_shipment` and `_extract_invoice` need of a payload for the fields that are
their own.** -/
def DetailExtractable (env : Externals) (payload fields : JsonObject) : EntityType → Prop
  | .shipment =>
    Unbroken env.toUnicode payload (locationPaths (fields.get "location")) ∧
      CoordinatesRead env payload (fields.get "location") ∧
      Unbroken env.toUnicode payload (mapPaths (fields.get "reference_ids")) ∧
      Unbroken env.toUnicode payload (specPaths (fields.get "raw_milestone"))
  | .invoice =>
    Unbroken env.toUnicode payload (specPaths (fields.get "amount")) ∧
      Unbroken env.toUnicode payload (specPaths (fields.get "due_at")) ∧
      (∀ dueRaw, resolveField env.toUnicode payload (fields.get "due_at") = .ok dueRaw →
        dueRaw.truthy = true → ¬ TimestampOverflows env (dueRaw.text env.toUnicode)) ∧
      Unbroken env.toUnicode payload (mapPaths (fields.get "linked_references")) ∧
      Unbroken env.toUnicode payload (specPaths (fields.get "raw_kind"))

variable {fields : JsonObject}

theorem returns_extractDetail (hdateutil : DateutilContract env) (hfields : LearnedFields fields)
    (k : EntityType) :
    Returns (extractDetail env payload fields k) ↔ DetailExtractable env payload fields k := by
  cases k with
  | shipment =>
    rw [extractDetail, DetailExtractable, ← returns_extractMap (hfields.nested "reference_ids" (by decide)),
      ← returns_resolveField (hfields.scalar "raw_milestone" (by decide)), ← and_assoc,
      ← returns_extractLocation (hfields.nested "location" (by decide))]
    simp only [returns_bind]
    constructor
    · rintro ⟨location, h₁, referenceIds, h₂, rawMilestone, h₃, -⟩
      exact ⟨⟨location, h₁⟩, ⟨referenceIds, h₂⟩, ⟨rawMilestone, h₃⟩⟩
    · rintro ⟨⟨location, h₁⟩, ⟨referenceIds, h₂⟩, ⟨rawMilestone, h₃⟩⟩
      exact ⟨location, h₁, referenceIds, h₂, rawMilestone, h₃, .ok _⟩
  | invoice =>
    rw [extractDetail, DetailExtractable, ← returns_extractAmount (hfields.scalar "amount" (by decide)),
      ← returns_resolveField (hfields.scalar "due_at" (by decide)),
      ← returns_extractMap (hfields.nested "linked_references" (by decide)),
      ← returns_resolveField (hfields.scalar "raw_kind" (by decide))]
    simp only [returns_bind]
    constructor
    · rintro ⟨amount, h₁, dueRaw, h₂, dueAt, h₃, linkedReferences, h₄, rawKind, h₅, -⟩
      refine ⟨⟨amount, h₁⟩, ⟨dueRaw, h₂⟩, fun dueRaw' h => ?_, ⟨linkedReferences, h₄⟩, ⟨rawKind, h₅⟩⟩
      cases h₂.symm.trans h
      exact (returns_extractDueAt hdateutil).mp ⟨dueAt, h₃⟩
    · rintro ⟨⟨amount, h₁⟩, ⟨dueRaw, h₂⟩, hcalendar, ⟨linkedReferences, h₄⟩, ⟨rawKind, h₅⟩⟩
      obtain ⟨dueAt, h₃⟩ := (returns_extractDueAt hdateutil).mpr (hcalendar dueRaw h₂)
      exact ⟨amount, h₁, dueRaw, h₂, dueAt, h₃, linkedReferences, h₄, rawKind, h₅, .ok _⟩

end Fields

/-! ### The extraction -/

/-- **What an extraction of an entity needs of a payload.** -/
structure EntityExtractable (env : Externals) (payload fields : JsonObject) (vendorId : String) (k : EntityType)
    (canonicalState : String) : Prop where
  entityExternalId : Unbroken env.toUnicode payload (specPaths (fields.get "entity_external_id"))
  eventTimestamp : Unbroken env.toUnicode payload (specPaths (fields.get "event_timestamp"))
  calendar : ∀ extId tsRaw, resolveEntityId env.toUnicode payload fields = .ok extId →
    resolveField env.toUnicode payload (fields.get "event_timestamp") = .ok tsRaw →
    missingFields extId tsRaw = [] → ¬ TimestampOverflows env (tsRaw.text env.toUnicode)
  /-- It goes on to the fields of the kind once the timestamp is parsed, for a state of the kind. -/
  detail : ∀ extId tsRaw t type, resolveEntityId env.toUnicode payload fields = .ok extId →
    resolveField env.toUnicode payload (fields.get "event_timestamp") = .ok tsRaw →
    missingFields extId tsRaw = [] → parseTimestamp env (tsRaw.text env.toUnicode) = .ok t →
    EventTypeOf.ofValue? k canonicalState = some type →
    DetailExtractable env payload fields k ∧ strip vendorId ≠ ""

/-- **What an extraction needs of a payload**, for a document's fields. -/
structure Extractable (env : Externals) (payload fields : JsonObject) (vendorId : String) (classification : Json)
    (canonicalState : Option String) : Prop where
  eventType : Unbroken env.toUnicode payload (specPaths (fields.get "event_type"))
  unclassified : classification = .str Classification.unclassified.value →
    Unbroken env.toUnicode payload (specPaths (fields.get "summary")) ∧
      Unbroken env.toUnicode payload (specPaths (fields.get "reason")) ∧ strip vendorId ≠ ""
  entity : ∀ k state, classification = .str k.classification.value → canonicalState = some state →
    EntityExtractable env payload fields vendorId k state

section Extraction
variable {env : Externals} {payload fields : JsonObject} {eventId vendorId : String}

theorem returns_validateBase (vendorId : String) {eventId : String} (hid : strip eventId ≠ "") {confidence : Rat}
    (hlow : 0 ≤ confidence) (hhigh : confidence ≤ 1) :
    Returns (deterministicBase eventId vendorId confidence).validate ↔ strip vendorId ≠ "" := by
  rw [CanonicalBase.validate, deterministicBase]
  by_cases hvendor : strip vendorId = ""
  · rw [if_pos (.inr (.inl hvendor))]
    exact iff_of_false (not_returns_error _) (not_not_intro hvendor)
  · rw [if_neg]
    · exact iff_of_true (.ok _) hvendor
    · rintro (h | h | h | h)
      · exact hid h
      · exact hvendor h
      · exact Rat.not_le.mpr h hlow
      · exact Rat.not_le.mpr h hhigh

theorem returns_validateReading (vendorId : String) {eventId : String} (hid : strip eventId ≠ "") {k : EntityType}
    (reading : EntityReading k) :
    Returns (reading.event eventId vendorId).validate ↔ strip vendorId ≠ "" := by
  have hbase := returns_validateBase vendorId hid (show 0 ≤ entityConfidence by decide +kernel) (by decide +kernel)
  rw [CanonicalEntityEvent.validate, ← hbase]
  constructor
  · intro h
    obtain ⟨valid, hvalid, -⟩ := returns_bind.mp h
    exact ⟨valid, hvalid⟩
  · intro h
    exact h.bind fun _ _ => .ok _

variable (hfields : LearnedFields fields) (hid : strip eventId ≠ "")
include hfields hid

theorem returns_extractUnclassified :
    Returns (extractUnclassified env payload eventId vendorId fields) ↔
      Unbroken env.toUnicode payload (specPaths (fields.get "summary")) ∧
        Unbroken env.toUnicode payload (specPaths (fields.get "reason")) ∧ strip vendorId ≠ "" := by
  rw [extractUnclassified, ← returns_resolveField (hfields.scalar "summary" (by decide)),
    ← returns_resolveField (hfields.scalar "reason" (by decide)),
    ← returns_validateBase vendorId hid (show 0 ≤ unclassifiedConfidence by decide +kernel) (by decide +kernel)]
  simp only [returns_bind, CanonicalUnclassifiedEvent.validate]
  constructor
  · rintro ⟨summaryRaw, hsummary, reasonRaw, hreason, valid, hvalid, -⟩
    exact ⟨⟨summaryRaw, hsummary⟩, ⟨reasonRaw, hreason⟩, ⟨valid, hvalid⟩⟩
  · rintro ⟨⟨summaryRaw, hsummary⟩, ⟨reasonRaw, hreason⟩, ⟨valid, hvalid⟩⟩
    exact ⟨summaryRaw, hsummary, reasonRaw, hreason, valid, hvalid, .ok _⟩

variable (hdateutil : DateutilContract env)
include hdateutil

/-- Once the required fields are read, it is the calendar, the other fields and the vendor that may raise. -/
theorem returns_extractEntity_read {k : EntityType} {canonicalState : String} {extId : Option String} {tsRaw : Json}
    (hext : resolveEntityId env.toUnicode payload fields = .ok extId)
    (hts : resolveField env.toUnicode payload (fields.get "event_timestamp") = .ok tsRaw) :
    Returns (extractEntity env k payload eventId vendorId fields canonicalState) ↔
      (missingFields extId tsRaw = [] → ¬ TimestampOverflows env (tsRaw.text env.toUnicode) ∧
        ∀ t type, parseTimestamp env (tsRaw.text env.toUnicode) = .ok t →
          EventTypeOf.ofValue? k canonicalState = some type →
            DetailExtractable env payload fields k ∧ strip vendorId ≠ "") := by
  rw [extractEntity, readEntity, hext, hts]
  by_cases hmissing : missingFields extId tsRaw = []
  · cases hparse : parseTimestamp env (tsRaw.text env.toUnicode) with
    | error e =>
      simp only [bind, Except.bind, hmissing, hparse]
      rcases parseTimestamp_error hdateutil hparse with ⟨hvalue, hnot⟩ | ⟨rfl, hoverflow⟩
      · have hexpected : orNone badTimestamp (.error e : Except PyError DateTime) = .ok none := by
          rw [orNone, if_pos (by rw [badTimestamp, hvalue]; rfl)]
        rw [hexpected]
        exact iff_of_true (.ok _) fun _ => ⟨hnot, fun t type ht => by cases ht⟩
      · exact iff_of_false (not_returns_error _) fun h => (h trivial).1 hoverflow
    | ok t =>
      have hcalendar := not_overflows_of_parse hdateutil hparse
      simp only [bind, Except.bind, hmissing, hparse, orNone]
      cases htype : EventTypeOf.ofValue? k canonicalState with
      | none => exact iff_of_true (.ok _) fun _ => ⟨hcalendar, fun t type _ htype' => by cases htype'⟩
      | some type =>
        have hdetail : Returns (extractDetail env payload fields k) ↔ DetailExtractable env payload fields k :=
          returns_extractDetail hdateutil hfields k
        cases hread : extractDetail env payload fields k with
        | error e =>
          refine iff_of_false (not_returns_error e) fun h => ?_
          obtain ⟨hextractable, -⟩ := (h trivial).2 t type rfl rfl
          rw [← hdetail, hread] at hextractable
          exact not_returns_error e hextractable
        | ok detail =>
          have hvalid := returns_validateReading vendorId hid ⟨extId.getD "", type, t, detail⟩
          constructor
          · intro h _
            refine ⟨hcalendar, fun t' type' _ _ => ⟨hdetail.mp ⟨detail, hread⟩, hvalid.mp ?_⟩⟩
            obtain ⟨ev, hev, -⟩ := returns_bind.mp h
            exact ⟨ev, hev⟩
          · intro h
            obtain ⟨-, hvendor⟩ := (h trivial).2 t type rfl rfl
            exact (hvalid.mpr hvendor).bind fun ev _ => .ok _
  · simp only [bind, Except.bind, ne_eq, if_pos hmissing]
    exact iff_of_true (.ok _) fun h => absurd h hmissing

theorem returns_extractEntity {k : EntityType} {canonicalState : String} :
    Returns (extractEntity env k payload eventId vendorId fields canonicalState) ↔
      EntityExtractable env payload fields vendorId k canonicalState := by
  cases hext : resolveEntityId env.toUnicode payload fields with
  | error e =>
    refine iff_of_false ?_ fun h => ?_
    · rw [extractEntity, readEntity, hext]
      exact not_returns_error e
    · have hreturns := (returns_resolveEntityId (hfields.scalar _ (by decide))).mpr h.entityExternalId
      rw [hext] at hreturns
      exact not_returns_error e hreturns
  | ok extId =>
    cases hts : resolveField env.toUnicode payload (fields.get "event_timestamp") with
    | error e =>
      refine iff_of_false ?_ fun h => ?_
      · rw [extractEntity, readEntity, hext, hts]
        exact not_returns_error e
      · have hreturns := (returns_resolveField (hfields.scalar _ (by decide))).mpr h.eventTimestamp
        rw [hts] at hreturns
        exact not_returns_error e hreturns
    | ok tsRaw =>
      have hextUnbroken := (returns_resolveEntityId (hfields.scalar _ (by decide))).mp ⟨extId, hext⟩
      have htsUnbroken := (returns_resolveField (hfields.scalar _ (by decide))).mp ⟨tsRaw, hts⟩
      rw [returns_extractEntity_read hfields hid hdateutil hext hts]
      constructor
      · intro h
        refine ⟨hextUnbroken, htsUnbroken, ?_, ?_⟩
        · intro extId' tsRaw' hext' hts' hmissing
          cases hext.symm.trans hext'
          cases hts.symm.trans hts'
          exact (h hmissing).1
        · intro extId' tsRaw' t type hext' hts' hmissing hparse htype
          cases hext.symm.trans hext'
          cases hts.symm.trans hts'
          exact (h hmissing).2 t type hparse htype
      · intro h hmissing
        exact ⟨h.calendar extId tsRaw hext hts hmissing, fun t type hparse htype =>
          h.detail extId tsRaw t type hext hts hmissing hparse htype⟩

/-- **An extraction returns a result for exactly the payloads that have what it needs.** -/
theorem returns_extract {schemaDoc : JsonObject} {canonicalState classification : Option String}
    (hdoc : schemaFields schemaDoc = .ok fields)
    (hclass : (schemaClassification schemaDoc classification).truthy = true) :
    Returns (extract env payload eventId vendorId schemaDoc canonicalState classification) ↔
      Extractable env payload fields vendorId (schemaClassification schemaDoc classification) canonicalState := by
  have hnotFalsy : ¬ (!(schemaClassification schemaDoc classification).truthy) = true := by simp [hclass]
  rw [extract, if_neg hnotFalsy, hdoc]
  generalize schemaClassification schemaDoc classification = cls
  cases hraw : resolveField env.toUnicode payload (fields.get "event_type") with
  | error e =>
    refine iff_of_false ?_ fun h => ?_
    · simp only [bind, Except.bind, hraw]
      exact not_returns_error e
    · have hreturns := (returns_resolveField (hfields.scalar _ (by decide))).mpr h.eventType
      rw [hraw] at hreturns
      exact not_returns_error e hreturns
  | ok raw =>
    have hunbroken := (returns_resolveField (hfields.scalar "event_type" (by decide))).mp ⟨raw, hraw⟩
    have hentity : ∀ k state, cls = .str k.classification.value → canonicalState = some state →
        (EntityExtractable env payload fields vendorId k state ↔
          Extractable env payload fields vendorId cls canonicalState) := by
      rintro k state rfl rfl
      constructor
      · intro h
        refine ⟨hunbroken, fun hcls => ?_, fun k' state' hcls hstate => ?_⟩
        · exact absurd (Json.str.inj hcls) (by cases k <;> decide)
        · cases hstate
          have hk : k' = k := by
            have hvalue := Json.str.inj hcls
            revert hvalue
            cases k <;> cases k' <;> decide
          exact hk ▸ h
      · intro h
        exact h.entity k state rfl rfl
    have hresult : ∀ k state, (Returns (extractEntity env k payload eventId vendorId fields state >>= fun result =>
        (.ok ⟨raw.textIfTruthy env.toUnicode, result.map (.entity k)⟩ : Except PyError ExtractionResult)) ↔
          EntityExtractable env payload fields vendorId k state) := by
      intro k state
      rw [← returns_extractEntity hfields hid hdateutil, returns_bind]
      constructor
      · rintro ⟨result, hresult, -⟩
        exact ⟨result, hresult⟩
      · rintro ⟨result, hresult⟩
        exact ⟨result, hresult, .ok _⟩
    simp only [bind, Except.bind, hraw]
    by_cases hunclassified : cls = .str "unclassified"
    · rw [if_pos hunclassified]
      constructor
      · intro h
        obtain ⟨ev, hev, -⟩ := returns_bind.mp h
        refine ⟨hunbroken, fun _ => (returns_extractUnclassified hfields hid).mp ⟨ev, hev⟩, fun k state hcls => ?_⟩
        exact absurd (Json.str.inj (hunclassified.symm.trans hcls)) (by cases k <;> decide)
      · intro h
        have hreturns : Returns (extractUnclassified env payload eventId vendorId fields) :=
          (returns_extractUnclassified hfields hid).mpr (h.unclassified hunclassified)
        exact hreturns.bind fun ev _ => .ok _
    · rw [if_neg hunclassified]
      cases canonicalState with
      | none =>
        refine iff_of_true (.ok _) ⟨hunbroken, fun h => absurd h hunclassified, fun k state _ h => ?_⟩
        cases h
      | some state =>
        by_cases hshipment : cls = .str "shipment"
        · rw [← hentity .shipment state hshipment rfl, ← hresult .shipment state]
          simp only [if_pos hshipment]
          exact .rfl
        · by_cases hinvoice : cls = .str "invoice"
          · rw [← hentity .invoice state hinvoice rfl, ← hresult .invoice state]
            simp only [if_neg hshipment, if_pos hinvoice]
            exact .rfl
          · simp only [if_neg hshipment, if_neg hinvoice]
            refine iff_of_true (.ok _) ⟨hunbroken, fun h => absurd h hunclassified, fun k _ hcls _ => ?_⟩
            cases k with
            | shipment => exact absurd hcls hshipment
            | invoice => exact absurd hcls hinvoice

end Extraction

end WebhookIngestion
