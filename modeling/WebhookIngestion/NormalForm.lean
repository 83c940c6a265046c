import WebhookIngestion.Normalizer

/-! # The normal form of an event

Normalizing what was normalized changes nothing (`normalize_normalize`).  So an event that
has passed the checkpoint can be told from others by looking at it (`Normal`), and may pass
it again, whatever adapter, replay or reader takes it up. -/
namespace WebhookIngestion
open Text Programs

/-! ### The helpers -/

theorem stripOrNone_stripOrNone (val : Option String) : stripOrNone (stripOrNone val) = stripOrNone val := by
  cases val with
  | none => rfl
  | some text =>
    by_cases hblank : strip text = ""
    · have hnone : stripOrNone (some text) = none := if_pos hblank
      rw [hnone]
      rfl
    · have hsome : stripOrNone (some text) = some (strip text) := if_neg hblank
      rw [hsome, stripOrNone, Option.map_some, strip_strip]
      exact if_neg hblank

theorem toUtc_toUtc {t t' : DateTime} (h : toUtc t = .ok t') : toUtc t' = .ok t' := by
  obtain ⟨rfl, hrange⟩ := astimezoneUtc_eq_ok h
  exact astimezoneUtc_zero hrange

theorem clampConfidence_clampConfidence (val : Rat) :
    clampConfidence (clampConfidence val) = clampConfidence val := by
  obtain ⟨hlow, hhigh⟩ := clampConfidence_range val
  show max 0 (min 1 (clampConfidence val)) = clampConfidence val
  rw [min_eq_right hhigh, max_eq_right hlow]

theorem normalizeLocation_normalizeLocation (loc : Option Location) :
    normalizeLocation (normalizeLocation loc) = normalizeLocation loc := by
  cases loc with
  | none => rfl
  | some loc =>
    by_cases hnowhere : (stripOrNone loc.code).isNone ∧ (stripOrNone loc.name).isNone
    · have hnone : normalizeLocation (some loc) = none := if_pos hnowhere
      rw [hnone]
      rfl
    · have hsome : normalizeLocation (some loc) =
          some ⟨stripOrNone loc.code, stripOrNone loc.name, loc.latitude, loc.longitude⟩ := if_neg hnowhere
      rw [hsome]
      simp only [normalizeLocation, stripOrNone_stripOrNone, if_neg hnowhere]

theorem cleanRefDict_cleanRefDict (refs : JsonObject) : cleanRefDict (cleanRefDict refs) = cleanRefDict refs := by
  unfold cleanRefDict
  rw [List.filterMap_filterMap]
  congr 1
  funext ⟨key, value⟩
  cases value with
  | str text =>
    by_cases hblank : strip text = ""
    · simp [hblank]
    · simp [hblank, strip_strip]
  | _ => rfl

theorem normalizeBase_normalizeBase (base : CanonicalBase) :
    normalizeBase (normalizeBase base) = normalizeBase base := by
  unfold normalizeBase
  simp only [strip_strip, clampConfidence_clampConfidence]

/-! ### The normal form -/

/-- The event has passed the normalizer, or might as well have. -/
def Normal (event : CanonicalEvent) : Prop := normalize event = .ok event

/-- **Normalizing twice is normalizing once.** -/
theorem normalize_normalize {event normalized : CanonicalEvent} (h : normalize event = .ok normalized) :
    Normal normalized := by
  cases event with
  | entity k ev =>
    cases k with
    | shipment =>
      simp only [normalize, normalizeShipment, bind_eq_ok, CanonicalEntityEvent.validate_eq_ok] at h
      obtain ⟨_, ⟨t, ht, hvalid, rfl⟩, h⟩ := h
      obtain rfl := Except.ok.inj h
      simp only [Normal, normalize, normalizeShipment, bind_eq_ok, CanonicalEntityEvent.validate_eq_ok]
      refine ⟨_, ⟨t, toUtc_toUtc ht, ?_, rfl⟩, ?_⟩
      · rw [normalizeBase_normalizeBase]
        exact hvalid
      · simp only [normalizeBase_normalizeBase, strip_strip, cleanRefDict_cleanRefDict,
          normalizeLocation_normalizeLocation, stripOrNone_stripOrNone]
        rfl
    | invoice =>
      simp only [normalize, normalizeInvoice, bind_eq_ok, CanonicalEntityEvent.validate_eq_ok] at h
      obtain ⟨_, ⟨t, ht, amount, -, dueAt, hdue, hvalid, rfl⟩, h⟩ := h
      obtain rfl := Except.ok.inj h
      simp only [Normal, normalize, normalizeInvoice, bind_eq_ok, CanonicalEntityEvent.validate_eq_ok]
      refine ⟨_, ⟨t, toUtc_toUtc ht, amount, normalizeMoney_eq amount, dueAt, ?_, ?_, rfl⟩, ?_⟩
      · cases hold : ev.detail.dueAt with
        | none =>
          rw [hold] at hdue
          obtain rfl := Except.ok.inj hdue
          rfl
        | some due =>
          rw [hold, Option.mapM_some, map_eq_ok] at hdue
          obtain ⟨due', hdue', rfl⟩ := hdue
          rw [Option.mapM_some, toUtc_toUtc hdue']
          rfl
      · rw [normalizeBase_normalizeBase]
        exact hvalid
      · simp only [normalizeBase_normalizeBase, strip_strip, cleanRefDict_cleanRefDict, stripOrNone_stripOrNone]
        rfl
  | unclassified ev =>
    simp only [normalize, normalizeUnclassified, CanonicalUnclassifiedEvent.validate, bind_eq_ok] at h
    obtain ⟨_, ⟨checked, hvalid, h'⟩, h⟩ := h
    obtain rfl := Except.ok.inj h'
    obtain rfl := Except.ok.inj h
    simp only [Normal, normalize, normalizeUnclassified, CanonicalUnclassifiedEvent.validate, bind_eq_ok]
    refine ⟨_, ⟨checked, ?_, rfl⟩, ?_⟩
    · rw [normalizeBase_normalizeBase]
      exact hvalid
    · simp only [normalizeBase_normalizeBase, stripOrNone_stripOrNone]
      rfl

/-! ### What a normal event is like -/

section Normal
variable {event : CanonicalEvent} (h : Normal event)
include h

/-- The names of a normal event are stripped, and its confidence is a probability. -/
theorem Normal.base_eq : normalizeBase event.base = event.base := (base_of_normalize h).symm

theorem Normal.confidence_range : 0 ≤ event.base.confidence ∧ event.base.confidence ≤ 1 := by
  rw [← h.base_eq]
  exact clampConfidence_range event.base.confidence

end Normal

end WebhookIngestion
