import WebhookIngestion.LearnedSchemas

/-! # The leaves that a document names

A stored document names a path for each field, or a list of paths to fall back on, or a
template.  What the adapter reads for a field is the value that its paths lead to in the
payload (`SpecLeads`), and the raw event type, the id and the amount of an event are made
of such values. -/
namespace WebhookIngestion
open Text Programs

section Leaves
variable (u : Unicode) (payload : JsonObject)

/-! ### Specifications -/

/-- The value that a path of a document leads to; only texts are paths. -/
def Leads (path y : Json) : Prop := ∃ text, path = .str text ∧ text ≠ "" ∧ PathLeads u payload text y

/-- The part is a placeholder for a value that counts as one. -/
def Filled (part : Chars) : Prop :=
  ∃ path y, placeholder? part = some path ∧ PathLeads u payload path y ∧ y.truthy = true

/-- What a template is read as: the texts of its parts, without the separators around them, if one
of its placeholders is filled and something is left. -/
structure TemplateReads (template text : String) : Prop where
  filled : ∃ part ∈ splitTemplate false [] template.toList, Filled u payload part
  parts : ∃ texts, List.Forall₂ (PartReads u payload) (splitTemplate false [] template.toList) texts ∧
    String.ofList (trimSeparators texts.flatten) = text
  nonempty : text ≠ ""

/-- **The value that a specification leads to**: that of its path, of the first path of a list that
leads to one, or the text of its template. -/
inductive SpecLeads : Json → Json → Prop
  | path {text : String} {y : Json} (hleads : Leads u payload (.str text) y) : SpecLeads (.str text) y
  | list {before after : List Json} {path y : Json} (hbefore : ∀ path ∈ before, ∀ y, ¬ Leads u payload path y)
      (hleads : Leads u payload path y) : SpecLeads (.arr (before ++ path :: after)) y
  | template {spec : JsonObject} {template text : String} (htemplate : spec.get "template" = .str template)
      (hreads : TemplateReads u payload template text) : SpecLeads (.obj spec) (.str text)

variable {u payload}

/-- A path leads to the value that it is resolved to, unless that is null. -/
theorem leads_iff {path val y : Json} (h : resolvePath u payload path = .ok val) :
    Leads u payload path y ↔ y ≠ .null ∧ y = val := by
  by_cases htext : ∃ text, path = .str text ∧ text ≠ ""
  · obtain ⟨text, rfl, hne⟩ := htext
    constructor
    · rintro ⟨text', htext', -, hleads⟩
      cases htext'
      obtain ⟨hy, hval⟩ := (pathLeads_iff hne).mp hleads
      exact ⟨hy, Except.ok.inj (hval.symm.trans h)⟩
    · rintro ⟨hy, rfl⟩
      exact ⟨text, rfl, hne, (pathLeads_iff hne).mpr ⟨hy, h⟩⟩
  · -- what is no text, and counts as a value, raises
    have hval : val = .null := by
      unfold resolvePath at h
      split at h
      · rename_i htruthy
        cases path with
        | str text =>
          refine absurd ⟨text, rfl, ?_⟩ htext
          rintro rfl
          cases htruthy
        | null | bool | int | float | arr | obj => cases h
      · exact (Except.ok.inj h).symm
    constructor
    · rintro ⟨text, rfl, hne, -⟩
      exact absurd ⟨text, rfl, hne⟩ htext
    · rintro ⟨hy, rfl⟩
      exact absurd hval hy

theorem filled_iff {part : Chars} {r : Chars × Bool} (h : resolvePart u payload part = .ok r) :
    Filled u payload part ↔ r.2 = true := by
  rw [resolvePart] at h
  cases hpart : placeholder? part with
  | none =>
    rw [hpart] at h
    cases h
    refine iff_of_false ?_ Bool.false_ne_true
    rintro ⟨path, y, hsome, -⟩
    cases hpart.symm.trans hsome
  | some path =>
    rw [hpart] at h
    obtain ⟨val, hval, h⟩ := bind_eq_ok.mp h
    have hpath := placeholder?_ne_empty hpart
    constructor
    · rintro ⟨path', y, hsome, hleads, htruthy⟩
      cases hpart.symm.trans hsome
      obtain ⟨-, hy⟩ := (pathLeads_iff hpath).mp hleads
      cases hval.symm.trans hy
      rw [if_pos htruthy] at h
      exact congrArg Prod.snd (Except.ok.inj h).symm
    · intro hfilled
      by_cases htruthy : val.truthy = true
      · exact ⟨path, val, hpart, (pathLeads_iff hpath).mpr ⟨ne_null_of_truthy htruthy, hval⟩, htruthy⟩
      · rw [if_neg htruthy] at h
        cases h
        cases hfilled

/-- A template is read as the text that it is resolved to. -/
theorem templateReads_iff {template text : String} {r : Option String}
    (h : resolveTemplate u payload (.str template) = .ok r) :
    TemplateReads u payload template text ↔ r = some text := by
  rw [resolveTemplate] at h
  obtain ⟨parts, hparts, h⟩ := bind_eq_ok.mp h
  have htexts {texts : List Chars} := @forall₂_partReads_iff _ _ _ texts _ hparts
  have hfilled : (∃ part ∈ splitTemplate false [] template.toList, Filled u payload part) ↔
      parts.any Prod.snd = true := by
    rw [mapM_eq_ok] at hparts
    clear h htexts
    generalize splitTemplate false [] template.toList = pieces at hparts
    induction hparts with
    | nil => simp
    | cons hpart _ ih =>
      simp only [List.mem_cons, exists_eq_or_imp, List.any_cons, Bool.or_eq_true, ih, filled_iff hpart]
  have htrim : stripChar '-' (stripChar ':' (parts.flatMap Prod.fst)) =
      trimSeparators (parts.map Prod.fst).flatten := by rw [trimSeparators, List.flatMap_def]
  simp only [htrim] at h
  constructor
  · rintro ⟨hsome, ⟨texts, hreads, rfl⟩, hne⟩
    rw [htexts.mp hreads] at hne ⊢
    rw [if_pos (hfilled.mp hsome)] at h
    have hr := Except.ok.inj h
    rw [if_neg fun hempty => hne (by rw [hempty])] at hr
    exact hr.symm
  · rintro rfl
    split at h
    · rename_i hany
      have hr := Except.ok.inj h
      split at hr
      · cases hr
      · rename_i hne
        have htext := Option.some.inj hr
        refine ⟨hfilled.mpr hany, ⟨_, htexts.mpr rfl, htext⟩, ?_⟩
        rintro rfl
        exact hne (by simpa using congrArg String.toList htext)
    · cases h

theorem exists_leads_iff {paths : List Json} {val y : Json} (h : resolveFirst u payload paths = .ok val) :
    (∃ before path after, paths = before ++ path :: after ∧ (∀ path ∈ before, ∀ y, ¬ Leads u payload path y) ∧
      Leads u payload path y) ↔ y ≠ .null ∧ y = val := by
  induction paths with
  | nil =>
    cases h
    constructor
    · rintro ⟨before, path, after, hpaths, -⟩
      simp at hpaths
    · rintro ⟨hy, rfl⟩
      exact absurd rfl hy
  | cons path paths ih =>
    rw [resolveFirst] at h
    obtain ⟨first, hfirst, h⟩ := bind_eq_ok.mp h
    split at h
    · -- the first path leads nowhere
      rename_i hnull
      have hnot : ∀ y, ¬ Leads u payload path y := by
        intro y hleads
        obtain ⟨hy, rfl⟩ := (leads_iff hfirst).mp hleads
        exact hy hnull
      rw [← ih h]
      constructor
      · rintro ⟨before, path', after, hpaths, hbefore, hleads⟩
        cases before with
        | nil =>
          cases hpaths
          exact absurd hleads (hnot y)
        | cons _ before =>
          cases hpaths
          exact ⟨before, path', after, rfl, fun path hmem => hbefore path (List.mem_cons_of_mem _ hmem), hleads⟩
      · rintro ⟨before, path', after, rfl, hbefore, hleads⟩
        exact ⟨path :: before, path', after, rfl, List.forall_mem_cons.mpr ⟨hnot, hbefore⟩, hleads⟩
    · rename_i hne
      cases h
      constructor
      · rintro ⟨before, path', after, hpaths, hbefore, hleads⟩
        cases before with
        | nil =>
          cases hpaths
          exact (leads_iff hfirst).mp hleads
        | cons _ before =>
          cases hpaths
          exact absurd ((leads_iff hfirst).mpr ⟨hne, rfl⟩) (hbefore path List.mem_cons_self _)
      · intro hy
        exact ⟨[], path, paths, rfl, fun _ hmem => absurd hmem List.not_mem_nil, (leads_iff hfirst).mpr hy⟩

/-- An empty template has no placeholder. -/
theorem not_templateReads_empty (text : String) : ¬ TemplateReads u payload "" text := by
  rintro ⟨⟨part, hmem, path, y, hpart, -, -⟩, -, -⟩
  rw [String.toList_empty, splitTemplate, List.mem_singleton] at hmem
  rw [hmem] at hpart
  cases hpart

theorem exists_templateReads_iff {spec : JsonObject} {val y : Json} (h : resolveField u payload (.obj spec) = .ok val) :
    (∃ template text, spec.get "template" = .str template ∧ TemplateReads u payload template text ∧ y = .str text) ↔
      y ≠ .null ∧ y = val := by
  rw [resolveField] at h
  cases htemplate : JsonObject.get spec "template" with
  | str template =>
    by_cases hempty : template = ""
    · subst hempty
      rw [templateOf, htemplate] at h
      cases h
      constructor
      · rintro ⟨template, text, htext, hreads, -⟩
        cases htext
        exact absurd hreads (not_templateReads_empty text)
      · rintro ⟨hy, rfl⟩
        exact absurd rfl hy
    · have hspec : templateOf spec = some (.str template) := by
        simp only [templateOf, htemplate, Json.truthy, decide_eq_true_eq]
        rw [if_pos hempty]
      rw [hspec] at h
      obtain ⟨r, hr, h⟩ := bind_eq_ok.mp h
      cases h
      constructor
      · rintro ⟨template, text, htext, hreads, rfl⟩
        cases htext
        rw [(templateReads_iff hr).mp hreads]
        exact ⟨(fun h => by cases h), rfl⟩
      · rintro ⟨hy, rfl⟩
        cases r with
        | none => exact absurd rfl hy
        | some text => exact ⟨template, text, rfl, (templateReads_iff hr).mpr rfl, rfl⟩
  | null | bool | int | float | arr | obj =>
    -- what is no text is no template, and raises if it counts as one
    have hval : val = .null := by
      rw [templateOf, htemplate] at h
      split at h
      · rename_i hsome
        split at hsome
        · cases hsome
          cases h
        · cases hsome
      · exact (Except.ok.inj h).symm
    constructor
    · rintro ⟨template, text, htext, -⟩
      cases htext
    · rintro ⟨hy, rfl⟩
      exact absurd hval hy

/-- **A specification leads to the value that it is resolved to**, unless that is null. -/
theorem specLeads_iff {spec val y : Json} (h : resolveField u payload spec = .ok val) :
    SpecLeads u payload spec y ↔ y ≠ .null ∧ y = val := by
  cases spec with
  | str text =>
    have hpath : Leads u payload (.str text) y ↔ y ≠ .null ∧ y = val := leads_iff h
    rw [← hpath]
    constructor
    · intro hleads
      cases hleads with
      | path hleads => exact hleads
    · exact .path
  | arr paths =>
    rw [← exists_leads_iff h]
    constructor
    · intro hleads
      cases hleads with
      | list hbefore hleads => exact ⟨_, _, _, rfl, hbefore, hleads⟩
    · rintro ⟨before, path, after, rfl, hbefore, hleads⟩
      exact .list hbefore hleads
  | obj spec =>
    rw [← exists_templateReads_iff h]
    constructor
    · intro hleads
      cases hleads with
      | template htemplate hreads => exact ⟨_, _, htemplate, hreads, rfl⟩
    · rintro ⟨template, text, htemplate, hreads, rfl⟩
      exact .template htemplate hreads
  | null | bool | int | float =>
    cases h
    constructor
    · intro hleads
      cases hleads
    · rintro ⟨hy, rfl⟩
      exact absurd rfl hy

/-! ### Ids, event types and amounts -/

variable (u payload) in
/-- The text that a specification names: that of the value it leads to, if it counts as one. -/
def NamesText (spec : Json) (text : String) : Prop :=
  ∃ y, SpecLeads u payload spec y ∧ y.truthy = true ∧ y.text u = text

theorem namesText_iff {spec val : Json} {text : String} (h : resolveField u payload spec = .ok val) :
    NamesText u payload spec text ↔ val.textIfTruthy u = some text := by
  rw [Json.textIfTruthy]
  constructor
  · rintro ⟨y, hleads, htruthy, rfl⟩
    obtain ⟨-, rfl⟩ := (specLeads_iff h).mp hleads
    rw [if_pos htruthy]
  · intro htext
    split at htext
    · rename_i htruthy
      exact ⟨val, (specLeads_iff h).mpr ⟨ne_null_of_truthy htruthy, rfl⟩, htruthy, Option.some.inj htext⟩
    · cases htext

variable (u payload) in
/-- The id that a document names; a list of paths names none. -/
def NamesId (spec : Json) (id : String) : Prop := (∀ paths, spec ≠ .arr paths) ∧ NamesText u payload spec id

/-- A document names the id that the adapter reads. -/
theorem namesId_iff {fields : JsonObject} {id : String} {r : Option String}
    (h : resolveEntityId u payload fields = .ok r) :
    NamesId u payload (fields.get "entity_external_id") id ↔ r = some id := by
  rw [resolveEntityId] at h
  rw [NamesId]
  cases hspec : fields.get "entity_external_id" with
  | str path =>
    rw [hspec] at h
    obtain ⟨val, hval, h⟩ := bind_eq_ok.mp h
    cases h
    have htext : NamesText u payload (.str path) id ↔ val.textIfTruthy u = some id := namesText_iff hval
    rw [htext]
    exact and_iff_right fun paths hpaths => by cases hpaths
  | obj spec =>
    rw [hspec] at h
    have hfield : resolveField u payload (.obj spec) = .ok (Json.ofText r) := by
      simp only at h
      rw [resolveField]
      split at h
      · simp only [h]
        rfl
      · cases h
        rfl
    have hempty : r ≠ some "" := by
      rintro rfl
      simp only at h
      split at h
      · rename_i template htemplate
        cases template with
        | str template => exact ((templateReads_iff h).mpr rfl).nonempty rfl
        | null | bool | int | float | arr | obj => cases h
      · cases h
    rw [namesText_iff hfield]
    refine (and_iff_right fun paths hpaths => by cases hpaths).trans ?_
    cases r with
    | none => simp [Json.ofText, Json.textIfTruthy, Json.truthy]
    | some text =>
      have htruthy : (Json.ofText (some text)).truthy = true := by
        rw [Json.ofText, Json.truthy, decide_eq_true_iff]
        rintro rfl
        exact hempty rfl
      rw [Json.textIfTruthy, if_pos htruthy]
      rfl
  | arr paths =>
    rw [hspec] at h
    cases h
    refine iff_of_false ?_ fun h => by cases h
    rintro ⟨hnot, -⟩
    exact hnot paths rfl
  | null | bool | int | float =>
    rw [hspec] at h
    cases h
    refine iff_of_false ?_ fun h => by cases h
    rintro ⟨-, y, hleads, -⟩
    cases hleads

end Leaves

section Amounts
variable (env : Externals) (payload : JsonObject)

/-- The amount that a specification names: that of its text, if it can be read as one. -/
inductive NamesAmount (spec : Json) : Option Money → Prop
  | some {text : String} {money : Money} (htext : NamesText env.toUnicode payload spec text)
      (hparse : parseMoney env text = .ok (money.currency, money.amountMinor)) : NamesAmount spec (some money)
  | none (hnone : ∀ text (money : Money), NamesText env.toUnicode payload spec text →
      parseMoney env text ≠ .ok (money.currency, money.amountMinor)) : NamesAmount spec none

variable {env payload}

/-- A document names the amount that the adapter reads. -/
theorem namesAmount_iff {spec : Json} {amount r : Option Money} (h : extractAmount env payload spec = .ok r) :
    NamesAmount env payload spec amount ↔ r = amount := by
  rw [extractAmount] at h
  obtain ⟨val, hval, h⟩ := bind_eq_ok.mp h
  have htext {text : String} : NamesText env.toUnicode payload spec text ↔
      val.textIfTruthy env.toUnicode = some text := namesText_iff hval
  -- what the text is parsed as is the amount that was read
  have hnamed {money : Money} : (∃ text, NamesText env.toUnicode payload spec text ∧
      parseMoney env text = .ok (money.currency, money.amountMinor)) ↔ r = some money := by
    simp only [htext, Json.textIfTruthy]
    cases htruthy : val.truthy with
    | false =>
      rw [htruthy] at h
      cases h
      simp
    | true =>
      rw [htruthy] at h
      simp only [Bool.not_true, Bool.false_eq_true, if_false] at h
      simp only [if_true, Option.some.injEq, exists_eq_left']
      constructor
      · intro hparse
        rw [hparse] at h
        have hvalid := Money.validate_eq_ok.mpr (⟨rfl, rfl⟩ : money.currency = money.currency ∧
          (money.amountMinor : Int) = money.amountMinor)
        simp only [bind, Except.bind, hvalid, orNone] at h
        exact (Except.ok.inj h).symm
      · rintro rfl
        obtain ⟨⟨currency, amountMinor⟩, hparse, hvalid⟩ := bind_eq_ok.mp (orNone_eq_some.mp h)
        obtain ⟨rfl, rfl⟩ := Money.validate_eq_ok.mp hvalid
        exact hparse
  constructor
  · intro hnames
    cases hnames with
    | some htext hparse => exact hnamed.mp ⟨_, htext, hparse⟩
    | none hnone =>
      cases hr : r with
      | none => rfl
      | some money =>
        obtain ⟨text, htext, hparse⟩ := hnamed.mpr hr
        exact absurd hparse (hnone text money htext)
  · rintro rfl
    cases hr : r with
    | none =>
      refine .none fun text money htext hparse => ?_
      cases hr.symm.trans (hnamed.mp ⟨text, htext, hparse⟩)
    | some money =>
      obtain ⟨text, htext, hparse⟩ := hnamed.mpr hr
      exact .some htext hparse

end Amounts

end WebhookIngestion
