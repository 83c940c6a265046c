import WebhookIngestion.ServiceRuns

/-! # What is learned, and what is found again

Looking a schema up depends on what the rows for the vendor and the fingerprint say, and on
nothing else (`lookupSchema_congr`); after a lesson it finds the lesson or what it found
before (`lookupSchema_insert`). -/
namespace WebhookIngestion
open Tables Text Programs Runs

/-! ### Looking a schema up -/

theorem schemaRank_iff (a b : SchemaKey × VendorSchema) : schemaRank a b = true ↔
    (b.2.status = .active → a.2.status = .active) ∧
      ((a.2.status = .active ↔ b.2.status = .active) → b.1.schemaVersion ≤ a.1.schemaVersion) := by
  rw [schemaRank]
  by_cases ha : a.2.status = .active <;> by_cases hb : b.2.status = .active <;> simp [ha, hb]

instance : IsTrans (SchemaKey × VendorSchema) (fun a b => schemaRank a b) where
  trans a b c hab hbc := by
    simp only [schemaRank_iff] at *
    by_cases ha : a.2.status = .active <;> by_cases hb : b.2.status = .active <;>
      by_cases hc : c.2.status = .active <;> simp_all <;> omega

instance : Std.Total (fun a b : SchemaKey × VendorSchema => schemaRank a b = true) where
  total a b := by
    simp only [schemaRank_iff]
    by_cases ha : a.2.status = .active <;> by_cases hb : b.2.status = .active <;> simp [ha, hb] <;> omega

theorem mem_schemaCandidates {schemas : Table SchemaKey VendorSchema} {vendorId fingerprint : String}
    {key : SchemaKey} {row : VendorSchema} :
    (key, row) ∈ schemaCandidates schemas vendorId fingerprint ↔ schemas.lookup key = some row ∧
      key.vendorId = vendorId ∧ key.structuralFingerprint = fingerprint ∧ row.status ≠ .deprecated := by
  simp only [schemaCandidates, List.mem_filter, List.mem_map, decide_eq_true_eq]
  constructor
  · rintro ⟨⟨⟨key', row'⟩, hmem, he⟩, hrest⟩
    cases he
    exact ⟨mem_entries_iff.mp hmem, hrest⟩
  · rintro ⟨hlookup, hrest⟩
    exact ⟨⟨⟨key, row⟩, mem_entries_iff.mpr hlookup, rfl⟩, hrest⟩

/-- The row that a lookup chooses. -/
structure Chosen (schemas : Table SchemaKey VendorSchema) (vendorId fingerprint : String)
    (key : SchemaKey) (row : VendorSchema) : Prop where
  lookup : schemas.lookup key = some row
  vendorId_eq : key.vendorId = vendorId
  fingerprint_eq : key.structuralFingerprint = fingerprint
  live : row.status ≠ .deprecated
  first : ∀ key' row', schemas.lookup key' = some row' → key'.vendorId = vendorId →
    key'.structuralFingerprint = fingerprint → row'.status ≠ .deprecated →
      schemaRank (key, row) (key', row') = true

/-- **A lookup finds the first row in its order**, in whatever order the table has them. -/
theorem lookupSchema_eq_some {schemas : Table SchemaKey VendorSchema} {vendorId fingerprint : String}
    {schemaMatch : SchemaMatch} : lookupSchema schemas vendorId fingerprint = some schemaMatch ↔
      ∃ key row, Chosen schemas vendorId fingerprint key row ∧ schemaMatch = ⟨row.id, row.schemaDoc⟩ := by
  have hsorted := List.pairwise_insertionSort (fun a b => schemaRank a b = true)
    (schemaCandidates schemas vendorId fingerprint)
  have hmem : ∀ {a}, a ∈ (schemaCandidates schemas vendorId fingerprint).insertionSort
      (fun a b => schemaRank a b = true) ↔ a ∈ schemaCandidates schemas vendorId fingerprint :=
    List.mem_insertionSort _
  rw [lookupSchema, Option.map_eq_some_iff]
  generalize (schemaCandidates schemas vendorId fingerprint).insertionSort
    (fun a b => schemaRank a b = true) = sorted at *
  cases sorted with
  | nil =>
    refine ⟨fun ⟨_, h, _⟩ => (nomatch h), fun ⟨key, row, hchosen, _⟩ => ?_⟩
    have hcandidate := hmem.mpr (mem_schemaCandidates.mpr
      ⟨hchosen.lookup, hchosen.vendorId_eq, hchosen.fingerprint_eq, hchosen.live⟩)
    cases hcandidate
  | cons head rest =>
    obtain ⟨key, row⟩ := head
    obtain ⟨hlookup, hvendor, hfingerprint, hlive⟩ :=
      mem_schemaCandidates.mp (hmem.mp (List.mem_cons_self (a := (key, row)) (l := rest)))
    have hself : schemaRank (key, row) (key, row) = true := by simp [schemaRank_iff]
    have hfirst : ∀ key' row', schemas.lookup key' = some row' → key'.vendorId = vendorId →
        key'.structuralFingerprint = fingerprint → row'.status ≠ .deprecated →
          schemaRank (key, row) (key', row') = true := by
      intro key' row' h' hv hf hl
      rcases List.mem_cons.mp (hmem.mpr (mem_schemaCandidates.mpr ⟨h', hv, hf, hl⟩)) with he | hm
      · rw [he]
        exact hself
      · exact (List.pairwise_cons.mp hsorted).1 _ hm
    constructor
    · rintro ⟨_, hhead, rfl⟩
      cases hhead
      exact ⟨key, row, ⟨hlookup, hvendor, hfingerprint, hlive, hfirst⟩, rfl⟩
    · rintro ⟨key', row', hchosen, rfl⟩
      -- two first rows have the same version, and so the same key
      have h := hfirst key' row' hchosen.lookup hchosen.vendorId_eq hchosen.fingerprint_eq hchosen.live
      have h' := hchosen.first key row hlookup hvendor hfingerprint hlive
      rw [schemaRank_iff] at h h'
      have hversion : key.schemaVersion = key'.schemaVersion :=
        Nat.le_antisymm (h'.2 ⟨h.1, h'.1⟩) (h.2 ⟨h'.1, h.1⟩)
      have hkey : key' = key := by
        obtain ⟨vendor, print, version⟩ := key
        obtain ⟨vendor', print', version'⟩ := key'
        cases hvendor.trans hchosen.vendorId_eq.symm
        cases hfingerprint.trans hchosen.fingerprint_eq.symm
        cases hversion
        rfl
      subst hkey
      cases hlookup.symm.trans hchosen.lookup
      exact ⟨_, rfl, rfl⟩

/-- **Rows that say the same are found alike.** -/
theorem lookupSchema_congr {schemas schemas' : Table SchemaKey VendorSchema} {vendorId fingerprint : String}
    (h : ∀ key, key.vendorId = vendorId → key.structuralFingerprint = fingerprint →
      (schemas'.lookup key).map VendorSchema.lesson = (schemas.lookup key).map VendorSchema.lesson) :
    lookupSchema schemas' vendorId fingerprint = lookupSchema schemas vendorId fingerprint := by
  have hfound : ∀ {schemas schemas' : Table SchemaKey VendorSchema},
      (∀ key, key.vendorId = vendorId → key.structuralFingerprint = fingerprint →
        (schemas'.lookup key).map VendorSchema.lesson = (schemas.lookup key).map VendorSchema.lesson) →
      ∀ schemaMatch, lookupSchema schemas vendorId fingerprint = some schemaMatch →
        lookupSchema schemas' vendorId fingerprint = some schemaMatch := by
    intro schemas schemas' h schemaMatch hsome
    obtain ⟨key, row, hchosen, rfl⟩ := lookupSchema_eq_some.mp hsome
    have hsame := h key hchosen.vendorId_eq hchosen.fingerprint_eq
    rw [hchosen.lookup, Option.map_some] at hsame
    obtain ⟨row', hrow', hlesson⟩ := Option.map_eq_some_iff.mp hsame
    simp only [VendorSchema.lesson, Prod.mk.injEq] at hlesson
    obtain ⟨hid, hdoc, hstatus⟩ := hlesson
    refine lookupSchema_eq_some.mpr ⟨key, row', ⟨hrow', hchosen.vendorId_eq, hchosen.fingerprint_eq,
      hstatus ▸ hchosen.live, fun key₂ row₂ hrow₂ hv hf hl => ?_⟩, by rw [hid, hdoc]⟩
    have hsame₂ := h key₂ hv hf
    rw [hrow₂, Option.map_some] at hsame₂
    obtain ⟨row₁, hrow₁, hlesson₁⟩ := Option.map_eq_some_iff.mp hsame₂.symm
    simp only [VendorSchema.lesson, Prod.mk.injEq] at hlesson₁
    have hrank := hchosen.first key₂ row₁ hrow₁ hv hf (by rw [hlesson₁.2.2]; exact hl)
    rw [schemaRank_iff] at hrank ⊢
    rw [hstatus, ← hlesson₁.2.2]
    exact hrank
  refine Option.ext fun schemaMatch => ⟨hfound (fun key hv hf => (h key hv hf).symm) schemaMatch,
    hfound h schemaMatch⟩

/-- Where there is a live row, a row is found. -/
theorem lookupSchema_of_live {schemas : Table SchemaKey VendorSchema} {vendorId fingerprint : String}
    {key : SchemaKey} {row : VendorSchema} (hrow : schemas.lookup key = some row) (hvendor : key.vendorId = vendorId)
    (hfingerprint : key.structuralFingerprint = fingerprint) (hlive : row.status ≠ .deprecated) :
    ∃ schemaMatch, lookupSchema schemas vendorId fingerprint = some schemaMatch := by
  have hcandidate := mem_schemaCandidates.mpr ⟨hrow, hvendor, hfingerprint, hlive⟩
  have hmem := (List.mem_insertionSort (fun a b => schemaRank a b = true)).mpr hcandidate
  rw [lookupSchema]
  cases hsorted : (schemaCandidates schemas vendorId fingerprint).insertionSort (fun a b => schemaRank a b = true) with
  | nil =>
    rw [hsorted] at hmem
    cases hmem
  | cons head rest => exact ⟨_, rfl⟩

/-- **After a lesson it is the lesson that is found, or what was found before.** -/
theorem lookupSchema_insert {schemas : Table SchemaKey VendorSchema} {key : SchemaKey} {row : VendorSchema}
    (hlive : row.status ≠ .deprecated) (hstatus : ∀ old, schemas.lookup key = some old → old.status = row.status) :
    ∃ schemaMatch,
      lookupSchema (schemas.insert key row) key.vendorId key.structuralFingerprint = some schemaMatch ∧
        (schemaMatch = ⟨row.id, row.schemaDoc⟩ ∨
          lookupSchema schemas key.vendorId key.structuralFingerprint = some schemaMatch) := by
  have hself : (schemas.insert key row).lookup key = some row := by rw [lookup_insert_eq, if_pos rfl]
  obtain ⟨schemaMatch, hfound⟩ := lookupSchema_of_live hself rfl rfl hlive
  refine ⟨schemaMatch, hfound, ?_⟩
  obtain ⟨key', row', hchosen, rfl⟩ := lookupSchema_eq_some.mp hfound
  have hlookup := hchosen.lookup
  rw [lookup_insert_eq] at hlookup
  split at hlookup
  · cases hlookup
    exact .inl rfl
  · refine .inr (lookupSchema_eq_some.mpr ⟨key', row', ⟨hlookup, hchosen.vendorId_eq, hchosen.fingerprint_eq,
      hchosen.live, fun key₂ row₂ hrow₂ hv hf hl => ?_⟩, rfl⟩)
    by_cases hkey : key₂ = key
    · -- the row that the lesson has replaced stood where the lesson stands
      subst hkey
      have hrank := hchosen.first key₂ row hself hv hf hlive
      rw [schemaRank_iff] at hrank ⊢
      rw [hstatus row₂ hrow₂]
      exact hrank
    · refine hchosen.first key₂ row₂ ?_ hv hf hl
      rw [lookup_insert_eq, if_neg hkey]
      exact hrow₂

end WebhookIngestion
