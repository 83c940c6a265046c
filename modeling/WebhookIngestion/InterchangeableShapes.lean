import WebhookIngestion.DiscoveredPaths

/-! # Payloads of one fingerprint

A fingerprint keeps, for each node, its path and its type, with all items of an array
under one path.  Between payloads whose keys a path can spell, equal fingerprints mean
that a leaf of one has a leaf of its type in the other, at the same keys; where no array
is on the way, that is the leaf a schema's path resolves to. -/
namespace WebhookIngestion
open Text

/-! ### The nodes of a shape -/

/-- What a step adds to a path of the fingerprint's walk. -/
def PathStep.shapeChars : PathStep → Chars
  | key k => '.' :: k.toList
  | index _ => ['[', ']']

def Place.shapeChars (loc : Place) : Chars := loc.flatMap PathStep.shapeChars

/-- The type the fingerprint's walk records at a node. -/
def nodeType : Json → String
  | .obj _ => "object"
  | .arr _ => "array"
  | x => (leafType x).getD ""

theorem leafType_of_nodeType {x y : Json} (hx : x.IsLeaf) (h : nodeType y = nodeType x) : leafType y = leafType x := by
  cases x <;> cases y <;> simp_all [nodeType, leafType, Json.IsLeaf]

theorem key_shapePath (before : Chars) (k : String) :
    String.ofList before ++ "." ++ k = String.ofList (before ++ (PathStep.key k).shapeChars) := by
  rw [← String.toList_inj]
  simp [PathStep.shapeChars]

theorem index_shapePath (before : Chars) (i : Nat) :
    String.ofList before ++ "[]" = String.ofList (before ++ (PathStep.index i).shapeChars) := by
  rw [← String.toList_inj]
  simp [PathStep.shapeChars]

/-- Each node is recorded, under its path and with its type. -/
theorem mem_shape_of_nodeAt {x y : Json} {loc : Place} (h : x.nodeAt loc = some y) (before : Chars) :
    (String.ofList (before ++ loc.shapeChars), nodeType y) ∈ shape [] (String.ofList before) x := by
  induction loc generalizing x before with
  | nil =>
    rw [Json.nodeAt_nil, Option.some.injEq] at h
    subst h
    have hnil : before ++ Place.shapeChars [] = before := by simp [Place.shapeChars]
    rw [hnil]
    cases x <;> simp [shape, nodeType, leafType]
  | cons step loc ih =>
    have hcons : before ++ Place.shapeChars (step :: loc) = before ++ step.shapeChars ++ Place.shapeChars loc := by
      simp [Place.shapeChars]
    rw [hcons]
    cases x with
    | obj fields =>
      cases step with
      | key k =>
        obtain ⟨child, hchild, h⟩ := Option.bind_eq_some_iff.mp h
        refine (mem_shape_obj List.not_mem_nil).mpr (.inr ⟨(k, child), mem_of_lookup hchild, ?_⟩)
        rw [key_shapePath]
        exact ih h _
      | index i => cases h
    | arr items =>
      cases step with
      | key k => cases h
      | index i =>
        obtain ⟨child, hchild, h⟩ := Option.bind_eq_some_iff.mp h
        refine (mem_shape_arr List.not_mem_nil).mpr (.inr ⟨child, List.mem_of_getElem? hchild, ?_⟩)
        rw [index_shapePath _ i]
        exact ih h _
    | null | bool | int | float | str => cases step <;> cases h

/-- What is recorded is the path and the type of some node. -/
theorem nodeAt_of_mem_shape {entry : String × String} :
    ∀ {x : Json}, x.Dicts → ∀ {before : Chars}, entry ∈ shape [] (String.ofList before) x →
      ∃ (loc : Place) (y : Json), x.nodeAt loc = some y ∧
        entry = (String.ofList (before ++ loc.shapeChars), nodeType y)
  | .obj fields, hx, before, h => by
    rcases (mem_shape_obj List.not_mem_nil).mp h with rfl | ⟨⟨k, child⟩, hfield, hmem⟩
    · exact ⟨[], .obj fields, rfl, by simp [Place.shapeChars, nodeType]⟩
    · have hlookup := lookup_of_mem (hx [] fields rfl) hfield
      have hchild : (Json.obj fields).nodeAt [.key k] = some child := by simp [hlookup]
      rw [key_shapePath] at hmem
      have hlt := List.sizeOf_lt_of_mem hfield
      obtain ⟨loc, y, hy, rfl⟩ := nodeAt_of_mem_shape (hx.nodeAt hchild) hmem
      exact ⟨.key k :: loc, y, by simp [hlookup, hy], by simp [Place.shapeChars]⟩
  | .arr items, hx, before, h => by
    rcases (mem_shape_arr List.not_mem_nil).mp h with rfl | ⟨child, hitem, hmem⟩
    · exact ⟨[], .arr items, rfl, by simp [Place.shapeChars, nodeType]⟩
    · obtain ⟨i, hi⟩ := List.mem_iff_getElem?.mp hitem
      have hchild : (Json.arr items).nodeAt [.index i] = some child := by simp [hi]
      rw [index_shapePath _ i] at hmem
      have hlt := List.sizeOf_lt_of_mem hitem
      obtain ⟨loc, y, hy, rfl⟩ := nodeAt_of_mem_shape (hx.nodeAt hchild) hmem
      exact ⟨.index i :: loc, y, by simp [hi, hy], by simp [Place.shapeChars]⟩
  | .null, _, _, h | .bool _, _, _, h | .int _, _, _, h | .float _, _, _, h | .str _, _, _, h => by
    simp only [shape, List.not_mem_nil, if_false, List.mem_singleton] at h
    exact ⟨[], _, rfl, by simp [h, Place.shapeChars, nodeType, leafType]⟩
termination_by x => sizeOf x
decreasing_by
  · simp only [Prod.mk.sizeOf_spec] at hlt
    simp only [Json.obj.sizeOf_spec]
    omega
  · simp only [Json.arr.sizeOf_spec]
    omega

/-! ### Keys that a path can spell -/

/-- A key without the separators of paths, that is neither empty nor `$`. -/
def plainKey (k : String) : Bool :=
  k ≠ "" && k ≠ "$" && !k.toList.contains '.' && !k.toList.contains '[' && !k.toList.contains ']'

theorem plainKey_iff {k : String} :
    plainKey k = true ↔ k ≠ "" ∧ k ≠ "$" ∧ '.' ∉ k.toList ∧ '[' ∉ k.toList ∧ ']' ∉ k.toList := by
  simp [plainKey, and_assoc]

/-- The keys of a place. -/
def Place.PlainKeys (loc : Place) : Prop := ∀ k, PathStep.key k ∈ loc → plainKey k = true

/-- All keys of a document. -/
def Json.PlainKeys (x : Json) : Prop :=
  ∀ loc fields, x.nodeAt loc = some (.obj fields) → ∀ k ∈ fields.map Prod.fst, plainKey k = true

theorem Json.PlainKeys.place {x y : Json} (h : x.PlainKeys) {loc : Place} (hy : x.nodeAt loc = some y) :
    loc.PlainKeys := by
  intro k hk
  obtain ⟨before, after, rfl⟩ := List.append_of_mem hk
  rw [Json.nodeAt_append] at hy
  obtain ⟨node, hnode, hy⟩ := Option.bind_eq_some_iff.mp hy
  cases node with
  | obj fields =>
    obtain ⟨child, hchild, -⟩ := Option.bind_eq_some_iff.mp hy
    exact h before fields hnode k (List.mem_map.mpr ⟨_, mem_of_lookup hchild, rfl⟩)
  | null | bool | int | float | str | arr => cases hy

theorem Json.plainKeys_of_everyObject {x : Json} (h : x.everyObject (fun keys => keys.all plainKey) = true) :
    x.PlainKeys :=
  fun _ _ hfields => List.all_eq_true.mp (Json.everyObject_nodeAt h hfields)

/-- The steps with the indices left out. -/
def PathStep.merged : PathStep → Option String
  | key k => some k
  | index _ => none

theorem stops_shapeChars (loc : Place) :
    Delimited.Stops (fun c => decide (c ≠ '.' ∧ c ≠ '[')) loc.shapeChars := by
  cases loc with
  | nil => exact .nil
  | cons step loc => cases step <;> exact .cons (by decide) _

/-- Plain keys and the places of brackets can be read off a path of the fingerprint. -/
theorem merged_eq_of_shapeChars {loc loc' : Place} (hloc : loc.PlainKeys) (hloc' : loc'.PlainKeys)
    (h : loc.shapeChars = loc'.shapeChars) : loc.map PathStep.merged = loc'.map PathStep.merged := by
  induction loc generalizing loc' with
  | nil =>
    cases loc' with
    | nil => rfl
    | cons step loc' => cases step <;> cases h
  | cons step loc ih =>
    have htail : Place.PlainKeys loc := fun k hk => hloc k (List.mem_cons_of_mem _ hk)
    cases loc' with
    | nil => cases step <;> cases h
    | cons step' loc' =>
      have htail' : Place.PlainKeys loc' := fun k hk => hloc' k (List.mem_cons_of_mem _ hk)
      cases step with
      | index i =>
        cases step' with
        | index i' =>
          have hrest : ['[', ']'] ++ Place.shapeChars loc = ['[', ']'] ++ Place.shapeChars loc' := h
          rw [List.map_cons, List.map_cons, ih htail htail' (List.append_cancel_left hrest)]
          rfl
        | key k' => cases (List.cons.inj h).1
      | key k =>
        cases step' with
        | index i' => cases (List.cons.inj h).1
        | key k' =>
          have hseparated {k : String} (hk : plainKey k = true) :
              ∀ c ∈ k.toList, decide (c ≠ '.' ∧ c ≠ '[') = true := by
            obtain ⟨-, -, hdot, hbracket, -⟩ := plainKey_iff.mp hk
            intro c hc
            rw [decide_eq_true_iff]
            exact ⟨fun h => hdot (h ▸ hc), fun h => hbracket (h ▸ hc)⟩
          obtain ⟨hk, hrest⟩ := Delimited.append_inj (hseparated (hloc k List.mem_cons_self))
            (hseparated (hloc' k' List.mem_cons_self)) (stops_shapeChars loc) (stops_shapeChars loc')
            (List.cons.inj h).2
          rw [String.toList_inj] at hk
          rw [List.map_cons, List.map_cons, ih htail htail' hrest, hk]

/-- Without indices, the merged steps are the place. -/
theorem eq_of_merged {loc loc' : Place} (hloc : ∀ i, PathStep.index i ∉ loc)
    (h : loc.map PathStep.merged = loc'.map PathStep.merged) : loc = loc' := by
  induction loc generalizing loc' with
  | nil => exact (List.map_eq_nil_iff.mp h.symm).symm
  | cons step loc ih =>
    cases loc' with
    | nil => cases h
    | cons step' loc' =>
      obtain ⟨hstep, hrest⟩ := List.cons.inj h
      have htail := ih (fun i hi => hloc i (List.mem_cons_of_mem _ hi)) hrest
      cases step with
      | index i => exact absurd List.mem_cons_self (hloc i)
      | key k =>
        cases step' with
        | index i' => cases hstep
        | key k' => rw [htail, Option.some.inj hstep]

/-- A place of plain keys without indices is legible. -/
theorem legible_of_plainKeys {loc : Place} (hkeys : loc.PlainKeys) (hloc : ∀ i, PathStep.index i ∉ loc) :
    loc.legible = true := by
  induction loc with
  | nil => rfl
  | cons step loc ih =>
    have hrest := ih (fun k hk => hkeys k (List.mem_cons_of_mem _ hk)) fun i hi => hloc i (List.mem_cons_of_mem _ hi)
    cases step with
    | index i => exact absurd List.mem_cons_self (hloc i)
    | key k =>
      obtain ⟨hne, hdollar, hdot, hbracket, hclose⟩ := plainKey_iff.mp (hkeys k List.mem_cons_self)
      rw [Place.legible_key _ (legible_ne_index hrest), hrest, Bool.and_true]
      exact keyAlone_iff.mpr ⟨hne, hdollar, isSegment_of_plain hdot hbracket,
        fun h => hclose (h.subset List.mem_cons_self)⟩

/-! ### Equal fingerprints -/

/-- The document whose text a fingerprint is the digest of. -/
def shapeDoc (payload : Json) (mapPaths : List String) : Json :=
  .arr ((sortedShape payload mapPaths).map fun (path, type) => .arr [.str path, .str type])

/-- `json` and SHA-256 tell the shapes of two payloads apart. -/
structure TellsApart (env : Externals) (p q : Json) : Prop where
  digest : (env.sha256 (env.dumps (shapeDoc p []))).text = (env.sha256 (env.dumps (shapeDoc q []))).text →
    env.dumps (shapeDoc p []) = env.dumps (shapeDoc q [])
  encoding : env.dumps (shapeDoc p []) = env.dumps (shapeDoc q []) → shapeDoc p [] = shapeDoc q []

theorem sortedShape_of_fingerprint {env : Externals} {p q : Json} (happart : TellsApart env p q)
    (h : structuralFingerprint env p [] = structuralFingerprint env q []) :
    sortedShape p [] = sortedShape q [] := by
  have hdoc := happart.encoding (happart.digest h)
  rw [shapeDoc, shapeDoc, Json.arr.injEq] at hdoc
  refine List.map_injective_iff.mpr ?_ hdoc
  rintro ⟨path, type⟩ ⟨path', type'⟩ heq
  simpa using heq

/-- **Payloads of one fingerprint have leaves of the same types at the same keys**, where
paths can spell the keys: a path found on one names a leaf that the other has too, up to
array indices, and if it has no index, both payloads resolve it to leaves of one type. -/
theorem fingerprint_leaves (env : Externals) (p q : JsonObject) (hp : (Json.obj p).Dicts)
    (hq : (Json.obj q).Dicts) (hpKeys : (Json.obj p).PlainKeys) (hqKeys : (Json.obj q).PlainKeys)
    (happart : TellsApart env (.obj p) (.obj q))
    (h : structuralFingerprint env (.obj p) [] = structuralFingerprint env (.obj q) [])
    (value : Json) (path : String) (hpath : findValuePath env.toUnicode p value = some path) :
    ∃ (loc : Place) (leaf : Json), path = loc.path ∧ (Json.obj p).nodeAt loc = some leaf ∧ leaf.IsLeaf ∧
      (∃ (loc' : Place) (leaf' : Json), loc'.map PathStep.merged = loc.map PathStep.merged ∧
        (Json.obj q).nodeAt loc' = some leaf' ∧ leafType leaf' = leafType leaf) ∧
      ((∀ i, PathStep.index i ∉ loc) → resolvePath env.toUnicode p (.str path) = .ok leaf ∧
        ∃ leaf', resolvePath env.toUnicode q (.str path) = .ok leaf' ∧ leafType leaf' = leafType leaf) := by
  obtain ⟨loc, leaf, rfl, hloc, hleaf, -, -⟩ := findValuePath_matches hp hpath
  have hshape := (sortedShape_eq_iff (.obj p) (.obj q) []).mp (sortedShape_of_fingerprint happart h)
  have hentry : _ ∈ shape [] (String.ofList ['$']) (.obj q) := (hshape _).mp (mem_shape_of_nodeAt hloc ['$'])
  obtain ⟨loc', leaf', hloc', heq⟩ := nodeAt_of_mem_shape hq hentry
  have hchars : loc.shapeChars = loc'.shapeChars := by
    simpa using congrArg (String.toList ∘ Prod.fst) heq
  have htype : leafType leaf' = leafType leaf := leafType_of_nodeType hleaf (congrArg Prod.snd heq).symm
  have hmerged := merged_eq_of_shapeChars (hpKeys.place hloc) (hqKeys.place hloc') hchars
  refine ⟨loc, leaf, rfl, hloc, hleaf, ⟨loc', leaf', hmerged.symm, hloc', htype⟩, fun hindex => ?_⟩
  have hlegible := legible_of_plainKeys (hpKeys.place hloc) hindex
  rw [← eq_of_merged hindex hmerged] at hloc'
  exact ⟨resolvePath_legible hlegible hloc, leaf', resolvePath_legible hlegible hloc', htype⟩

/-- Two payloads of one shape: what the path of a buyer's name leads to in the one has its
counterpart in the other. -/
theorem fingerprint_leaves_witness :
    ∃ (loc loc' : Place) (leaf leaf' : Json), "$.buyer.name" = loc.path ∧
      (Json.obj [("buyer", .obj [("name", .str "Acme")])]).nodeAt loc = some leaf ∧
      loc'.map PathStep.merged = loc.map PathStep.merged ∧
      (Json.obj [("buyer", .obj [("name", .str "Bolt")])]).nodeAt loc' = some leaf' ∧
      leafType leaf' = leafType leaf := by
  have hpath : findValuePath (Externals.ofTables [] [] [] []).toUnicode
      [("buyer", .obj [("name", .str "Acme")])] (.str "Acme") = some "$.buyer.name" := by decide
  have hshape : sortedShape (.obj [("buyer", .obj [("name", .str "Acme")])]) [] =
      sortedShape (.obj [("buyer", .obj [("name", .str "Bolt")])]) [] :=
    sortedShape_edits (.single (.field [] [] (.field [] [] (.leaf (by decide) rfl))))
  obtain ⟨loc, leaf, hloc, hnode, -, ⟨loc', leaf', hmerged, hnode', htype⟩, -⟩ :=
    fingerprint_leaves (Externals.ofTables [] [] [] [])
    [("buyer", .obj [("name", .str "Acme")])] [("buyer", .obj [("name", .str "Bolt")])]
    (Json.dicts_of_everyObject (by decide)) (Json.dicts_of_everyObject (by decide))
    (Json.plainKeys_of_everyObject (by decide)) (Json.plainKeys_of_everyObject (by decide))
    ⟨fun _ => by rw [shapeDoc, shapeDoc, hshape], fun _ => by rw [shapeDoc, shapeDoc, hshape]⟩
    (by rw [structuralFingerprint, structuralFingerprint, hshape]) (.str "Acme") _ hpath
  exact ⟨loc, loc', leaf, leaf', hloc, hnode, hmerged, hnode', htype⟩

/-- Payloads of one fingerprint whose lists have their optional field at different items: a
path found on the first leads to nothing in the second. -/
theorem merged_items_not_interchangeable :
    (∀ env : Externals,
      structuralFingerprint env
          (.obj [("items", .arr [.obj [("a", .int 1), ("b", .int 2)], .obj [("a", .int 3)]])]) [] =
        structuralFingerprint env
          (.obj [("items", .arr [.obj [("a", .int 3)], .obj [("a", .int 1), ("b", .int 2)]])]) []) ∧
      findValuePath (Externals.ofTables [] [] [] []).toUnicode
        [("items", .arr [.obj [("a", .int 1), ("b", .int 2)], .obj [("a", .int 3)]])] (.int 2) =
          some "$.items[0].b" ∧
      resolvePath (Externals.ofTables [] [] [] []).toUnicode
        [("items", .arr [.obj [("a", .int 3)], .obj [("a", .int 1), ("b", .int 2)]])] (.str "$.items[0].b") =
          .ok .null := by
  have hshape : sortedShape
      (.obj [("items", .arr [.obj [("a", .int 1), ("b", .int 2)], .obj [("a", .int 3)]])]) [] =
      sortedShape (.obj [("items", .arr [.obj [("a", .int 3)], .obj [("a", .int 1), ("b", .int 2)]])]) [] :=
    sortedShape_edits (.single (.field [] [] (.items (.swap _ _ []))))
  refine ⟨fun env => ?_, by decide, by decide +kernel⟩
  rw [structuralFingerprint, structuralFingerprint, hshape]

end WebhookIngestion
