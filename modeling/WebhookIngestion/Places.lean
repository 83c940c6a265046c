import WebhookIngestion.Decimals
import WebhookIngestion.Fingerprints
import WebhookIngestion.Library.Choices
import WebhookIngestion.Library.Delimited
import WebhookIngestion.SchemaDiscoverer

/-! # Places inside a document

A place is the list of keys and indices that lead from a document to a node of it.
The discoverer's walk visits the leaves at their places and prints each one as a path;
the path is what a schema keeps of the place. -/
namespace WebhookIngestion
open Text

inductive PathStep where
  | key (k : String)
  | index (i : Nat)
  deriving DecidableEq

abbrev Place := List PathStep

/-- What a step adds to a printed path. -/
def PathStep.chars : PathStep → Chars
  | key k => '.' :: k.toList
  | index i => '[' :: Nat.toDigits 10 i ++ [']']

/-- The steps of a place, printed. -/
def Place.chars (loc : Place) : Chars := loc.flatMap PathStep.chars

@[simp] theorem Place.chars_nil : Place.chars [] = [] := rfl

@[simp] theorem Place.chars_cons (step : PathStep) (loc : Place) :
    Place.chars (step :: loc) = step.chars ++ Place.chars loc := rfl

@[simp] theorem Place.chars_append (loc loc' : Place) :
    Place.chars (loc ++ loc') = loc.chars ++ loc'.chars := List.flatMap_append

/-- The path that the walk from `"$"` has at a place. -/
def Place.path (loc : Place) : String := String.ofList ('$' :: loc.chars)

namespace Json

/-- The node at a place. -/
def nodeAt : Json → Place → Option Json
  | x, [] => some x
  | .obj fields, .key k :: loc => (fields.lookup k).bind (nodeAt · loc)
  | .arr items, .index i :: loc => items[i]?.bind (nodeAt · loc)
  | _, _ :: _ => none

@[simp] theorem nodeAt_nil (x : Json) : x.nodeAt [] = some x := by cases x <;> rfl

@[simp] theorem nodeAt_key (fields : JsonObject) (k : String) (loc : Place) :
    (obj fields).nodeAt (.key k :: loc) = (fields.lookup k).bind (·.nodeAt loc) := rfl

@[simp] theorem nodeAt_index (items : List Json) (i : Nat) (loc : Place) :
    (arr items).nodeAt (.index i :: loc) = items[i]?.bind (·.nodeAt loc) := rfl

/-- From a node to the node below it. -/
theorem nodeAt_append (x : Json) (loc loc' : Place) :
    x.nodeAt (loc ++ loc') = (x.nodeAt loc).bind (·.nodeAt loc') := by
  induction loc generalizing x with
  | nil => simp
  | cons step loc ih =>
    cases x with
    | obj fields =>
      cases step with
      | key k => simp [Option.bind_assoc, ih]
      | index i => rfl
    | arr items =>
      cases step with
      | key k => rfl
      | index i => simp [Option.bind_assoc, ih]
    | null | bool | int | float | str => cases step <;> rfl

/-- Keys are distinct in every object of the document, as they are in a Python `dict`. -/
def Dicts (x : Json) : Prop :=
  ∀ loc fields, x.nodeAt loc = some (.obj fields) → (fields.map Prod.fst).Nodup

theorem Dicts.nodeAt {x y : Json} {loc : Place} (h : x.Dicts) (hy : x.nodeAt loc = some y) :
    y.Dicts := by
  intro loc' fields hfields
  refine h (loc ++ loc') fields ?_
  rw [nodeAt_append, hy, Option.bind_some, hfields]

mutual
/-- Whether the keys of every object of the document pass a test. -/
def everyObject (test : List String → Bool) : Json → Bool
  | obj fields => test (fields.map Prod.fst) && everyObjectOfFields test fields
  | arr items => everyObjectOfItems test items
  | _ => true
/-- The test, below the fields of an object. -/
def everyObjectOfFields (test : List String → Bool) : JsonObject → Bool
  | [] => true
  | (_, value) :: fields => everyObject test value && everyObjectOfFields test fields
/-- The test, below the items of an array. -/
def everyObjectOfItems (test : List String → Bool) : List Json → Bool
  | [] => true
  | item :: items => everyObject test item && everyObjectOfItems test items
end

section
variable {test : List String → Bool}

theorem everyObject_of_mem_fields {fields : JsonObject} (h : everyObjectOfFields test fields = true)
    {field : String × Json} (hfield : field ∈ fields) : field.2.everyObject test = true := by
  induction fields with
  | nil => cases hfield
  | cons head fields ih =>
    rw [everyObjectOfFields, Bool.and_eq_true] at h
    rcases List.mem_cons.mp hfield with rfl | htail
    · exact h.1
    · exact ih h.2 htail

theorem everyObject_of_mem_items {items : List Json} (h : everyObjectOfItems test items = true) {item : Json}
    (hitem : item ∈ items) : item.everyObject test = true := by
  induction items with
  | nil => cases hitem
  | cons head items ih =>
    rw [everyObjectOfItems, Bool.and_eq_true] at h
    rcases List.mem_cons.mp hitem with rfl | htail
    · exact h.1
    · exact ih h.2 htail

end

end Json

/-! ### Fields of an object -/

theorem mem_of_lookup {fields : JsonObject} {k : String} {x : Json} (h : fields.lookup k = some x) :
    (k, x) ∈ fields := by
  obtain ⟨before, after, rfl, -⟩ := List.lookup_eq_some_iff.mp h
  exact List.mem_append_right _ List.mem_cons_self

theorem lookup_of_mem {fields : JsonObject} (hfields : (fields.map Prod.fst).Nodup) {k : String} {x : Json}
    (h : (k, x) ∈ fields) : fields.lookup k = some x := by
  induction fields with
  | nil => cases h
  | cons field fields ih =>
    obtain ⟨k', x'⟩ := field
    rw [List.map_cons, List.nodup_cons] at hfields
    rcases List.mem_cons.mp h with heq | htail
    · cases heq
      exact List.lookup_cons_self
    · have hne : k ≠ k' := by
        rintro rfl
        exact hfields.1 (List.mem_map.mpr ⟨_, htail, rfl⟩)
      rw [List.lookup_cons, beq_false_of_ne hne]
      exact ih hfields.2 htail

theorem Json.everyObject_nodeAt {test : List String → Bool} {x : Json} (h : x.everyObject test = true)
    {loc : Place} {fields : JsonObject} (hfields : x.nodeAt loc = some (.obj fields)) :
    test (fields.map Prod.fst) = true := by
  induction loc generalizing x with
  | nil =>
    rw [Json.nodeAt_nil, Option.some.injEq] at hfields
    rw [hfields, Json.everyObject, Bool.and_eq_true] at h
    exact h.1
  | cons step loc ih =>
    cases x with
    | obj fields' =>
      rw [Json.everyObject, Bool.and_eq_true] at h
      cases step with
      | key k =>
        obtain ⟨y, hy, hfields⟩ := Option.bind_eq_some_iff.mp hfields
        exact ih (everyObject_of_mem_fields h.2 (mem_of_lookup hy)) hfields
      | index i => cases hfields
    | arr items =>
      cases step with
      | key k => cases hfields
      | index i =>
        obtain ⟨y, hy, hfields⟩ := Option.bind_eq_some_iff.mp hfields
        exact ih (everyObject_of_mem_items h (List.mem_of_getElem? hy)) hfields
    | null | bool | int | float | str => cases step <;> cases hfields

theorem Json.dicts_of_everyObject {x : Json} (h : x.everyObject (fun keys => keys.Nodup) = true) : x.Dicts :=
  fun _ _ hfields => by simpa using Json.everyObject_nodeAt h hfields

/-! ### The walk of the discoverer -/

/-- Whether the walk stops here: neither an object nor an array. -/
def Json.IsLeaf (x : Json) : Prop := leafType x ≠ none

instance (x : Json) : Decidable x.IsLeaf := inferInstanceAs (Decidable (_ ≠ _))

mutual
/-- The leaves of a document with their places, in the order of the walk. -/
def Json.placedLeaves (loc : Place) : Json → List (Place × Json)
  | .obj fields => placedLeavesOfFields loc fields
  | .arr items => placedLeavesOfItems loc 0 items
  | leaf => [(loc, leaf)]
/-- The leaves under the fields of an object. -/
def placedLeavesOfFields (loc : Place) : JsonObject → List (Place × Json)
  | [] => []
  | (key, value) :: fields => value.placedLeaves (loc ++ [.key key]) ++ placedLeavesOfFields loc fields
/-- The leaves under the items of an array, from index `i` on. -/
def placedLeavesOfItems (loc : Place) (i : Nat) : List Json → List (Place × Json)
  | [] => []
  | item :: items => item.placedLeaves (loc ++ [.index i]) ++ placedLeavesOfItems loc (i + 1) items
end

theorem Place.path_key (loc : Place) (k : String) : loc.path ++ "." ++ k = Place.path (loc ++ [.key k]) := by
  rw [← String.toList_inj]
  simp [Place.path, PathStep.chars]

theorem Place.path_index (loc : Place) (i : Nat) :
    loc.path ++ "[" ++ toString i ++ "]" = Place.path (loc ++ [.index i]) := by
  rw [← String.toList_inj]
  simp [Place.path, PathStep.chars]

mutual
/-- The walk prints the place of each leaf. -/
theorem leaves_path (loc : Place) : ∀ x : Json,
    leaves loc.path x = (x.placedLeaves loc).map fun placed => (placed.1.path, placed.2)
  | .obj fields => leavesOfFields_path loc fields
  | .arr items => leavesOfItems_path loc 0 items
  | .null | .bool _ | .int _ | .float _ | .str _ => rfl

theorem leavesOfFields_path (loc : Place) : ∀ fields : JsonObject,
    leavesOfFields loc.path fields = (placedLeavesOfFields loc fields).map fun placed => (placed.1.path, placed.2)
  | [] => rfl
  | (k, x) :: fields => by
    rw [leavesOfFields, placedLeavesOfFields, List.map_append, ← leaves_path (loc ++ [PathStep.key k]) x,
      ← leavesOfFields_path loc fields, Place.path_key]

theorem leavesOfItems_path (loc : Place) (i : Nat) : ∀ items : List Json,
    leavesOfItems loc.path i items = (placedLeavesOfItems loc i items).map fun placed => (placed.1.path, placed.2)
  | [] => rfl
  | x :: items => by
    rw [leavesOfItems, placedLeavesOfItems, List.map_append, ← leaves_path (loc ++ [PathStep.index i]) x,
      ← leavesOfItems_path loc (i + 1) items, Place.path_index]
end

theorem mem_placedLeavesOfFields {loc : Place} {placed : Place × Json} {fields : JsonObject} :
    placed ∈ placedLeavesOfFields loc fields ↔
      ∃ field ∈ fields, placed ∈ field.2.placedLeaves (loc ++ [.key field.1]) := by
  induction fields with
  | nil => simp [placedLeavesOfFields]
  | cons field fields ih => simp [placedLeavesOfFields, ih]

theorem mem_placedLeavesOfItems {loc : Place} {placed : Place × Json} {items : List Json} {i : Nat} :
    placed ∈ placedLeavesOfItems loc i items ↔
      ∃ (j : Nat) (item : Json), items[j]? = some item ∧ placed ∈ item.placedLeaves (loc ++ [.index (i + j)]) := by
  induction items generalizing i with
  | nil => simp [placedLeavesOfItems]
  | cons item items ih =>
    rw [placedLeavesOfItems, List.mem_append, ih]
    constructor
    · rintro (h | ⟨j, item', hj, h⟩)
      · exact ⟨0, item, rfl, h⟩
      · exact ⟨j + 1, item', hj, by rwa [show i + (j + 1) = i + 1 + j by omega]⟩
    · rintro ⟨j, item', hj, h⟩
      cases j with
      | zero =>
        cases hj
        exact .inl h
      | succ j => exact .inr ⟨j, item', hj, by rwa [show i + 1 + j = i + (j + 1) by omega]⟩

/-- What the walk finds is the leaf at its place. -/
theorem nodeAt_of_placedLeaves {loc : Place} {leaf : Json} :
    ∀ {x : Json}, x.Dicts → ∀ {before : Place}, (loc, leaf) ∈ x.placedLeaves before →
      ∃ loc', loc = before ++ loc' ∧ x.nodeAt loc' = some leaf ∧ leaf.IsLeaf
  | .obj fields, hx, before, h => by
    obtain ⟨⟨k, y⟩, hfield, hmem⟩ := mem_placedLeavesOfFields.mp h
    have hlookup := lookup_of_mem (hx [] fields rfl) hfield
    have hchild : (Json.obj fields).nodeAt [.key k] = some y := by simp [hlookup]
    have hlt := List.sizeOf_lt_of_mem hfield
    obtain ⟨loc', rfl, hloc, hleaf⟩ := nodeAt_of_placedLeaves (hx.nodeAt hchild) hmem
    exact ⟨.key k :: loc', by simp, by simp [hlookup, hloc], hleaf⟩
  | .arr items, hx, before, h => by
    obtain ⟨i, y, hy, hmem⟩ := mem_placedLeavesOfItems.mp h
    have hchild : (Json.arr items).nodeAt [.index i] = some y := by simp [hy]
    have hlt := List.sizeOf_lt_of_mem (List.mem_of_getElem? hy)
    obtain ⟨loc', rfl, hloc, hleaf⟩ := nodeAt_of_placedLeaves (hx.nodeAt hchild) hmem
    exact ⟨.index i :: loc', by simp, by simp [hy, hloc], hleaf⟩
  | .null, _, _, h | .bool _, _, _, h | .int _, _, _, h | .float _, _, _, h | .str _, _, _, h => by
    cases List.mem_singleton.mp h
    exact ⟨[], by simp, rfl, Option.some_ne_none _⟩
termination_by x => sizeOf x
decreasing_by
  · simp only [Prod.mk.sizeOf_spec] at hlt
    simp only [Json.obj.sizeOf_spec]
    omega
  · simp only [Json.arr.sizeOf_spec]
    omega

end WebhookIngestion
