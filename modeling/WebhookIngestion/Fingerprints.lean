import WebhookIngestion.Hashing
import Mathlib.Data.List.Dedup
import Mathlib.Logic.Relation

/-! # What a fingerprint depends on

The digest is of the sorted list of a set, so the set of paths with their types decides
it.  `ShapeEdit` lists the changes to a document that are to leave its shape alone, each
at some place inside it; every sequence of them leaves the fingerprint alone too. -/
namespace WebhookIngestion
open Text

/-! ### The sorted list of a set -/

theorem charsLe_total : ∀ s t : Chars, charsLe s t = true ∨ charsLe t s = true
  | [], _ => .inl rfl
  | _ :: _, [] => .inr rfl
  | a :: s, b :: t => by
      by_cases hab : a = b
      · subst hab
        simpa [charsLe] using charsLe_total s t
      · have hle := Nat.le_total a.toNat b.toNat
        simpa [charsLe, hab, Ne.symm hab] using hle

theorem charsLe_antisymm : ∀ {s t : Chars}, charsLe s t = true → charsLe t s = true → s = t
  | [], [], _, _ => rfl
  | [], _ :: _, _, h => by cases h
  | _ :: _, [], h, _ => by cases h
  | a :: s, b :: t, h, h' => by
      by_cases hab : a = b
      · subst hab
        simp only [charsLe, if_true] at h h'
        rw [charsLe_antisymm h h']
      · simp only [charsLe, hab, Ne.symm hab, if_false, decide_eq_true_eq] at h h'
        exact absurd (Char.toNat_inj.mp (Nat.le_antisymm h h')) hab

theorem charsLe_trans : ∀ {s t v : Chars}, charsLe s t = true → charsLe t v = true → charsLe s v = true
  | [], _, _, _, _ => rfl
  | _ :: _, [], _, h, _ => by cases h
  | _ :: _, _ :: _, [], _, h => by cases h
  | a :: s, b :: t, c :: v, h, h' => by
      by_cases hab : a = b
      · subst hab
        by_cases hac : a = c
        · subst hac
          simp only [charsLe, if_true] at h h' ⊢
          exact charsLe_trans h h'
        · simpa [charsLe, hac] using h'
      · by_cases hbc : b = c
        · subst hbc
          simpa [charsLe, hab] using h
        · simp only [charsLe, hab, hbc, if_false, decide_eq_true_eq] at h h'
          have hac : a ≠ c := by
            rintro rfl
            exact hab (Char.toNat_inj.mp (Nat.le_antisymm h h'))
          simpa [charsLe, hac] using Nat.le_trans h h'

instance pairLe_total : Std.Total fun a b : String × String => pairLe a b = true where
  total a b := by
    by_cases hab : a.1 = b.1
    · simpa [pairLe, hab] using charsLe_total a.2.toList b.2.toList
    · simpa [pairLe, hab, Ne.symm hab] using charsLe_total a.1.toList b.1.toList

instance pairLe_antisymm : Std.Antisymm fun a b : String × String => pairLe a b = true where
  antisymm a b h h' := by
    by_cases hab : a.1 = b.1
    · simp only [pairLe, hab, if_true] at h h'
      exact Prod.ext hab (String.toList_inj.mp (charsLe_antisymm h h'))
    · simp only [pairLe, hab, Ne.symm hab, if_false] at h h'
      exact absurd (String.toList_inj.mp (charsLe_antisymm h h')) hab

instance pairLe_trans : IsTrans (String × String) fun a b => pairLe a b = true where
  trans a b c h h' := by
    by_cases hab : a.1 = b.1
    · by_cases hbc : b.1 = c.1
      · simp only [pairLe, hab, hbc, if_true] at h h' ⊢
        exact charsLe_trans h h'
      · simpa [pairLe, hab, hbc] using h'
    · by_cases hbc : b.1 = c.1
      · simpa [pairLe, hab, ← hbc] using h
      · simp only [pairLe, hab, hbc, if_false] at h h'
        have hac : a.1 ≠ c.1 := by
          intro hac
          rw [← hac] at h'
          exact hab (String.toList_inj.mp (charsLe_antisymm h h'))
        simpa [pairLe, hac] using charsLe_trans h h'

/-- The sorted list of a set depends on its members only. -/
theorem sortedShape_eq_iff (p q : Json) (mapPaths : List String) :
    sortedShape p mapPaths = sortedShape q mapPaths ↔
      ∀ entry, entry ∈ shape mapPaths "$" p ↔ entry ∈ shape mapPaths "$" q := by
  constructor
  · intro h entry
    have hmem : entry ∈ sortedShape p mapPaths ↔ entry ∈ sortedShape q mapPaths := by rw [h]
    simpa only [sortedShape, List.mem_insertionSort, List.mem_dedup] using hmem
  · intro h
    refine List.Perm.eq_of_pairwise' (List.pairwise_insertionSort _ _) (List.pairwise_insertionSort _ _) ?_
    refine (List.perm_insertionSort _ _).trans (.trans ?_ (List.perm_insertionSort _ _).symm)
    refine (List.perm_ext_iff_of_nodup (List.nodup_dedup _) (List.nodup_dedup _)).mpr fun entry => ?_
    rw [List.mem_dedup, List.mem_dedup, h entry]

/-! ### Edits -/

/-- The JSON type of a document that is neither an object nor an array. -/
def leafType : Json → Option String
  | .bool _ => some "boolean"
  | .int _ | .float _ => some "number"
  | .str _ => some "string"
  | .null => some "null"
  | .obj _ | .arr _ => none

/-- One change to the document at `path`, in the notation of the walk. -/
inductive ShapeEdit (mapPaths : List String) : String → Json → Json → Prop
  | keys {path : String} {fields fields' : JsonObject} (h : fields.Perm fields') :
      ShapeEdit mapPaths path (.obj fields) (.obj fields')
  | items {path : String} {items items' : List Json} (h : items.Perm items') :
      ShapeEdit mapPaths path (.arr items) (.arr items')
  | duplicate {path : String} {items : List Json} {item : Json} (h : item ∈ items) :
      ShapeEdit mapPaths path (.arr items) (.arr (item :: items))
  | leaf {path : String} {x y : Json} (hx : leafType x ≠ none) (h : leafType y = leafType x) :
      ShapeEdit mapPaths path x y
  | map {path : String} (h : path ∈ mapPaths) (x y : Json) : ShapeEdit mapPaths path x y
  | field {path key : String} (before after : JsonObject) {x y : Json}
      (h : ShapeEdit mapPaths (path ++ "." ++ key) x y) :
      ShapeEdit mapPaths path (.obj (before ++ (key, x) :: after)) (.obj (before ++ (key, y) :: after))
  | item {path : String} (before after : List Json) {x y : Json}
      (h : ShapeEdit mapPaths (path ++ "[]") x y) :
      ShapeEdit mapPaths path (.arr (before ++ x :: after)) (.arr (before ++ y :: after))

section
variable {skip : List String} {path : String} {entry : String × String}

theorem mem_shapeFields {fields : JsonObject} :
    entry ∈ shapeFields skip path fields ↔
      ∃ field ∈ fields, entry ∈ shape skip (path ++ "." ++ field.1) field.2 := by
  induction fields with
  | nil => simp [shapeFields]
  | cons field fields ih => simp [shapeFields, ih]

theorem mem_shapeItems {items : List Json} :
    entry ∈ shapeItems skip path items ↔ ∃ item ∈ items, entry ∈ shape skip path item := by
  induction items with
  | nil => simp [shapeItems]
  | cons item items ih => simp [shapeItems, ih]

theorem shape_of_mem (h : path ∈ skip) (x : Json) : shape skip path x = [(path, "map")] := by
  cases x <;> simp [shape, h]

theorem shape_leaf {x : Json} {type : String} (h : path ∉ skip) (hx : leafType x = some type) :
    shape skip path x = [(path, type)] := by
  cases x <;> cases hx <;> simp [shape, h]

theorem mem_shape_obj (h : path ∉ skip) {fields : JsonObject} :
    entry ∈ shape skip path (.obj fields) ↔ entry = (path, "object") ∨
      ∃ field ∈ fields, entry ∈ shape skip (path ++ "." ++ field.1) field.2 := by
  rw [shape, if_neg h, List.mem_cons, mem_shapeFields]

theorem mem_shape_arr (h : path ∉ skip) {items : List Json} :
    entry ∈ shape skip path (.arr items) ↔ entry = (path, "array") ∨
      ∃ item ∈ items, entry ∈ shape skip (path ++ "[]") item := by
  rw [shape, if_neg h, List.mem_cons, mem_shapeItems]

/-- An edit inside a document keeps its set of paths: under a map path nothing is
looked at, and elsewhere the edited part contributes what it did. -/
theorem ShapeEdit.mem_shape_iff {x y : Json} (h : ShapeEdit skip path x y) :
    entry ∈ shape skip path x ↔ entry ∈ shape skip path y := by
  by_cases hskip : path ∈ skip
  · rw [shape_of_mem hskip, shape_of_mem hskip]
  induction h with
  | keys h => simp only [mem_shape_obj hskip, h.mem_iff]
  | items h => simp only [mem_shape_arr hskip, h.mem_iff]
  | duplicate h =>
    simp only [mem_shape_arr hskip, List.mem_cons]
    grind
  | leaf hx h =>
    obtain ⟨type, htype⟩ := Option.ne_none_iff_exists'.mp hx
    rw [shape_leaf hskip htype, shape_leaf hskip (h.trans htype)]
  | map h => exact absurd h hskip
  | @field path key before after x y h ih =>
    have hpart : entry ∈ shape skip (path ++ "." ++ key) x ↔ entry ∈ shape skip (path ++ "." ++ key) y := by
      by_cases hkey : path ++ "." ++ key ∈ skip
      · rw [shape_of_mem hkey, shape_of_mem hkey]
      · exact ih hkey
    simp only [mem_shape_obj hskip, List.mem_append, List.mem_cons, or_and_right, exists_or,
      exists_eq_left, hpart]
  | @item path before after x y h ih =>
    have hpart : entry ∈ shape skip (path ++ "[]") x ↔ entry ∈ shape skip (path ++ "[]") y := by
      by_cases hitem : path ++ "[]" ∈ skip
      · rw [shape_of_mem hitem, shape_of_mem hitem]
      · exact ih hitem
    simp only [mem_shape_arr hskip, List.mem_append, List.mem_cons, or_and_right, exists_or,
      exists_eq_left, hpart]

end

/-! ### The fingerprint under edits -/

section
variable (env : Externals) {mapPaths : List String} {p q : Json}

theorem sortedShape_edits (h : Relation.ReflTransGen (ShapeEdit mapPaths "$") p q) :
    sortedShape p mapPaths = sortedShape q mapPaths := by
  induction h with
  | refl => rfl
  | tail _ hedit ih =>
    exact ih.trans ((sortedShape_eq_iff _ _ _).mpr fun _ => hedit.mem_shape_iff)

/-- **The fingerprint depends on the shape only**: it is the same after any sequence of
edits that keep the shape, at any depth. -/
theorem structuralFingerprint_edits (h : Relation.ReflTransGen (ShapeEdit mapPaths "$") p q) :
    structuralFingerprint env p mapPaths = structuralFingerprint env q mapPaths := by
  rw [structuralFingerprint, structuralFingerprint, sortedShape_edits h]

end

/-- Keys in another order, an item twice, another number and another reference map. -/
theorem structuralFingerprint_edits_witness :
    structuralFingerprint (Externals.ofTables [] [] [] [])
        (.obj [("weight", .int 1), ("refs", .obj [("MBL", .str "X")]), ("ports", .arr [.str "SGSIN"])])
        ["$.refs"] =
      structuralFingerprint (Externals.ofTables [] [] [] [])
        (.obj [("ports", .arr [.str "SGSIN", .str "SGSIN"]), ("weight", .int 2), ("refs", .obj [("AWB", .null)])])
        ["$.refs"] := by
  refine structuralFingerprint_edits _ ?_
  refine .head (.field [] _ (.leaf (y := .int 2) (by decide) rfl)) ?_
  refine .head (.field [_] _ (.map (by decide) _ (.obj [("AWB", .null)]))) ?_
  refine .head (.field [_, _] [] (.duplicate (List.mem_singleton.mpr (Eq.refl (Json.str "SGSIN"))))) ?_
  exact .single (.keys List.perm_append_comm)

end WebhookIngestion
