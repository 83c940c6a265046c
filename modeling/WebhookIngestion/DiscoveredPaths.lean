import WebhookIngestion.Places
import Mathlib.Algebra.GroupWithZero.Nat

/-! # Paths that read back

The discoverer prints the place of a value, and the adapter parses what it printed.  A
place is `legible` if the adapter's grammar has one segment for each of its keys, with
the index behind the key if there is one; such a place is read back wherever it occurs.
Every other place is read back as another one, or not at all. -/
namespace WebhookIngestion
open Text Programs Choices

/-! ### Legible places -/

/-- Whether the text is one segment: it has dots inside brackets only, and each bracket it
opens is closed. -/
def isSegment : (inBracket : Bool) → Chars → Bool
  | inBracket, [] => !inBracket
  | inBracket, c :: rest =>
    if inBracket then isSegment (c ≠ ']') rest else c ≠ '.' && isSegment (c = '[') rest

/-- Whether the adapter finds a field under the key's own text. -/
def keyAlone (k : String) : Bool :=
  k ≠ "" && k ≠ "$" && isSegment false k.toList && !([']'].isSuffixOf k.toList)

/-- Whether it does where an index stands behind the key. -/
def keyIndexed (k : String) : Bool :=
  k ≠ "" && !k.toList.contains '.' && !k.toList.contains '['

/-- Whether the adapter reads the printed place back. -/
def Place.legible : Place → Bool
  | [] => true
  | .key k :: .index i :: loc => keyIndexed k && (Nat.toDigits 10 i).length ≤ 4300 && legible loc
  | .key k :: loc => keyAlone k && legible loc
  | .index _ :: _ => false

/-- The segments of a legible place. -/
def Place.segments : Place → List Chars
  | .key k :: .index i :: loc => (k.toList ++ (PathStep.index i).chars) :: segments loc
  | .key k :: loc => k.toList :: segments loc
  | _ => []

theorem Place.legible_key (k : String) {loc : Place} (h : ∀ i loc', loc ≠ .index i :: loc') :
    Place.legible (.key k :: loc) = (keyAlone k && loc.legible) := by
  match loc with
  | [] | .key _ :: _ => rfl
  | .index i :: loc' => exact absurd rfl (h i loc')

theorem Place.segments_key (k : String) {loc : Place} (h : ∀ i loc', loc ≠ .index i :: loc') :
    Place.segments (.key k :: loc) = k.toList :: loc.segments := by
  match loc with
  | [] | .key _ :: _ => rfl
  | .index i :: loc' => exact absurd rfl (h i loc')

/-! ### Parsing a legible place -/

theorem parseSegments_append {k : Chars} {inBracket : Bool} (h : isSegment inBracket k = true)
    (current rest : Chars) :
    parseSegments inBracket current (k ++ rest) = parseSegments false (current ++ k) rest := by
  induction k generalizing inBracket current with
  | nil =>
    cases inBracket with
    | false => simp
    | true => cases h
  | cons c k ih =>
    cases inBracket with
    | true =>
      rw [isSegment, if_pos rfl] at h
      rw [List.cons_append, parseSegments, if_pos rfl, ih h, List.append_assoc]
      rfl
    | false =>
      rw [isSegment, if_neg Bool.false_ne_true, Bool.and_eq_true, decide_eq_true_iff] at h
      simp [parseSegments, h.1, ih h.2]

theorem parseSegments_end {current : Chars} (h : current ≠ []) :
    parseSegments false current [] = .ok [current] := by
  simp [parseSegments, h]

theorem parseSegments_dot {current : Chars} (h : current ≠ []) (rest : Chars) :
    parseSegments false current ('.' :: rest) = (parseSegments false [] rest).map (current :: ·) := by
  rw [parseSegments, if_neg Bool.false_ne_true, if_pos rfl]
  cases parseSegments false [] rest with
  | error e => rfl
  | ok segments => simp [h, Except.map, bind, Except.bind, pure, Except.pure]

theorem isSegment_append {k k' : Chars} {inBracket : Bool} (h : isSegment inBracket k = true)
    (h' : isSegment false k' = true) : isSegment inBracket (k ++ k') = true := by
  induction k generalizing inBracket with
  | nil =>
    cases inBracket with
    | false => exact h'
    | true => cases h
  | cons c k ih =>
    cases inBracket with
    | true =>
      rw [isSegment, if_pos rfl] at h
      rw [List.cons_append, isSegment, if_pos rfl, ih h]
    | false =>
      rw [isSegment, if_neg Bool.false_ne_true, Bool.and_eq_true] at h
      rw [List.cons_append, isSegment, if_neg Bool.false_ne_true, h.1, ih h.2]
      rfl

theorem isSegment_of_plain {k : Chars} (hdot : '.' ∉ k) (hbracket : '[' ∉ k) : isSegment false k = true := by
  induction k with
  | nil => rfl
  | cons c k ih =>
    rw [List.mem_cons, not_or] at hdot hbracket
    simp [isSegment, Ne.symm hdot.1, Ne.symm hbracket.1, ih hdot.2 hbracket.2]

/-- Inside a bracket only the closing bracket counts. -/
theorem isSegment_bracket {ds : Chars} (h : ']' ∉ ds) : isSegment true (ds ++ [']']) = true := by
  induction ds with
  | nil => rfl
  | cons c ds ih =>
    rw [List.mem_cons, not_or] at h
    simp [isSegment, Ne.symm h.1, ih h.2]

theorem notMem_toDigits {c : Char} (hc : isAsciiDigit c = false) (n : Nat) : c ∉ Nat.toDigits 10 n :=
  ne_of_isAsciiDigit (fun _ => isAsciiDigit_of_mem_toDigits) hc

theorem isSegment_index (i : Nat) : isSegment false (PathStep.index i).chars = true := by
  have hclose : ']' ∉ Nat.toDigits 10 i := notMem_toDigits (by decide) i
  rw [PathStep.chars, List.cons_append, isSegment, if_neg Bool.false_ne_true]
  exact isSegment_bracket hclose

theorem keyIndexed_iff {k : String} :
    keyIndexed k = true ↔ k ≠ "" ∧ '.' ∉ k.toList ∧ '[' ∉ k.toList := by
  simp [keyIndexed, and_assoc]

theorem keyAlone_iff {k : String} :
    keyAlone k = true ↔ k ≠ "" ∧ k ≠ "$" ∧ isSegment false k.toList = true ∧ ¬ [']'] <:+ k.toList := by
  simp [keyAlone, and_assoc, ← Bool.not_eq_true, List.isSuffixOf_iff_suffix]

/-- A segment before the end of the text or a dot. -/
theorem parseSegments_segment {k : Chars} (hk : k ≠ []) (hsegment : isSegment false k = true) (loc : Place)
    (hloc : ∀ i loc', loc ≠ .index i :: loc')
    (hrest : loc ≠ [] → parseSegments false [] (loc.chars.drop 1) = .ok loc.segments) :
    parseSegments false [] (k ++ loc.chars) = .ok (k :: loc.segments) := by
  rw [parseSegments_append hsegment, List.nil_append]
  match loc with
  | [] => exact parseSegments_end hk
  | .index i :: loc' => exact absurd rfl (hloc i loc')
  | .key k' :: loc' =>
    have hrest := hrest (List.cons_ne_nil _ _)
    rw [Place.chars_cons, PathStep.chars, List.cons_append, List.drop_succ_cons, List.drop_zero] at hrest
    rw [Place.chars_cons, PathStep.chars, List.cons_append, parseSegments_dot hk, hrest]
    rfl

theorem legible_ne_index {loc : Place} (h : loc.legible = true) (i : Nat) (loc' : Place) :
    loc ≠ .index i :: loc' := by
  rintro rfl
  cases h

theorem parseSegments_legible {loc : Place} (h : loc.legible = true) (hne : loc ≠ []) :
    parseSegments false [] (loc.chars.drop 1) = .ok loc.segments := by
  induction loc using Place.legible.induct with
  | case1 => exact absurd rfl hne
  | case2 k i loc ih =>
    rw [Place.legible, Bool.and_eq_true, Bool.and_eq_true] at h
    obtain ⟨⟨hk, -⟩, hloc⟩ := h
    obtain ⟨-, hdot, hbracket⟩ := keyIndexed_iff.mp hk
    have hsegment := isSegment_append (isSegment_of_plain hdot hbracket) (isSegment_index i)
    have hparse := parseSegments_segment (by simp [PathStep.chars]) hsegment loc (legible_ne_index hloc) (ih hloc)
    simpa [PathStep.chars, Place.segments] using hparse
  | case3 k loc hindex ih =>
    have hindex : ∀ i loc', loc ≠ .index i :: loc' := hindex
    rw [Place.legible_key k hindex, Bool.and_eq_true] at h
    obtain ⟨hkey, -, hsegment, -⟩ := keyAlone_iff.mp h.1
    have hparse := parseSegments_segment (by simpa using hkey) hsegment loc hindex (ih h.2)
    simpa [PathStep.chars, Place.segments_key k hindex] using hparse
  | case4 i loc => cases h

/-! ### Walking a legible place -/

section
variable {u : Unicode}

/-- A key alone leads to the field under it. -/
theorem walkSegment_field {x : Json} (hx : x ≠ .null) {k : Chars} (hdollar : k ≠ ['$']) (hclose : ¬ [']'] <:+ k) :
    walkSegment u x k = .ok (x.field k) := by
  have hbare : ¬ ['[', ']'] <:+ k := fun h => hclose ((List.suffix_append ['['] [']']).trans h)
  rw [walkSegment, if_neg hx, if_neg hdollar, if_neg (by rwa [List.isSuffixOf_iff_suffix]),
    if_neg (by rwa [List.isSuffixOf_iff_suffix])]

/-- A key with `[]` behind it leads to the first item of a list. -/
theorem walkSegment_bare {x : Json} (hx : x ≠ .null) {k : Chars} :
    walkSegment u x (k ++ ['[', ']']) =
      match if k = [] then x else x.field k with
      | .arr items => .ok (items.head?.getD .null)
      | target => .ok target := by
  have hdollar : k ++ ['[', ']'] ≠ ['$'] := by
    intro h
    simpa using congrArg List.getLast? h
  have htake : (k ++ ['[', ']']).take ((k ++ ['[', ']']).length - 2) = k := by simp
  rw [walkSegment, if_neg hx, if_neg hdollar, if_pos (List.isSuffixOf_iff_suffix.mpr (List.suffix_append _ _))]
  exact congrArg (fun key : Chars => (match if key = [] then x else x.field key with
    | .arr items => .ok (items.head?.getD .null)
    | target => .ok target : Except PyError Json)) htake

theorem walkSegment_key {fields : JsonObject} {k : String} (hk : keyAlone k = true) {x : Json}
    (hx : fields.lookup k = some x) : walkSegment u (.obj fields) k.toList = .ok x := by
  obtain ⟨-, hdollar, -, hclose⟩ := keyAlone_iff.mp hk
  have htext : k.toList ≠ ['$'] := fun h => hdollar (by rw [← String.toList_inj, h]; rfl)
  rw [walkSegment_field (fun h => by cases h) htext hclose, Json.field, String.ofList_toList, JsonObject.get, hx]
  rfl

/-- A segment whose last bracket holds something does not end in `[]`. -/
theorem not_bare_suffix {k ds : Chars} (hne : ds ≠ []) (hds : '[' ∉ ds) :
    ¬ ['[', ']'] <:+ k ++ '[' :: ds ++ [']'] := by
  rintro ⟨t, ht⟩
  have hinner : t ++ ['['] = k ++ '[' :: ds := by
    have hclose : (t ++ ['[']) ++ [']'] = (k ++ '[' :: ds) ++ [']'] := by simpa using ht
    exact List.append_cancel_right hclose
  obtain ⟨ds', d, rfl⟩ : ∃ ds' d, ds = ds' ++ [d] := ⟨_, _, (List.dropLast_append_getLast hne).symm⟩
  have hlast : t ++ ['['] = (k ++ '[' :: ds') ++ [d] := by simpa using hinner
  rw [← (List.append_inj' hlast rfl).2] at hds
  exact hds (List.mem_append_right _ List.mem_cons_self)

theorem takeWhile_key {k : Chars} (hk : '[' ∉ k) (rest : Chars) :
    (k ++ '[' :: rest).takeWhile (· ≠ '[') = k := by
  rw [List.takeWhile_append_of_pos]
  · simp
  · intro c hc
    rw [decide_eq_true_iff]
    rintro rfl
    exact hk hc

/-- A key with brackets behind it leads to an item of a list, and from anything else to null. -/
theorem walkSegment_brackets {x : Json} (hx : x ≠ .null) {k idx : Chars} (hk : '[' ∉ k) (hne : idx ≠ [])
    (hidx : '[' ∉ idx) :
    walkSegment u x (k ++ '[' :: idx ++ [']']) =
      match if k = [] then x else x.field k, int? u idx with
      | .arr items, some i => .ok ((Json.index items i).getD .null)
      | _, _ => .ok .null := by
  have hdollar : k ++ '[' :: idx ++ [']'] ≠ ['$'] := by
    intro h
    have hlast := congrArg List.getLast? h
    rw [List.getLast?_concat] at hlast
    exact absurd hlast (by decide)
  have hclose : [']'] <:+ k ++ '[' :: idx ++ [']'] := List.suffix_append _ _
  have hkey : (k ++ '[' :: idx ++ [']']).takeWhile (· ≠ '[') = k := by
    rw [List.append_assoc]
    exact takeWhile_key hk _
  have hdrop : ((k ++ '[' :: idx ++ [']']).drop
      (((k ++ '[' :: idx ++ [']']).takeWhile (· ≠ '[')).length + 1)).dropLast = idx := by
    rw [hkey]
    simp [List.drop_append]
  have hopen : '[' ∈ k ++ '[' :: idx ++ [']'] := by simp
  rw [walkSegment, if_neg hx, if_neg hdollar,
    if_neg (by rw [List.isSuffixOf_iff_suffix]; exact not_bare_suffix hne hidx),
    if_pos (by rwa [List.isSuffixOf_iff_suffix]), if_pos hopen]
  exact congrArg₂ (fun key index : Chars => (match if key = [] then x else x.field key, int? u index with
    | .arr items, some i => .ok ((Json.index items i).getD .null)
    | _, _ => .ok .null : Except PyError Json)) hkey hdrop

/-- A key with an index behind it leads to the item of a list, and from anything else to null. -/
theorem walkSegment_indexed {x : Json} (hx : x ≠ .null) {k : Chars} (hne : k ≠ []) (hbracket : '[' ∉ k) {i : Nat}
    {y : Json}
    (hitem : ∀ items, x.field k = .arr items → y = ((int? u (Nat.toDigits 10 i)).bind (Json.index items)).getD .null)
    (hnone : (∀ items, x.field k ≠ .arr items) → y = .null) :
    walkSegment u x (k ++ (PathStep.index i).chars) = .ok y := by
  have hshape : k ++ (PathStep.index i).chars = k ++ '[' :: Nat.toDigits 10 i ++ [']'] := by
    simp [PathStep.chars]
  rw [hshape, walkSegment_brackets hx hbracket Nat.toDigits_ne_nil (notMem_toDigits (by decide) i), if_neg hne]
  cases htarget : x.field k with
  | arr items =>
    rw [hitem items htarget]
    cases int? u (Nat.toDigits 10 i) <;> rfl
  | null | bool | int | float | str | obj =>
    rw [hnone fun items h => by cases htarget.symm.trans h]

theorem walkSegment_index {fields : JsonObject} {k : String} (hk : keyIndexed k = true) {i : Nat}
    (hi : (Nat.toDigits 10 i).length ≤ 4300) {items : List Json} (hitems : fields.lookup k = some (.arr items)) :
    walkSegment u (.obj fields) (k.toList ++ (PathStep.index i).chars) = .ok (items[i]?.getD .null) := by
  obtain ⟨hne, -, hbracket⟩ := keyIndexed_iff.mp hk
  have hfield : (Json.obj fields).field k.toList = .arr items := by
    simp [Json.field, JsonObject.get, hitems]
  refine walkSegment_indexed (fun h => by cases h) (by simpa using hne) hbracket (fun items' h => ?_) fun h => ?_
  · cases hfield.symm.trans h
    rw [int?_toDigits hi]
    simp [Json.index]
  · exact absurd hfield (h items)

/-- The walk over the segments of a legible place ends at the node there. -/
theorem foldlM_segments {x y : Json} {loc : Place} (h : loc.legible = true) (hy : x.nodeAt loc = some y) :
    loc.segments.foldlM (walkSegment u) x = .ok y := by
  induction loc using Place.legible.induct generalizing x with
  | case1 =>
    rw [Json.nodeAt_nil, Option.some.injEq] at hy
    rw [hy]
    rfl
  | case2 k i loc ih =>
    rw [Place.legible, Bool.and_eq_true, Bool.and_eq_true, decide_eq_true_iff] at h
    obtain ⟨⟨hk, hi⟩, hloc⟩ := h
    cases x with
    | obj fields =>
      obtain ⟨child, hchild, hy⟩ := Option.bind_eq_some_iff.mp hy
      cases child with
      | arr items =>
        obtain ⟨item, hitem, hy⟩ := Option.bind_eq_some_iff.mp hy
        rw [Place.segments, List.foldlM_cons, walkSegment_index hk hi hchild, hitem]
        exact ih hloc hy
      | null | bool | int | float | str | obj => cases hy
    | null | bool | int | float | str | arr => cases hy
  | case3 k loc hindex ih =>
    have hindex : ∀ i loc', loc ≠ .index i :: loc' := hindex
    rw [Place.legible_key k hindex, Bool.and_eq_true] at h
    cases x with
    | obj fields =>
      obtain ⟨child, hchild, hy⟩ := Option.bind_eq_some_iff.mp hy
      rw [Place.segments_key k hindex, List.foldlM_cons, walkSegment_key h.1 hchild]
      exact ih h.2 hy
    | null | bool | int | float | str | arr => cases hy
  | case4 i loc => cases h

theorem truthy_path (loc : Place) : (Json.str loc.path).truthy = true := by
  rw [Json.truthy, decide_eq_true_iff, Place.path]
  exact fun h => by simpa using congrArg String.toList h

/-- **A legible place reads back**, in every payload that has a node there. -/
theorem resolvePath_legible {payload : JsonObject} {loc : Place} {y : Json} (h : loc.legible = true)
    (hy : (Json.obj payload).nodeAt loc = some y) : resolvePath u payload (.str loc.path) = .ok y := by
  have hparse : parsePath loc.path = .ok loc.segments := by
    rw [parsePath, Place.path, String.toList_ofList]
    cases loc with
    | nil => rfl
    | cons step loc =>
      cases step with
      | index i => cases h
      | key k => exact parseSegments_legible h (List.cons_ne_nil _ _)
  rw [resolvePath, if_pos (truthy_path loc)]
  simp only [hparse]
  exact foldlM_segments h hy

end

/-! ### Searching a payload -/

theorem pathsWhere_eq (test : Json → Bool) (payload : JsonObject) :
    pathsWhere test payload = (((Json.obj payload).placedLeaves []).filter fun placed => test placed.2).map
      fun placed => placed.1.path := by
  have hleaves : leaves "$" (.obj payload) = _ := leaves_path [] (.obj payload)
  rw [pathsWhere, hleaves, List.filter_map, List.map_map]
  rfl

/-- The first of the leaves that pass a test, in an order of their paths. -/
def FirstLeaf (le : String → String → Bool) (test : Json → Bool) (payload : JsonObject) (loc : Place)
    (leaf : Json) : Prop :=
  FirstLeast (fun a b => le a.1.path b.1.path)
    (((Json.obj payload).placedLeaves []).filter fun placed => test placed.2) (loc, leaf)

theorem FirstLeaf.nodeAt {le : String → String → Bool} {test : Json → Bool} {payload : JsonObject} {loc : Place}
    {leaf : Json} (hdicts : (Json.obj payload).Dicts) (h : FirstLeaf le test payload loc leaf) :
    (Json.obj payload).nodeAt loc = some leaf ∧ leaf.IsLeaf ∧ test leaf = true := by
  obtain ⟨hmem, htest⟩ := List.mem_filter.mp h.mem
  obtain ⟨loc', rfl, hloc, hleaf⟩ := nodeAt_of_placedLeaves hdicts hmem
  exact ⟨hloc, hleaf, htest⟩

theorem FirstLeaf.unique {le : String → String → Bool} {test : Json → Bool} {payload : JsonObject}
    {loc loc' : Place} {leaf leaf' : Json} (h : FirstLeaf le test payload loc leaf)
    (h' : FirstLeaf le test payload loc' leaf') : loc = loc' ∧ leaf = leaf' :=
  Prod.mk.inj (FirstLeast.unique h h')

/-- `results.sort(key=…); return results[0]` is the path of the first leaf in the order of the key. -/
theorem firstBy_pathsWhere {le : String → String → Bool} (htotal : ∀ a b, le a b = true ∨ le b a = true)
    (htrans : ∀ a b c, le a b = true → le b c = true → le a c = true) {test : Json → Bool} {payload : JsonObject}
    {path : String} :
    firstBy le (pathsWhere test payload) = some path ↔
      ∃ loc leaf, FirstLeaf le test payload loc leaf ∧ path = loc.path := by
  rw [firstBy, head?_insertionSort_eq_some htotal htrans, pathsWhere_eq, FirstLeast.map_iff, Prod.exists]
  rfl

/-- The places whose leaf reads as the text of a value. -/
def Matches (u : Unicode) (payload : JsonObject) (value : Json) (loc : Place) (leaf : Json) : Prop :=
  (Json.obj payload).nodeAt loc = some leaf ∧ leaf.IsLeaf ∧ leaf ≠ .null ∧
    strip (leaf.text u) = strip (value.text u)

/-- The first of the leaves with the text of a value that have the shortest paths. -/
def FirstMatch (u : Unicode) (payload : JsonObject) (value : Json) (loc : Place) (leaf : Json) : Prop :=
  FirstLeaf (fun a b => a.length ≤ b.length)
    (fun node => node ≠ .null && strip (node.text u) = strip (value.text u)) payload loc leaf

theorem FirstMatch.matches {u : Unicode} {payload : JsonObject} {value : Json} {loc : Place} {leaf : Json}
    (hdicts : (Json.obj payload).Dicts) (h : FirstMatch u payload value loc leaf) :
    Matches u payload value loc leaf := by
  obtain ⟨hloc, hleaf, htest⟩ := h.nodeAt hdicts
  rw [Bool.and_eq_true, decide_eq_true_iff, decide_eq_true_iff] at htest
  exact ⟨hloc, hleaf, htest⟩

/-- The discoverer prints the place of the first match. -/
theorem findValuePath_eq_some {u : Unicode} {payload : JsonObject} {value : Json} (hvalue : value ≠ .null)
    {path : String} :
    findValuePath u payload value = some path ↔
      ∃ loc leaf, FirstMatch u payload value loc leaf ∧ path = loc.path := by
  rw [findValuePath, if_neg hvalue]
  refine firstBy_pathsWhere (fun a b => ?_) fun a b c hab hbc => ?_
  · simpa using Nat.le_total a.length b.length
  · rw [decide_eq_true_iff] at *
    exact hab.trans hbc

theorem findValuePath_matches {u : Unicode} {payload : JsonObject} (hdicts : (Json.obj payload).Dicts)
    {value : Json} {path : String} (h : findValuePath u payload value = some path) :
    ∃ loc leaf, path = loc.path ∧ Matches u payload value loc leaf := by
  have hvalue : value ≠ .null := by
    rintro rfl
    cases h
  obtain ⟨loc, leaf, hfirst, rfl⟩ := (findValuePath_eq_some hvalue).mp h
  exact ⟨loc, leaf, rfl, hfirst.matches hdicts⟩

/-! ### What a path can be read as

The dots of a path are counted: printing a place puts one before each key, and parsing
drops one between two segments, each of which leads along at most one key.  So a path that
leads back to its place has just one segment for each key. -/

/-- Segments are closed, and not empty. -/
theorem isSegment_of_parseSegments {text current : Chars} {inBracket : Bool} {segments : List Chars}
    (h : parseSegments inBracket current text = .ok segments)
    (hcurrent : ∀ k, isSegment inBracket k = true → isSegment false (current ++ k) = true) :
    ∀ segment ∈ segments, segment ≠ [] ∧ isSegment false segment = true := by
  induction text generalizing inBracket current segments with
  | nil =>
    cases inBracket with
    | true => cases h
    | false =>
      rw [parseSegments, if_neg Bool.false_ne_true, Except.ok.injEq] at h
      intro segment hmem
      split at h
      · rw [← h] at hmem
        cases hmem
      · next hne =>
        rw [← h, List.mem_singleton] at hmem
        rw [hmem]
        exact ⟨hne, by simpa using hcurrent [] rfl⟩
  | cons c text ih =>
    cases inBracket with
    | true =>
      rw [parseSegments, if_pos rfl] at h
      refine ih h fun k hk => ?_
      rw [List.append_assoc]
      exact hcurrent _ (by rwa [List.singleton_append, isSegment, if_pos rfl])
    | false =>
      rw [parseSegments, if_neg Bool.false_ne_true] at h
      by_cases hdot : c = '.'
      · rw [if_pos hdot] at h
        cases hrest : parseSegments false [] text with
        | error e =>
          rw [hrest] at h
          cases h
        | ok rest =>
          rw [hrest] at h
          have hrest := ih hrest fun k hk => hk
          have hsegments : (if current = [] then rest else current :: rest) = segments := Except.ok.inj h
          intro segment hmem
          split at hsegments
          · exact hrest segment (hsegments ▸ hmem)
          · next hne =>
            rw [← hsegments] at hmem
            rcases List.mem_cons.mp hmem with rfl | hmem
            · exact ⟨hne, by simpa using hcurrent [] rfl⟩
            · exact hrest segment hmem
      · rw [if_neg hdot] at h
        refine ih h fun k hk => ?_
        rw [List.append_assoc]
        refine hcurrent _ ?_
        rw [List.singleton_append, isSegment, if_neg Bool.false_ne_true, hk, decide_eq_true hdot]
        rfl

/-- The dots of some segments, with one more for each. -/
def dotsOf (segments : List Chars) : Nat := (segments.map fun segment => segment.count '.' + 1).sum

/-- Parsing loses dots; if it loses just those between the segments, the text is the
segments with dots between them. -/
theorem dots_of_parseSegments {text current : Chars} {inBracket : Bool} {segments : List Chars}
    (h : parseSegments inBracket current text = .ok segments) :
    dotsOf segments ≤ (current ++ text).count '.' + 1 ∧
      (dotsOf segments = (current ++ text).count '.' + 1 → current ++ text = join ['.'] segments) := by
  induction text generalizing inBracket current segments with
  | nil =>
    cases inBracket with
    | true => cases h
    | false =>
      rw [parseSegments, if_neg Bool.false_ne_true, Except.ok.injEq] at h
      split at h
      · next hnil => simp [← h, hnil, dotsOf]
      · simp [← h, dotsOf, join]
  | cons c text ih =>
    have happend : current ++ c :: text = (current ++ [c]) ++ text := by simp
    cases inBracket with
    | true =>
      rw [parseSegments, if_pos rfl] at h
      rw [happend]
      exact ih h
    | false =>
      rw [parseSegments, if_neg Bool.false_ne_true] at h
      by_cases hdot : c = '.'
      · rw [if_pos hdot] at h
        cases hrest : parseSegments false [] text with
        | error e =>
          rw [hrest] at h
          cases h
        | ok rest =>
          rw [hrest] at h
          have hsegments : (if current = [] then rest else current :: rest) = segments := Except.ok.inj h
          obtain ⟨hle, heq⟩ := ih hrest
          rw [List.nil_append] at hle heq
          have hcount : (current ++ c :: text).count '.' = current.count '.' + 1 + text.count '.' := by
            rw [hdot, List.count_append, List.count_cons_self]
            omega
          rw [hcount, ← hsegments]
          split
          · exact ⟨by omega, fun h => by omega⟩
          · have hcons : dotsOf (current :: rest) = current.count '.' + 1 + dotsOf rest := rfl
            refine ⟨by omega, fun h => ?_⟩
            rw [heq (by omega), hdot]
            cases rest with
            | nil =>
              have : dotsOf [] = 0 := rfl
              omega
            | cons segment rest => simp [join]
      · rw [if_neg hdot] at h
        rw [happend]
        exact ih h

/-- The step to the field of a key, if there is a key. -/
def keySteps (k : Chars) : Place := if k = [] then [] else [.key (String.ofList k)]

/-- The steps a segment can lead along. -/
inductive SegmentSteps (u : Unicode) : Chars → Place → Prop
  | stay : SegmentSteps u ['$'] []
  | bare (k : Chars) : SegmentSteps u (k ++ ['[', ']']) (keySteps k)
  | first (k : Chars) : SegmentSteps u (k ++ ['[', ']']) (keySteps k ++ [.index 0])
  | index {k idx : Chars} (hk : '[' ∉ k) (hidx : int? u idx ≠ none) (i : Nat) :
      SegmentSteps u (k ++ '[' :: idx ++ [']']) (keySteps k ++ [.index i])
  | key {k : Chars} (hdollar : k ≠ ['$']) (hclose : ¬ [']'] <:+ k) : SegmentSteps u k [.key (String.ofList k)]

/-- **Where a segment leads from a node**: `$` stays, `[]` takes the first item of a list and
leaves anything else as it is, an index takes an item, counted from the end if it is negative,
and any other segment is a key. -/
inductive SegmentLeads (u : Unicode) (x : Json) : Chars → Place → Prop
  | stay : SegmentLeads u x ['$'] []
  | bare {k : Chars} {y : Json} (hnode : x.nodeAt (keySteps k) = some y) (hitems : ∀ items, y ≠ .arr items) :
      SegmentLeads u x (k ++ ['[', ']']) (keySteps k)
  | first {k : Chars} {items : List Json} (hnode : x.nodeAt (keySteps k) = some (.arr items)) :
      SegmentLeads u x (k ++ ['[', ']']) (keySteps k ++ [.index 0])
  | index {k idx : Chars} {items : List Json} {n : Int} {i : Nat} (hk : '[' ∉ k) (hidx : int? u idx = some n)
      (hnode : x.nodeAt (keySteps k) = some (.arr items)) (hi : (i : Int) = if 0 ≤ n then n else items.length + n) :
      SegmentLeads u x (k ++ '[' :: idx ++ [']']) (keySteps k ++ [.index i])
  | key {k : Chars} (hdollar : k ≠ ['$']) (hclose : ¬ [']'] <:+ k) : SegmentLeads u x k [.key (String.ofList k)]

/-- Where segments lead, one after the other. -/
inductive SegmentsLead (u : Unicode) : Json → List Chars → Place → Prop
  | nil {x : Json} : SegmentsLead u x [] []
  | cons {x y : Json} {segment : Chars} {segments : List Chars} {steps loc : Place}
      (hsegment : SegmentLeads u x segment steps) (hnode : x.nodeAt steps = some y)
      (hrest : SegmentsLead u y segments loc) : SegmentsLead u x (segment :: segments) (steps ++ loc)

section
variable {u : Unicode}

theorem SegmentLeads.steps {x : Json} {segment : Chars} {steps : Place} (h : SegmentLeads u x segment steps) :
    SegmentSteps u segment steps := by
  cases h with
  | stay => exact .stay
  | bare => exact .bare _
  | first => exact .first _
  | index hk hidx => exact .index hk (by rw [hidx]; exact Option.some_ne_none _) _
  | key hdollar hclose => exact .key hdollar hclose

/-- The node that a segment with brackets starts from. -/
theorem nodeAt_keySteps_iff {x y : Json} {k : Chars} (hne : y ≠ .null) :
    x.nodeAt (keySteps k) = some y ↔ (if k = [] then x else x.field k) = y := by
  rw [keySteps]
  by_cases hk : k = []
  · rw [if_pos hk, if_pos hk, Json.nodeAt_nil, Option.some.injEq]
  · rw [if_neg hk, if_neg hk]
    cases x with
    | obj fields =>
      rw [Json.field, JsonObject.get]
      cases hlookup : fields.lookup (String.ofList k) with
      | none => simpa [hlookup] using hne.symm
      | some child => simp [hlookup]
    | null | bool | int | float | str | arr => exact iff_of_false (fun h => by cases h) fun h => hne h.symm

theorem index_eq_some_iff {items : List Json} {n : Int} {y : Json} :
    Json.index items n = some y ↔
      ∃ i : Nat, (i : Int) = (if 0 ≤ n then n else items.length + n) ∧ items[i]? = some y := by
  rw [Json.index]
  by_cases hn : 0 ≤ n
  · rw [if_pos hn, if_pos hn]
    constructor
    · exact fun h => ⟨n.toNat, by omega, h⟩
    · rintro ⟨i, hi, hy⟩
      rwa [show n.toNat = i by omega]
  · rw [if_neg hn, if_neg hn]
    by_cases hfrom : 0 ≤ items.length + n
    · rw [if_pos hfrom]
      constructor
      · exact fun h => ⟨(items.length + n).toNat, by omega, h⟩
      · rintro ⟨i, hi, hy⟩
        rwa [show (items.length + n).toNat = i by omega]
    · rw [if_neg hfrom]
      refine iff_of_false nofun ?_
      rintro ⟨i, hi, -⟩
      omega

/-- From null nothing is reached but null. -/
theorem eq_null_of_nodeAt {loc : Place} {y : Json} (h : Json.null.nodeAt loc = some y) : y = .null := by
  match loc with
  | [] => exact (Option.some.inj h).symm
  | .key _ :: _ | .index _ :: _ => cases h

/-- A segment with a bracket that ends in one is a key with an index. -/
theorem exists_eq_bracketed {segment : Chars} (hopen : '[' ∈ segment) (hclose : [']'] <:+ segment) :
    ∃ k idx, segment = k ++ '[' :: (idx ++ [']']) ∧ '[' ∉ k := by
  obtain ⟨k, rest, rfl, hk⟩ := List.eq_append_cons_of_mem hopen
  obtain ⟨t, ht⟩ := hclose
  cases rest using List.reverseRecOn with
  | nil =>
    have hlast := (List.append_inj' ht rfl).2
    cases hlast
  | append_singleton idx c _ =>
    have hlast : t ++ [']'] = (k ++ '[' :: idx) ++ [c] := by simpa using ht
    cases (List.append_inj' hlast rfl).2
    exact ⟨k, idx, rfl, hk⟩

/-- A segment that leads to a value leads there along some steps. -/
theorem leads_of_walkSegment {x y : Json} {segment : Chars} (h : walkSegment u x segment = .ok y)
    (hne : y ≠ .null) : ∃ steps, SegmentLeads u x segment steps ∧ x.nodeAt steps = some y := by
  rw [walkSegment] at h
  split at h
  · exact absurd (Except.ok.inj h).symm hne
  split at h
  · next hdollar =>
    rw [hdollar]
    exact ⟨[], .stay, by rw [Json.nodeAt_nil, Except.ok.inj h]⟩
  split at h
  · next hbare =>
    obtain ⟨k, rfl⟩ := List.isSuffixOf_iff_suffix.mp hbare
    have htake : (k ++ ['[', ']']).take ((k ++ ['[', ']']).length - 2) = k := by simp
    simp only [htake] at h
    split at h
    · next items htarget =>
      have hhead : items.head?.getD .null = y := Except.ok.inj h
      have hnode := (nodeAt_keySteps_iff (y := .arr items) nofun).mpr htarget
      refine ⟨_, .first hnode, ?_⟩
      rw [Json.nodeAt_append, hnode, Option.bind_some, Json.nodeAt_index, ← List.head?_eq_getElem?]
      cases hitems : items.head? with
      | none =>
        rw [hitems] at hhead
        exact absurd hhead.symm hne
      | some item =>
        rw [hitems] at hhead
        simpa using hhead
    · next hitems =>
      have hnode := (nodeAt_keySteps_iff hne).mpr (Except.ok.inj h)
      refine ⟨_, .bare hnode fun items hitems' => ?_, hnode⟩
      exact hitems items ((Except.ok.inj h).trans hitems')
  split at h
  · next hclose =>
    split at h
    · next hopen =>
      obtain ⟨k, idx, rfl, hk⟩ := exists_eq_bracketed hopen (List.isSuffixOf_iff_suffix.mp hclose)
      have hdrop : ((k ++ '[' :: (idx ++ [']'])).drop (k.length + 1)).dropLast = idx := by
        simp [List.drop_append]
      simp only [takeWhile_key hk, hdrop] at h
      split at h
      · next items n htarget hn =>
        have hnode := (nodeAt_keySteps_iff (y := .arr items) nofun).mpr htarget
        cases hitem : Json.index items n with
        | none =>
          rw [hitem] at h
          exact absurd (Except.ok.inj h).symm hne
        | some item =>
          rw [hitem] at h
          have hitem' : item = y := Except.ok.inj h
          obtain ⟨i, hi, hget⟩ := index_eq_some_iff.mp hitem
          have hshape : k ++ '[' :: (idx ++ [']']) = k ++ '[' :: idx ++ [']'] := by simp
          rw [hshape]
          refine ⟨_, .index hk hn hnode hi, ?_⟩
          rw [Json.nodeAt_append, hnode, Option.bind_some, Json.nodeAt_index, hget, ← hitem']
          simp
      · exact absurd (Except.ok.inj h).symm hne
    · cases h
  · next hdollar hbare hclose =>
    refine ⟨_, .key hdollar (by rwa [← List.isSuffixOf_iff_suffix]), ?_⟩
    have hfield := Except.ok.inj h
    cases x with
    | obj fields =>
      rw [Json.field, JsonObject.get] at hfield
      cases hlookup : fields.lookup (String.ofList segment) with
      | none =>
        rw [hlookup] at hfield
        exact absurd hfield.symm hne
      | some x =>
        rw [hlookup] at hfield
        simp [hlookup, ← hfield]
    | null | bool | int | float | str | arr => exact absurd hfield.symm hne

/-- A segment leads nowhere else. -/
theorem walkSegment_of_leads {x y : Json} {segment : Chars} {steps : Place} (h : SegmentLeads u x segment steps)
    (hy : x.nodeAt steps = some y) (hne : y ≠ .null) : walkSegment u x segment = .ok y := by
  have hx : x ≠ .null := by
    rintro rfl
    exact hne (eq_null_of_nodeAt hy)
  cases h with
  | stay =>
    rw [walkSegment, if_neg hx, if_pos rfl, ← Option.some.inj ((Json.nodeAt_nil x).symm.trans hy)]
  | @bare k y' hnode hitems =>
    cases hnode.symm.trans hy
    have htarget := (nodeAt_keySteps_iff hne).mp hnode
    rw [walkSegment_bare hx, htarget]
    cases y with
    | arr items => exact absurd rfl (hitems items)
    | null | bool | int | float | str | obj => rfl
  | @first k items hnode =>
    have htarget := (nodeAt_keySteps_iff (y := .arr items) nofun).mp hnode
    rw [Json.nodeAt_append, hnode, Option.bind_some, Json.nodeAt_index, ← List.head?_eq_getElem?] at hy
    rw [walkSegment_bare hx, htarget]
    cases hitems : items.head? with
    | none =>
      rw [hitems] at hy
      cases hy
    | some item =>
      rw [hitems] at hy
      simp only [hitems, Option.getD_some]
      simpa using hy
  | @index k idx items n i hk hidx hnode hi =>
    have htarget := (nodeAt_keySteps_iff (y := .arr items) nofun).mp hnode
    rw [Json.nodeAt_append, hnode, Option.bind_some, Json.nodeAt_index] at hy
    obtain ⟨item, hitem, hy⟩ := Option.bind_eq_some_iff.mp hy
    rw [Json.nodeAt_nil, Option.some.injEq] at hy
    have hempty : idx ≠ [] := by
      rintro rfl
      cases hidx
    have hopen : '[' ∉ idx :=
      notMem_of_int? hidx (digitValue_eq_none (by decide) (by decide)) (by decide) (by decide)
    rw [walkSegment_brackets hx hk hempty hopen, htarget, hidx]
    simp only [index_eq_some_iff.mpr ⟨i, hi, hitem⟩, Option.getD_some, hy]
  | key hdollar hclose =>
    rw [walkSegment_field hx hdollar hclose]
    cases x with
    | obj fields =>
      obtain ⟨child, hchild, hy⟩ := Option.bind_eq_some_iff.mp hy
      rw [Json.nodeAt_nil, Option.some.injEq] at hy
      rw [Json.field, JsonObject.get, hchild, ← hy]
      rfl
    | null | bool | int | float | str | arr => cases hy

theorem foldlM_null (segments : List Chars) : segments.foldlM (walkSegment u) .null = .ok .null := by
  induction segments with
  | nil => rfl
  | cons segment segments ih =>
    rw [List.foldlM_cons, walkSegment, if_pos rfl]
    exact ih

/-- So does a walk along several segments. -/
theorem leads_of_foldlM {x y : Json} {segments : List Chars}
    (h : segments.foldlM (walkSegment u) x = .ok y) (hne : y ≠ .null) :
    ∃ steps, List.Forall₂ (SegmentSteps u) segments steps ∧ SegmentsLead u x segments steps.flatten ∧
      x.nodeAt steps.flatten = some y := by
  induction segments generalizing x with
  | nil => exact ⟨[], .nil, .nil, by rw [List.flatten_nil, Json.nodeAt_nil, Except.ok.inj h]⟩
  | cons segment segments ih =>
    rw [List.foldlM_cons] at h
    cases hstep : walkSegment u x segment with
    | error e =>
      rw [hstep] at h
      cases h
    | ok z =>
      rw [hstep] at h
      have hz : z ≠ .null := by
        rintro rfl
        exact hne (Except.ok.inj (h.symm.trans (foldlM_null segments)))
      obtain ⟨step, hsegment, hnode⟩ := leads_of_walkSegment hstep hz
      obtain ⟨steps, hsteps, hsegments, hnodes⟩ := ih h
      refine ⟨step :: steps, .cons hsegment.steps hsteps, .cons hsegment hnode hsegments, ?_⟩
      rw [List.flatten_cons, Json.nodeAt_append, hnode, Option.bind_some, hnodes]

theorem foldlM_of_leads {x y : Json} {segments : List Chars} {loc : Place} (h : SegmentsLead u x segments loc)
    (hy : x.nodeAt loc = some y) (hne : y ≠ .null) : segments.foldlM (walkSegment u) x = .ok y := by
  induction h with
  | nil =>
    rw [Json.nodeAt_nil, Option.some.injEq] at hy
    rw [hy]
    rfl
  | @cons x z segment segments steps loc hsegment hnode hrest ih =>
    rw [Json.nodeAt_append, hnode, Option.bind_some] at hy
    have hz : z ≠ .null := by
      rintro rfl
      exact hne (eq_null_of_nodeAt hy)
    rw [List.foldlM_cons, walkSegment_of_leads hsegment hnode hz]
    exact ih hy

/-- A segment leads along at most one key, and then shares its dots. -/
theorem SegmentSteps.count_chars {segment : Chars} {steps : Place} (h : SegmentSteps u segment steps) :
    steps.chars.count '.' ≤ segment.count '.' + 1 := by
  have hkey (k : Chars) : (keySteps k).chars.count '.' ≤ k.count '.' + 1 := by
    rw [keySteps]
    split
    · exact Nat.zero_le _
    · simp [PathStep.chars]
  have hindex (i : Nat) : (PathStep.index i).chars.count '.' = 0 := by
    refine List.count_eq_zero.mpr ?_
    simp [PathStep.chars, notMem_toDigits (c := '.') (by decide) i]
  cases h with
  | stay => decide
  | bare k => simpa using hkey k
  | first k => simpa [hindex] using hkey k
  | @index k idx hk hidx i =>
    have hle := hkey k
    simp only [Place.chars_append, Place.chars_cons, Place.chars_nil, List.append_nil, List.count_append,
      hindex] at hle ⊢
    omega
  | key hdollar hclose => simp [PathStep.chars]

/-- Whether a text ends here or goes on with a key. -/
def Ends (text : Chars) : Prop := text = [] ∨ ∃ rest, text = '.' :: rest

theorem Ends.stops {text : Chars} (h : Ends text) : Delimited.Stops (· ≠ '.') text := by
  rcases h with rfl | ⟨rest, rfl⟩
  · exact .nil
  · exact .cons (by decide) rest

/-- In a segment, a dot stands behind an opening bracket. -/
theorem notMem_of_isSegment {k rest : Chars} (h : isSegment false (k ++ rest) = true) (hk : '[' ∉ k) :
    '.' ∉ k := by
  induction k with
  | nil => exact List.not_mem_nil
  | cons c k ih =>
    rw [List.mem_cons, not_or] at hk
    rw [List.cons_append, isSegment, if_neg Bool.false_ne_true, Bool.and_eq_true, decide_eq_true_iff,
      decide_eq_false (Ne.symm hk.1)] at h
    rw [List.mem_cons, not_or]
    exact ⟨Ne.symm h.1, ih h.2 hk.2⟩

/-- **A segment that is also the print of its steps is legible.** -/
theorem SegmentSteps.legible {segment : Chars} {steps : Place} (h : SegmentSteps u segment steps)
    (hcount : steps.chars.count '.' = segment.count '.' + 1) (hne : segment ≠ [])
    (hsegment : isSegment false segment = true) {text text' : Chars} (htext : Ends text) (htext' : Ends text')
    (heq : steps.chars ++ text = '.' :: segment ++ text') :
    text = text' ∧ ∀ rest : Place, rest.legible = true → Place.legible (steps ++ rest) = true := by
  have hkeySteps {k tail : Chars} (hnil : (keySteps k).chars.count '.' = (k ++ tail).count '.' + 1) :
      k ≠ [] ∧ keySteps k = [.key (String.ofList k)] := by
    have hk : k ≠ [] := by
      rintro rfl
      have : (keySteps []).chars.count '.' = 0 := rfl
      omega
    exact ⟨hk, if_neg hk⟩
  cases h with
  | stay => cases hcount
  | bare k =>
    -- the brackets were not printed
    rw [(hkeySteps hcount).2] at heq
    simp only [Place.chars_cons, Place.chars_nil, PathStep.chars, String.toList_ofList, List.append_nil,
      List.cons_append, List.cons.injEq, true_and, List.append_assoc] at heq
    have htail := List.append_cancel_left heq
    rcases htext with rfl | ⟨r, rfl⟩ <;> cases htail
  | first k =>
    -- what was printed has a digit in the brackets
    have hchars : (keySteps k ++ [PathStep.index 0]).chars = (keySteps k).chars ++ ['[', '0', ']'] :=
      Place.chars_append _ _
    rw [hchars, List.count_append] at hcount
    rw [hchars, (hkeySteps hcount).2] at heq
    simp only [Place.chars_cons, Place.chars_nil, PathStep.chars, String.toList_ofList, List.append_nil,
      List.cons_append, List.cons.injEq, true_and, List.append_assoc] at heq
    cases List.append_cancel_left heq
  | @index k idx hk hidx i =>
    have hdigits : '.' ∉ (PathStep.index i).chars := by
      simp [PathStep.chars, notMem_toDigits (c := '.') (by decide) i]
    have hchars : (keySteps k ++ [PathStep.index i]).chars = (keySteps k).chars ++ (PathStep.index i).chars := by
      simp
    rw [hchars, List.count_append, List.count_eq_zero.mpr hdigits, Nat.add_zero, List.append_assoc] at hcount
    obtain ⟨hknil, hkey⟩ := hkeySteps hcount
    rw [hchars, hkey] at heq
    simp only [Place.chars_cons, Place.chars_nil, PathStep.chars, String.toList_ofList, List.append_nil,
      List.cons_append, List.cons.injEq, true_and, List.append_assoc] at heq
    have htail := (List.cons.inj (List.append_cancel_left heq)).2
    obtain ⟨j, hj⟩ := Option.ne_none_iff_exists'.mp hidx
    have hidxDot : '.' ∉ idx := notMem_of_int? hj (digitValue_eq_none (by decide) (by decide)) (by decide) (by decide)
    have hdotless {s : Chars} (hs : '.' ∉ s) : ∀ c ∈ s ++ [']'], decide (c ≠ '.') = true := by
      intro c hc
      rw [decide_eq_true_iff]
      rintro rfl
      simp [hs] at hc
    obtain ⟨hbrackets, htexts⟩ := Delimited.append_inj (s := Nat.toDigits 10 i ++ [']']) (t := idx ++ [']'])
      (hdotless (notMem_toDigits (by decide) i)) (hdotless hidxDot) htext.stops htext'.stops (by simpa using htail)
    have hidxEq : idx = Nat.toDigits 10 i := (List.append_cancel_right hbrackets).symm
    rw [List.append_assoc] at hsegment
    refine ⟨htexts, fun rest hrest => ?_⟩
    rw [hkey]
    simp only [List.cons_append, List.nil_append, Place.legible, Bool.and_eq_true, decide_eq_true_iff, hrest, and_true]
    refine ⟨keyIndexed_iff.mpr ⟨by simpa using hknil, ?_, by simpa using hk⟩, length_le_of_int? (hidxEq ▸ hj)⟩
    simpa using notMem_of_isSegment hsegment hk
  | key hdollar hclose =>
    simp only [Place.chars_cons, Place.chars_nil, PathStep.chars, String.toList_ofList, List.append_nil,
      List.cons_append, List.cons.injEq, true_and] at heq
    refine ⟨List.append_cancel_left heq, fun rest hrest => ?_⟩
    rw [List.singleton_append, Place.legible_key _ (legible_ne_index hrest), hrest, Bool.and_true]
    refine keyAlone_iff.mpr ⟨by simpa using hne, ?_, by simpa using hsegment, by simpa using hclose⟩
    rw [Ne, ← String.toList_inj, String.toList_ofList]
    exact hdollar

theorem SegmentSteps.ends {segment : Chars} {steps : Place} (h : SegmentSteps u segment steps)
    (hcount : steps.chars.count '.' = segment.count '.' + 1) (text : Chars) : Ends (steps.chars ++ text) := by
  have hkey {k : Chars} (rest : Place) (hpos : 0 < (keySteps k).chars.count '.') :
      Ends ((keySteps k ++ rest).chars ++ text) := by
    rw [keySteps] at hpos ⊢
    split at hpos
    · cases hpos
    · next hk =>
      rw [if_neg hk]
      exact .inr ⟨_, rfl⟩
  cases h with
  | stay => cases hcount
  | bare k => simpa using hkey [] (hcount ▸ Nat.succ_pos _)
  | first k =>
    refine hkey _ ?_
    have hzero : (Place.chars [PathStep.index 0]).count '.' = 0 := rfl
    rw [Place.chars_append, List.count_append, hzero] at hcount
    omega
  | @index k idx hk hidx i =>
    refine hkey _ ?_
    have hzero : (Place.chars [PathStep.index i]).count '.' = 0 := by
      refine List.count_eq_zero.mpr ?_
      simp [PathStep.chars, notMem_toDigits (c := '.') (by decide) i]
    rw [Place.chars_append, List.count_append, hzero] at hcount
    omega
  | key hdollar hclose => exact .inr ⟨_, rfl⟩

theorem dotsOf_cons (segment : Chars) (segments : List Chars) :
    dotsOf (segment :: segments) = segment.count '.' + 1 + dotsOf segments := rfl

theorem count_chars_le {segments : List Chars} {steps : List Place}
    (h : List.Forall₂ (SegmentSteps u) segments steps) :
    (Place.chars steps.flatten).count '.' ≤ dotsOf segments := by
  induction h with
  | nil => exact Nat.zero_le _
  | cons hstep _ ih =>
    rw [List.flatten_cons, Place.chars_append, List.count_append, dotsOf_cons]
    exact Nat.add_le_add hstep.count_chars ih

/-- If no dot is lost over some segments, none is lost over the first, nor over the others. -/
theorem count_chars_cons {segment : Chars} {step : Place} {segments : List Chars} {steps : List Place}
    (hstep : SegmentSteps u segment step) (hsteps : List.Forall₂ (SegmentSteps u) segments steps)
    (hcount : (Place.chars (step :: steps).flatten).count '.' = dotsOf (segment :: segments)) :
    step.chars.count '.' = segment.count '.' + 1 ∧ (Place.chars steps.flatten).count '.' = dotsOf segments := by
  rw [List.flatten_cons, Place.chars_append, List.count_append, dotsOf_cons] at hcount
  have hle := hstep.count_chars
  have hle' := count_chars_le hsteps
  omega

/-- Segments that lead along just what was printed. -/
theorem legible_of_steps {segments : List Chars} {steps : List Place}
    (h : List.Forall₂ (SegmentSteps u) segments steps)
    (hsegments : ∀ segment ∈ segments, segment ≠ [] ∧ isSegment false segment = true)
    (hcount : (Place.chars steps.flatten).count '.' = dotsOf segments)
    (htext : segments ≠ [] → Place.chars steps.flatten = '.' :: join ['.'] segments) :
    Place.legible steps.flatten = true := by
  induction h with
  | nil => rfl
  | @cons segment step segments steps hstep hsteps ih =>
    obtain ⟨hfirst, hothers⟩ := count_chars_cons hstep hsteps hcount
    obtain ⟨hne, hsegment⟩ := hsegments segment List.mem_cons_self
    have htext := htext (List.cons_ne_nil _ _)
    rw [List.flatten_cons, Place.chars_append] at htext
    have ih := ih (fun s hs => hsegments s (List.mem_cons_of_mem _ hs)) hothers
    cases hsteps with
    | nil =>
      have hlegible := hstep.legible hfirst hne hsegment (.inl rfl) (.inl rfl) (by simpa [join] using htext)
      exact hlegible.2 [] rfl
    | @cons segment' step' segments' steps' hstep' hsteps' =>
      have hends : Ends (Place.chars (step' :: steps').flatten) := by
        rw [List.flatten_cons, Place.chars_append]
        exact hstep'.ends (count_chars_cons hstep' hsteps' hothers).1 _
      have hlegible := hstep.legible hfirst hne hsegment hends (.inr ⟨join ['.'] (segment' :: segments'), rfl⟩)
        (by simpa [join] using htext)
      exact hlegible.2 _ (ih fun _ => hlegible.1)

theorem parsePath_path (k : String) (loc : Place) :
    parsePath (Place.path (.key k :: loc)) = parseSegments false [] (k.toList ++ loc.chars) := by
  rw [parsePath, Place.path, String.toList_ofList]
  rfl

/-- A printed place that leads back to itself is legible. -/
theorem legible_of_parse {k : String} {loc : Place} {segments : List Chars} {steps : List Place}
    (hparse : parseSegments false [] (k.toList ++ loc.chars) = .ok segments)
    (hsteps : List.Forall₂ (SegmentSteps u) segments steps) (hloc : steps.flatten = .key k :: loc) :
    Place.legible (.key k :: loc) = true := by
  have hchars : Place.chars steps.flatten = '.' :: (k.toList ++ loc.chars) := by
    rw [hloc]
    rfl
  obtain ⟨hle, hjoin⟩ := dots_of_parseSegments hparse
  have hle' := count_chars_le hsteps
  rw [hchars, List.count_cons_self] at hle'
  have heq : dotsOf segments = (k.toList ++ loc.chars).count '.' + 1 := Nat.le_antisymm hle hle'
  rw [← hloc]
  refine legible_of_steps hsteps (isSegment_of_parseSegments hparse fun k hk => hk) ?_ fun _ => ?_
  · rw [hchars, List.count_cons_self, heq]
  · rw [hchars, ← hjoin heq, List.nil_append]

end

/-! ### Discovered paths resolve -/

/-- **Where the path of a place leads the adapter**: to the place if it is legible, and else to
where its grammar splits the path, which is never the place itself. -/
inductive LeadsTo (u : Unicode) (payload : JsonObject) (loc : Place) : Place → Prop
  | itself (hlegible : loc.legible = true) : LeadsTo u payload loc loc
  | elsewhere {segments : List Chars} {loc' : Place} (hillegible : loc.legible = false)
      (hparse : parsePath loc.path = .ok segments) (hleads : SegmentsLead u (.obj payload) segments loc')
      (hne : loc' ≠ loc) : LeadsTo u payload loc loc'

/-- The value that a path leads to. -/
def PathLeads (u : Unicode) (payload : JsonObject) (path : String) (y : Json) : Prop :=
  y ≠ .null ∧ ∃ segments loc, parsePath path = .ok segments ∧ SegmentsLead u (.obj payload) segments loc ∧
    (Json.obj payload).nodeAt loc = some y

/-- **A path resolves to the value that it leads to.** -/
theorem pathLeads_iff {u : Unicode} {payload : JsonObject} {path : String} (hpath : path ≠ "") {y : Json} :
    PathLeads u payload path y ↔ y ≠ .null ∧ resolvePath u payload (.str path) = .ok y := by
  have htruthy : (Json.str path).truthy = true := by
    rw [Json.truthy, decide_eq_true_iff]
    exact hpath
  rw [PathLeads, resolvePath, if_pos htruthy]
  refine and_congr_right fun hne => ?_
  cases hparse : parsePath path with
  | error e =>
    constructor
    · rintro ⟨segments, loc, h, -⟩
      cases h
    · intro h
      cases h
  | ok segments =>
    constructor
    · rintro ⟨segments', loc, h, hleads, hnode⟩
      cases h
      exact foldlM_of_leads hleads hnode hne
    · intro h
      obtain ⟨steps, -, hleads, hnode⟩ := leads_of_foldlM h hne
      exact ⟨segments, _, rfl, hleads, hnode⟩

/-- What the discoverer prints for a value, the adapter resolves to a leaf with its text. -/
def ReadsBack (u : Unicode) (payload : JsonObject) (value : Json) : Prop :=
  ∀ path, findValuePath u payload value = some path →
    ∃ leaf, resolvePath u payload (.str path) = .ok leaf ∧ leaf.IsLeaf ∧ leaf ≠ .null ∧
      strip (leaf.text u) = strip (value.text u)

section
variable {u : Unicode} {payload : JsonObject} {loc : Place} {leaf : Json} (hleaf : leaf.IsLeaf)
  (hloc : (Json.obj payload).nodeAt loc = some leaf)
include hleaf hloc

/-- **What the path of a leaf resolves to** stands where it leads. -/
theorem resolvePath_eq_ok_iff {y : Json} (hne : y ≠ .null) :
    resolvePath u payload (.str loc.path) = .ok y ↔
      ∃ loc', LeadsTo u payload loc loc' ∧ (Json.obj payload).nodeAt loc' = some y := by
  constructor
  · intro h
    cases hlegible : loc.legible with
    | true =>
      rw [resolvePath_legible hlegible hloc, Except.ok.injEq] at h
      exact ⟨loc, .itself hlegible, h ▸ hloc⟩
    | false =>
      rw [resolvePath, if_pos (truthy_path loc)] at h
      obtain ⟨segments, hparse, hwalk⟩ := bind_eq_ok.mp h
      obtain ⟨steps, hsteps, hleads, hnode⟩ := leads_of_foldlM hwalk hne
      refine ⟨_, .elsewhere hlegible hparse hleads fun hback => ?_, hnode⟩
      match loc with
      | [] =>
        cases hloc
        exact absurd rfl hleaf
      | .index i :: loc => cases hloc
      | .key k :: loc =>
        rw [parsePath_path] at hparse
        rw [legible_of_parse hparse hsteps hback] at hlegible
        cases hlegible
  · rintro ⟨loc', hleads, hnode⟩
    cases hleads with
    | itself hlegible => exact resolvePath_legible hlegible hnode
    | elsewhere hillegible hparse hleads hback =>
      rw [resolvePath, if_pos (truthy_path loc)]
      simp only [hparse]
      exact foldlM_of_leads hleads hnode hne

end

section
variable {u : Unicode} {payload : JsonObject}

/-- **The path discovered for a value resolves** to a leaf with its text if and only if the first
match of the value is at a legible place, or its path leads to another match. -/
theorem readsBack_iff_legible (hdicts : (Json.obj payload).Dicts) {value : Json} (hvalue : value ≠ .null) :
    ReadsBack u payload value ↔
      ∀ loc leaf, FirstMatch u payload value loc leaf →
        loc.legible = true ∨
          ∃ loc' leaf', loc' ≠ loc ∧ LeadsTo u payload loc loc' ∧ Matches u payload value loc' leaf' := by
  constructor
  · intro h loc leaf hfirst
    obtain ⟨hloc, hleaf, -, -⟩ := hfirst.matches hdicts
    obtain ⟨leaf', hresolve, hleaf', hnull', htext'⟩ :=
      h _ ((findValuePath_eq_some hvalue).mpr ⟨loc, leaf, hfirst, rfl⟩)
    obtain ⟨loc', hleads, hloc'⟩ := (resolvePath_eq_ok_iff hleaf hloc hnull').mp hresolve
    cases hleads with
    | itself hlegible => exact .inl hlegible
    | elsewhere hillegible hparse hsegments hne =>
      exact .inr ⟨loc', leaf', hne, .elsewhere hillegible hparse hsegments hne, hloc', hleaf', hnull', htext'⟩
  · intro h path hpath
    obtain ⟨loc, leaf, hfirst, rfl⟩ := (findValuePath_eq_some hvalue).mp hpath
    obtain ⟨hloc, hleaf, hnull, htext⟩ := hfirst.matches hdicts
    rcases h loc leaf hfirst with hlegible | ⟨loc', leaf', -, hleads, hloc', hleaf', hnull', htext'⟩
    · exact ⟨leaf, resolvePath_legible hlegible hloc, hleaf, hnull, htext⟩
    · exact ⟨leaf', (resolvePath_eq_ok_iff hleaf hloc hnull').mpr ⟨loc', hleads, hloc'⟩, hleaf', hnull', htext'⟩

end

/-- A dot in a key does no harm where the value is found elsewhere first, or where the path leads
to the same value. -/
theorem readsBack_iff_legible_witness :
    ReadsBack (Externals.ofTables [] [] [] []).toUnicode [("a.b", .null), ("x", .int 1)] (.int 1) ∧
      ReadsBack (Externals.ofTables [] [] [] []).toUnicode [("a.b", .int 1), ("a", .obj [("b", .int 1)])] (.int 1) := by
  constructor
  · have hdicts : (Json.obj [("a.b", .null), ("x", .int 1)]).Dicts := Json.dicts_of_everyObject (by decide)
    refine (readsBack_iff_legible hdicts (by decide)).mpr fun loc leaf hfirst => .inl ?_
    have hone : FirstMatch (Externals.ofTables [] [] [] []).toUnicode [("a.b", .null), ("x", .int 1)] (.int 1)
        [.key "x"] (.int 1) := ⟨[], [], by decide, by simp, by simp⟩
    obtain ⟨rfl, rfl⟩ := FirstLeaf.unique hone hfirst
    decide
  · have hdicts : (Json.obj [("a.b", .int 1), ("a", .obj [("b", .int 1)])]).Dicts :=
      Json.dicts_of_everyObject (by decide)
    refine (readsBack_iff_legible hdicts (by decide)).mpr fun loc leaf hfirst => .inr ?_
    have hone : FirstMatch (Externals.ofTables [] [] [] []).toUnicode [("a.b", .int 1), ("a", .obj [("b", .int 1)])]
        (.int 1) [.key "a.b"] (.int 1) :=
      ⟨[], [([.key "a", .key "b"], .int 1)], by decide, by simp, by decide⟩
    obtain ⟨rfl, rfl⟩ := FirstLeaf.unique hone hfirst
    have hleads : SegmentsLead (Externals.ofTables [] [] [] []).toUnicode
        (.obj [("a.b", .int 1), ("a", .obj [("b", .int 1)])]) [['a'], ['b']] [.key "a", .key "b"] :=
      .cons (.key (by decide) (by decide)) rfl (.cons (.key (by decide) (by decide)) rfl .nil)
    exact ⟨[.key "a", .key "b"], .int 1, by decide, .elsewhere (by decide) (by decide) hleads (by decide), rfl,
      by decide, by decide, rfl⟩

/-- The discoverer finds the number at `$.rows[0][0]`, where the adapter finds nothing. -/
theorem nested_array_not_readsBack :
    (Json.obj [("rows", .arr [.arr [.int 1]])]).Dicts ∧ Json.int 1 ≠ .null ∧
      findValuePath (Externals.ofTables [] [] [] []).toUnicode [("rows", .arr [.arr [.int 1]])] (.int 1) =
        some "$.rows[0][0]" ∧
      resolvePath (Externals.ofTables [] [] [] []).toUnicode [("rows", .arr [.arr [.int 1]])]
        (.str "$.rows[0][0]") = .ok .null ∧
      ¬ ReadsBack (Externals.ofTables [] [] [] []).toUnicode [("rows", .arr [.arr [.int 1]])] (.int 1) := by
  have hfind : findValuePath (Externals.ofTables [] [] [] []).toUnicode [("rows", .arr [.arr [.int 1]])] (.int 1) =
      some "$.rows[0][0]" := by decide
  have hresolve : resolvePath (Externals.ofTables [] [] [] []).toUnicode [("rows", .arr [.arr [.int 1]])]
      (.str "$.rows[0][0]") = .ok .null := by decide
  refine ⟨Json.dicts_of_everyObject (by decide), by decide, hfind, hresolve, fun h => ?_⟩
  obtain ⟨leaf, hleaf, -, hnull, -⟩ := h _ hfind
  exact hnull (Except.ok.inj (hleaf.symm.trans hresolve))

end WebhookIngestion
