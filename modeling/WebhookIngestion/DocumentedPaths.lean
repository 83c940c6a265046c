import WebhookIngestion.DiscoveredPaths

/-! # The documented grammar of paths

A path of the grammar is `$.` and some segments between dots: a key, and behind it an index or
`[]`, or nothing.  The scanner of `_parse_path` gives the segments back as they were written,
and the walker, which takes each of them apart again by its suffix, does what the grammar
says of it (`PathSegment.walk`). -/
namespace WebhookIngestion
open Text Programs

/-! ### The grammar -/

/-- A key of the grammar. -/
def isPathKey (k : Chars) : Bool :=
  k ≠ [] && k ≠ ['$'] && !k.contains '.' && !k.contains '[' && !k.contains ']'

/-- What stands behind a key. -/
inductive PathSuffix where
  | nothing
  | index (n : Nat)
  | bare

structure PathSegment where
  key : Chars
  suffix : PathSuffix
  key_ok : isPathKey key = true

def PathSuffix.chars : PathSuffix → Chars
  | nothing => []
  | index n => '[' :: Nat.toDigits 10 n ++ [']']
  | bare => ['[', ']']

def PathSegment.chars (segment : PathSegment) : Chars := segment.key ++ segment.suffix.chars

/-- `$.` and the segments joined with dots. -/
def documentedPath (segments : List PathSegment) : String :=
  String.ofList ('$' :: '.' :: join ['.'] (segments.map PathSegment.chars))

/-! ### What the segments say -/

/-- The value behind a suffix; `none` is a failure. -/
def PathSuffix.walk : PathSuffix → Json → Option Json
  | nothing, x => some x
  | index n, .arr items => items[n]?
  | index _, _ => none
  | bare, .arr items => items.head?
  | bare, x => some x

/-- The value at a segment: from null there is only null. -/
def PathSegment.walk (segment : PathSegment) : Json → Option Json
  | .null => some .null
  | .obj fields => segment.suffix.walk (JsonObject.get fields (String.ofList segment.key))
  | _ => none

/-- No list in a document is longer than `sys.maxsize`. -/
def Json.ListsFit (x : Json) : Prop := ∀ loc items, x.nodeAt loc = some (.arr items) → items.length < 2 ^ 63

theorem Json.ListsFit.nodeAt {x y : Json} (h : x.ListsFit) {loc : Place} (hy : x.nodeAt loc = some y) :
    y.ListsFit := by
  intro loc' items hitems
  refine h (loc ++ loc') items ?_
  rw [Json.nodeAt_append, hy]
  exact hitems

theorem Json.listsFit_null : Json.null.ListsFit := by
  intro loc items h
  cases loc with
  | nil => cases h
  | cons step loc => cases step <;> cases h

theorem Json.ListsFit.length {items : List Json} (h : (Json.arr items).ListsFit) : items.length < 2 ^ 63 :=
  h [] items (Json.nodeAt_nil _)

theorem Json.ListsFit.item {items : List Json} (h : (Json.arr items).ListsFit) {n : Nat} {item : Json}
    (hitem : items[n]? = some item) : item.ListsFit := by
  have hnode : (Json.arr items).nodeAt [.index n] = some item := by
    rw [Json.nodeAt_index, hitem, Option.bind_some, Json.nodeAt_nil]
  exact h.nodeAt hnode

theorem Json.ListsFit.field {x : Json} (h : x.ListsFit) (k : Chars) : (x.field k).ListsFit := by
  cases x with
  | obj fields =>
    rw [Json.field, JsonObject.get]
    cases hlookup : fields.lookup (String.ofList k) with
    | none => exact Json.listsFit_null
    | some child =>
      have hnode : (Json.obj fields).nodeAt [.key (String.ofList k)] = some child := by
        rw [Json.nodeAt_key, hlookup, Option.bind_some, Json.nodeAt_nil]
      exact h.nodeAt hnode
  | null | bool | int | float | str | arr => exact Json.listsFit_null

theorem PathSuffix.listsFit_walk {suffix : PathSuffix} {x y : Json} (hx : x.ListsFit) (h : suffix.walk x = some y) :
    y.ListsFit := by
  cases suffix with
  | nothing =>
    cases h
    exact hx
  | index n =>
    cases x with
    | arr items => exact hx.item h
    | null | bool | int | float | str | obj => cases h
  | bare =>
    cases x with
    | arr items =>
      rw [PathSuffix.walk, List.head?_eq_getElem?] at h
      exact hx.item h
    | null | bool | int | float | str | obj =>
      cases h
      exact hx

namespace PathSegment

theorem key_iff {k : Chars} : isPathKey k = true ↔ k ≠ [] ∧ k ≠ ['$'] ∧ '.' ∉ k ∧ '[' ∉ k ∧ ']' ∉ k := by
  simp [isPathKey, and_assoc]

variable (segment : PathSegment)

theorem chars_ne_nil : segment.chars ≠ [] := by
  intro h
  exact (key_iff.mp segment.key_ok).1 (List.append_eq_nil_iff.mp h).1

/-! ### Parsing -/

theorem isSegment_chars : isSegment false segment.chars = true := by
  obtain ⟨-, -, hdot, hopen, -⟩ := key_iff.mp segment.key_ok
  refine isSegment_append (isSegment_of_plain hdot hopen) ?_
  cases segment.suffix with
  | nothing => rfl
  | index n => exact isSegment_index n
  | bare => rfl

theorem parseSegments_join (segments : List PathSegment) :
    parseSegments false [] (join ['.'] (segments.map PathSegment.chars)) = .ok (segments.map PathSegment.chars) := by
  induction segments with
  | nil => rfl
  | cons segment segments ih =>
    cases segments with
    | nil =>
      have hparse := parseSegments_append segment.isSegment_chars [] []
      rw [List.append_nil, List.nil_append] at hparse
      exact hparse.trans (parseSegments_end segment.chars_ne_nil)
    | cons next segments =>
      have hjoin : join ['.'] ((segment :: next :: segments).map PathSegment.chars) =
          segment.chars ++ '.' :: join ['.'] ((next :: segments).map PathSegment.chars) := List.append_assoc _ _ _
      rw [hjoin, parseSegments_append segment.isSegment_chars, List.nil_append,
        parseSegments_dot segment.chars_ne_nil]
      exact congrArg (Except.map (segment.chars :: ·)) ih

/-! ### Walking -/

variable {u : Unicode}

/-- What a segment says of anything but null. -/
theorem walk_eq {x : Json} (hx : x ≠ .null) :
    (segment.walk x).getD .null = (segment.suffix.walk (x.field segment.key)).getD .null := by
  cases x with
  | obj fields => rfl
  | null => exact absurd rfl hx
  | bool | int | float | str | arr => cases segment.suffix <;> rfl

/-- An index that Python cannot convert is beyond the end of any list. -/
theorem index_documented (n : Nat) {items : List Json} (hitems : items.length < 2 ^ 63) :
    ((PathSuffix.index n).walk (.arr items)).getD .null =
      ((int? u (Nat.toDigits 10 n)).bind (Json.index items)).getD .null := by
  by_cases hlength : (Nat.toDigits 10 n).length ≤ 4300
  · rw [int?_toDigits hlength]
    simp [PathSuffix.walk, Json.index]
  · have hbig : ¬ n < 10 ^ 19 := by
      rw [← Nat.length_toDigits_le_iff (by decide) (by decide)]
      omega
    have hbeyond : items.length ≤ n := by omega
    have hnone : int? u (Nat.toDigits 10 n) = none := by
      cases hread : int? u (Nat.toDigits 10 n) with
      | none => rfl
      | some i => exact absurd (length_le_of_int? hread) hlength
    rw [hnone, PathSuffix.walk, List.getElem?_eq_none hbeyond]
    rfl

theorem walkSegment_bare {x : Json} (hx : x ≠ .null) {k : Chars} (hne : k ≠ []) :
    walkSegment u x (k ++ PathSuffix.bare.chars) = .ok ((PathSuffix.bare.walk (x.field k)).getD .null) := by
  have hdollar : k ++ ['[', ']'] ≠ ['$'] := by
    intro h
    have hlast : (k ++ ['[']) ++ [']'] = [] ++ ['$'] := by simpa using h
    cases (List.append_inj' hlast rfl).2
  have hkey : (k ++ ['[', ']']).take ((k ++ ['[', ']']).length - 2) = k := by simp
  rw [PathSuffix.chars, walkSegment, if_neg hx, if_neg hdollar,
    if_pos (List.isSuffixOf_iff_suffix.mpr (List.suffix_append _ _))]
  simp only [hkey, hne, if_false]
  cases x.field k <;> rfl

theorem walkSegment_documented {x : Json} (hfit : x.ListsFit) :
    walkSegment u x segment.chars = .ok ((segment.walk x).getD .null) := by
  by_cases hx : x = .null
  · subst hx
    rw [walkSegment, if_pos rfl]
    rfl
  · rw [segment.walk_eq hx]
    obtain ⟨key, suffix, hkey⟩ := segment
    obtain ⟨hne, hdollar, hdot, hopen, hclose⟩ := key_iff.mp hkey
    rw [chars]
    cases suffix with
    | nothing =>
      rw [PathSuffix.chars, List.append_nil]
      exact walkSegment_field hx hdollar fun h => hclose (h.subset List.mem_cons_self)
    | index n =>
      refine walkSegment_indexed hx hne hopen (fun items hitems => ?_) fun hnone => ?_
      · rw [hitems]
        have hlist := hfit.field key
        rw [hitems] at hlist
        exact index_documented n hlist.length
      · cases htarget : x.field key with
        | arr items => exact absurd htarget (hnone items)
        | null | bool | int | float | str | obj => rfl
    | bare => exact walkSegment_bare hx hne

end PathSegment

theorem parsePath_documented (segments : List PathSegment) :
    parsePath (documentedPath segments) = .ok (segments.map PathSegment.chars) := by
  rw [parsePath, documentedPath, String.toList_ofList]
  exact PathSegment.parseSegments_join segments

/-- The segments walked one by one. -/
def walkDocumented (segments : List PathSegment) (x : Json) : Option Json :=
  segments.foldlM (fun x segment => segment.walk x) x

section
variable {u : Unicode}

theorem PathSegment.listsFit_walk {segment : PathSegment} {x y : Json} (hx : x.ListsFit) (h : segment.walk x = some y) :
    y.ListsFit := by
  cases x with
  | null =>
    cases h
    exact hx
  | obj fields => exact PathSuffix.listsFit_walk (hx.field segment.key) h
  | bool | int | float | str | arr => cases h

theorem foldlM_documented {segments : List PathSegment} {x : Json} (hfit : x.ListsFit) :
    (segments.map PathSegment.chars).foldlM (walkSegment u) x = .ok ((walkDocumented segments x).getD .null) := by
  induction segments generalizing x with
  | nil => rfl
  | cons segment segments ih =>
    rw [List.map_cons, List.foldlM_cons, segment.walkSegment_documented hfit, walkDocumented, List.foldlM_cons]
    cases hwalk : segment.walk x with
    | none => exact foldlM_null _
    | some y => exact ih (segment.listsFit_walk hfit hwalk)

/-- **The scanner and the walker agree with the grammar**: a documented path is parsed into its
segments, and resolved by walking them one by one from the root, where a failure is null. -/
theorem resolvePath_documented (segments : List PathSegment) {payload : JsonObject}
    (hfit : (Json.obj payload).ListsFit) :
    parsePath (documentedPath segments) = .ok (segments.map PathSegment.chars) ∧
      resolvePath u payload (.str (documentedPath segments)) =
        .ok ((walkDocumented segments (.obj payload)).getD .null) := by
  have hparse := parsePath_documented segments
  have htruthy : (Json.str (documentedPath segments)).truthy = true := by
    rw [Json.truthy, decide_eq_true_iff, documentedPath]
    intro h
    have htext := congrArg String.toList h
    rw [String.toList_ofList] at htext
    cases htext
  refine ⟨hparse, ?_⟩
  rw [resolvePath, if_pos htruthy]
  simp only [hparse]
  exact foldlM_documented hfit

end

/-- A list in an object, with the one item of it that the path names. -/
theorem resolvePath_documented_witness :
    parsePath "$.rows[0]" = .ok ["rows[0]".toList] ∧
      resolvePath asciiOnly [("rows", .arr [.int 7])] (.str "$.rows[0]") = .ok (.int 7) := by
  have hfit : (Json.obj [("rows", .arr [.int 7])]).ListsFit := by
    rintro (_ | ⟨_ | _, loc⟩) items h
    · cases h
    · obtain ⟨child, hchild, h⟩ := Option.bind_eq_some_iff.mp h
      cases List.mem_singleton.mp (mem_of_lookup hchild)
      rcases loc with _ | ⟨_ | _, loc⟩
      · cases h
        decide
      · cases h
      · obtain ⟨item, hitem, h⟩ := Option.bind_eq_some_iff.mp h
        cases List.mem_singleton.mp (List.mem_of_getElem? hitem)
        rcases loc with _ | ⟨_ | _, loc⟩ <;> cases h
    · cases h
  exact resolvePath_documented (u := asciiOnly) [⟨"rows".toList, .index 0, by decide⟩] hfit

end WebhookIngestion
