import WebhookIngestion.DiscoveredPaths

/-! # The leaves of a lesson

Discovery goes by the leaves of a payload: the first one with the text of a value, the first
text with the date of a timestamp or with a currency, or the leaves with the parts of a
composite id.  What the adapter then reads at their places is what their printed paths lead
to (`ReadAs`, `CompositeReads`), which is the leaf itself wherever the place is legible. -/
namespace WebhookIngestion
open Text Programs Choices

/-! ### What a place is read as -/

section Leaves
variable (u : Unicode) (payload : JsonObject)

/-- What the path of a place is read as: the value that it leads to. -/
def ReadAs (loc : Place) (y : Json) : Prop :=
  y ≠ .null ∧ ∃ loc', LeadsTo u payload loc loc' ∧ (Json.obj payload).nodeAt loc' = some y

variable {u payload} in
theorem readAs_iff {loc : Place} {leaf y : Json} (hleaf : leaf.IsLeaf)
    (hloc : (Json.obj payload).nodeAt loc = some leaf) :
    ReadAs u payload loc y ↔ y ≠ .null ∧ resolvePath u payload (.str loc.path) = .ok y := by
  rw [ReadAs]
  exact and_congr_right fun hne => (resolvePath_eq_ok_iff hleaf hloc hne).symm

/-! ### Timestamps and amounts -/

/-- Whether a leaf is a text with a date and a time on it. -/
def isTextOfDate (year month day : Chars) (leaf : Json) : Bool :=
  match leaf with
  | .str s => looksLikeTimestamp year s.toList && dateMatches year month day s.toList
  | _ => false

/-- The leaf that discovery goes by for a timestamp: the first one with its text, and where there is
none, the first text of its date, those under a key that has to do with time before the others. -/
inductive TimestampLeaf (ts : String) (loc : Place) (leaf : Json) : Prop
  | text (hfirst : FirstMatch u payload (.str ts) loc leaf)
  | date {year month day : Chars} (hnone : ∀ loc leaf, ¬ FirstMatch u payload (.str ts) loc leaf)
      (hdate : matchDate u ts.toList = some (year, month, day))
      (hfirst : FirstLeaf scoreLe (isTextOfDate year month day) payload loc leaf)

/-- Whether a leaf is a text with the currency in it. -/
def isTextOfCurrency (currency : String) (leaf : Json) : Bool :=
  match leaf with
  | .str s => contains currency.toList (upper s.toList)
  | _ => false

variable {u payload}

theorem TimestampLeaf.nodeAt {ts : String} {loc : Place} {leaf : Json} (hdicts : (Json.obj payload).Dicts)
    (h : TimestampLeaf u payload ts loc leaf) : (Json.obj payload).nodeAt loc = some leaf ∧ leaf.IsLeaf := by
  cases h with
  | text hfirst =>
    obtain ⟨hloc, hleaf, -⟩ := hfirst.matches hdicts
    exact ⟨hloc, hleaf⟩
  | date hnone hdate hfirst =>
    obtain ⟨hloc, hleaf, -⟩ := FirstLeaf.nodeAt hdicts hfirst
    exact ⟨hloc, hleaf⟩

theorem scoreLe_total (a b : String) : scoreLe a b = true ∨ scoreLe b a = true := by
  rw [scoreLe, scoreLe]
  cases hasTimeKey a <;> cases hasTimeKey b <;> simp [Nat.le_total]

theorem scoreLe_trans (a b c : String) (hab : scoreLe a b = true) (hbc : scoreLe b c = true) :
    scoreLe a c = true := by
  rw [scoreLe] at *
  cases ha : hasTimeKey a <;> cases hb : hasTimeKey b <;> cases hc : hasTimeKey c <;>
    simp only [ha, hb, hc, reduceCtorEq, if_true, if_false, decide_eq_true_eq] at *
  · exact hab.trans hbc
  · exact hab.trans hbc

/-- The discoverer prints the place of the timestamp's leaf. -/
theorem timestampPath_eq_some {ts path : String} :
    (findValuePath u payload (.str ts)).or (findTimestampPath u payload ts) = some path ↔
      ∃ loc leaf, TimestampLeaf u payload ts loc leaf ∧ path = loc.path := by
  have hvalue : Json.str ts ≠ .null := fun h => by cases h
  cases hfound : findValuePath u payload (.str ts) with
  | some path' =>
    obtain ⟨loc, leaf, hfirst, rfl⟩ := (findValuePath_eq_some hvalue).mp hfound
    rw [Option.some_or, Option.some.injEq]
    constructor
    · rintro rfl
      exact ⟨loc, leaf, .text hfirst, rfl⟩
    · rintro ⟨loc', leaf', hleaf, rfl⟩
      cases hleaf with
      | text hfirst' => rw [(hfirst.unique hfirst').1]
      | date hnone => exact absurd hfirst (hnone loc leaf)
  | none =>
    have hnone (loc : Place) (leaf : Json) : ¬ FirstMatch u payload (.str ts) loc leaf := by
      intro hfirst
      rw [(findValuePath_eq_some hvalue).mpr ⟨loc, leaf, hfirst, rfl⟩] at hfound
      cases hfound
    rw [Option.none_or, findTimestampPath]
    cases hdate : matchDate u ts.toList with
    | none =>
      refine iff_of_false (fun h => by cases h) ?_
      rintro ⟨loc, leaf, hleaf, -⟩
      cases hleaf with
      | text hfirst => exact hnone loc leaf hfirst
      | date _ hdate' => cases hdate.symm.trans hdate'
    | some date =>
      obtain ⟨year, month, day⟩ := date
      refine (firstBy_pathsWhere scoreLe_total scoreLe_trans).trans ?_
      constructor
      · rintro ⟨loc, leaf, hfirst, rfl⟩
        exact ⟨loc, leaf, .date hnone hdate hfirst, rfl⟩
      · rintro ⟨loc, leaf, hleaf, rfl⟩
        cases hleaf with
        | text hfirst => exact absurd hfirst (hnone loc leaf)
        | date _ hdate' hfirst =>
          cases hdate.symm.trans hdate'
          exact ⟨loc, leaf, hfirst, rfl⟩

/-- It prints the place of the first text with the currency. -/
theorem findMoneyPath_eq_some {currency path : String} (hcurrency : currency ≠ "") :
    findMoneyPath payload currency = some path ↔
      ∃ loc leaf, FirstLeaf (fun _ _ => true) (isTextOfCurrency currency) payload loc leaf ∧ path = loc.path := by
  rw [findMoneyPath, if_neg hcurrency]
  change (pathsWhere (isTextOfCurrency currency) payload).head? = some path ↔ _
  rw [← FirstLeast.true_iff, pathsWhere_eq, FirstLeast.map_iff, Prod.exists]
  rfl

end Leaves

/-! ### Composite ids -/

section Composites
variable (u : Unicode) (payload : JsonObject)

/-- The placeholder for what stands at a place. -/
def placeholderOf (loc : Place) : Chars := '{' :: loc.path.toList.drop 2 ++ ['}']

/-- The id has two to four parts at a separator, and the payload has each of them: `locs` are the
places of their first matches. -/
structure PartsAt (id : Chars) (sep : Char) (locs : List Place) : Prop where
  number : 2 ≤ (splitChar sep id).length ∧ (splitChar sep id).length ≤ 4
  parts : List.Forall₂ (fun part loc => stripWhere isSpace part ≠ [] ∧
    ∃ leaf, FirstMatch u payload (.str (String.ofList (stripWhere isSpace part))) loc leaf) (splitChar sep id) locs

/-- The first separator at which the payload has the parts of the id. -/
structure CompositeAt (id : Chars) (sep : Char) (locs : List Place) : Prop
    extends PartsAt u payload id sep locs where
  first : ∃ before after, [':', '-', '_', '/'] = before ++ sep :: after ∧
    ∀ other ∈ before, ∀ locs', ¬ PartsAt u payload id other locs'

/-- What a part of a template is read as. -/
inductive PartReads (part : Chars) : Chars → Prop
  | literal (hpart : placeholder? part = none) : PartReads part part
  | value {path : String} {y : Json} (hpart : placeholder? part = some path) (hleads : PathLeads u payload path y)
      (htruthy : y.truthy = true) : PartReads part (y.text u).toList
  | empty {path : String} (hpart : placeholder? part = some path)
      (hleads : ∀ y, PathLeads u payload path y → y.truthy = false) : PartReads part []

/-- A text without the colons, and then the dashes, around it. -/
def trimSeparators (text : Chars) : Chars := stripChar '-' (stripChar ':' text)

/-- The text of a leaf in a template: values that count as false have none. -/
def partText (leaf : Json) : Chars := if leaf.truthy then (leaf.text u).toList else []

/-- **What the template of a composite id is read as**: the texts of the leaves with the separator
between them, where the paths are legible and no placeholder ends within one; and else what the
parts of the template come to. -/
inductive CompositeReads (sep : Char) (locs : List Place) : Chars → Prop
  | plain {leaves : List Json} (hplain : ∀ loc ∈ locs, loc.legible = true ∧ '}' ∉ loc.chars)
      (hleaves : List.Forall₂ (fun loc leaf => (Json.obj payload).nodeAt loc = some leaf ∧ leaf.IsLeaf) locs leaves) :
      CompositeReads sep locs (trimSeparators (join [sep] (leaves.map (partText u))))
  | otherwise {texts : List Chars} (hnot : ¬ ∀ loc ∈ locs, loc.legible = true ∧ '}' ∉ loc.chars)
      (hreads : List.Forall₂ (PartReads u payload) (splitTemplate false [] (join [sep] (locs.map placeholderOf)))
        texts) : CompositeReads sep locs (trimSeparators texts.flatten)

variable {u payload}

theorem compositePart_eq_some {part placeholder : Chars} :
    compositePart u payload part = some placeholder ↔ ∃ loc, (stripWhere isSpace part ≠ [] ∧
      ∃ leaf, FirstMatch u payload (.str (String.ofList (stripWhere isSpace part))) loc leaf) ∧
        placeholder = placeholderOf loc := by
  rw [compositePart]
  by_cases hpart : stripWhere isSpace part = []
  · rw [if_pos hpart]
    refine iff_of_false (fun h => by cases h) ?_
    rintro ⟨loc, ⟨hne, -⟩, -⟩
    exact hne hpart
  · rw [if_neg hpart, Option.map_eq_some_iff]
    constructor
    · rintro ⟨path, hpath, rfl⟩
      obtain ⟨loc, leaf, hfirst, rfl⟩ := (findValuePath_eq_some fun h => by cases h).mp hpath
      exact ⟨loc, ⟨hpart, leaf, hfirst⟩, rfl⟩
    · rintro ⟨loc, ⟨-, leaf, hfirst⟩, rfl⟩
      exact ⟨loc.path, (findValuePath_eq_some fun h => by cases h).mpr ⟨loc, leaf, hfirst, rfl⟩, rfl⟩

/-- A list whose members each come from another one comes from a list of these. -/
theorem forall₂_exists_iff {α β γ : Type} {R : α → β → Prop} {f : β → γ} {l : List α} {r : List γ} :
    List.Forall₂ (fun a c => ∃ b, R a b ∧ c = f b) l r ↔ ∃ bs, List.Forall₂ R l bs ∧ r = bs.map f := by
  constructor
  · intro h
    induction h with
    | nil => exact ⟨[], .nil, rfl⟩
    | cons hhead _ ih =>
      obtain ⟨b, hb, rfl⟩ := hhead
      obtain ⟨bs, hbs, rfl⟩ := ih
      exact ⟨b :: bs, .cons hb hbs, rfl⟩
  · rintro ⟨bs, hbs, rfl⟩
    exact List.forall₂_map_right_iff.mpr (hbs.imp fun _ b hb => ⟨b, hb, rfl⟩)

theorem compositeTemplate_eq_some {id : Chars} {sep : Char} {template : String} :
    compositeTemplate u payload id sep = some template ↔
      ∃ locs, PartsAt u payload id sep locs ∧ template = String.ofList (join [sep] (locs.map placeholderOf)) := by
  rw [compositeTemplate]
  by_cases hnumber : 2 ≤ (splitChar sep id).length ∧ (splitChar sep id).length ≤ 4
  · simp only [if_pos hnumber, Option.map_eq_some_iff, mapM_eq_some, compositePart_eq_some, forall₂_exists_iff]
    constructor
    · rintro ⟨_, ⟨locs, hparts, rfl⟩, rfl⟩
      exact ⟨locs, ⟨hnumber, hparts⟩, rfl⟩
    · rintro ⟨locs, hparts, rfl⟩
      exact ⟨_, ⟨locs, hparts.parts, rfl⟩, rfl⟩
  · simp only [if_neg hnumber, reduceCtorEq, false_iff]
    rintro ⟨locs, hparts, -⟩
    exact hnumber hparts.number

/-- The template is that of the first separator at which the payload has the parts. -/
theorem inferCompositeTemplate_eq_some {id template : String} :
    inferCompositeTemplate u payload id = some template ↔
      ∃ sep locs, CompositeAt u payload id.toList sep locs ∧
        template = String.ofList (join [sep] (locs.map placeholderOf)) := by
  have hnone (other : Char) : compositeTemplate u payload id.toList other = none ↔
      ∀ locs, ¬ PartsAt u payload id.toList other locs := by
    rw [Option.eq_none_iff_forall_ne_some]
    constructor
    · intro h locs hparts
      exact h _ (compositeTemplate_eq_some.mpr ⟨locs, hparts, rfl⟩)
    · intro h template hsome
      obtain ⟨locs, hparts, -⟩ := compositeTemplate_eq_some.mp hsome
      exact h locs hparts
  rw [inferCompositeTemplate, List.findSome?_eq_some_iff]
  constructor
  · rintro ⟨before, sep, after, hseps, hsome, hbefore⟩
    obtain ⟨locs, hparts, htemplate⟩ := compositeTemplate_eq_some.mp hsome
    exact ⟨sep, locs, ⟨hparts, before, after, hseps, fun other h => (hnone other).mp (hbefore other h)⟩, htemplate⟩
  · rintro ⟨sep, locs, ⟨hparts, before, after, hseps, hbefore⟩, htemplate⟩
    exact ⟨before, sep, after, hseps, compositeTemplate_eq_some.mpr ⟨locs, hparts, htemplate⟩,
      fun other h => (hnone other).mpr (hbefore other h)⟩

/-! ### Reading a template -/

theorem splitTemplate_inside {inner rest part : Chars} (hclose : '}' ∉ inner) :
    splitTemplate true part (inner ++ '}' :: rest) = (part ++ inner ++ ['}']) :: splitTemplate false [] rest := by
  induction inner generalizing part with
  | nil => simp [splitTemplate]
  | cons c inner ih =>
    rw [List.mem_cons, not_or] at hclose
    rw [List.cons_append, splitTemplate, if_pos rfl, if_neg (Ne.symm hclose.1), ih hclose.2]
    simp

/-- A placeholder is a part of its own. -/
theorem splitTemplate_placeholder {inner rest part : Chars} (hne : inner ≠ []) (hclose : '}' ∉ inner) :
    splitTemplate false part ('{' :: inner ++ '}' :: rest) =
      part :: ('{' :: inner ++ ['}']) :: splitTemplate false [] rest := by
  have hopen : (decide ('{' = '{') && decide ((inner ++ '}' :: rest).head? ≠ some '}') &&
      (inner ++ '}' :: rest).contains '}') = true := by
    cases inner with
    | nil => exact absurd rfl hne
    | cons c inner =>
      rw [List.mem_cons, not_or] at hclose
      simp [Ne.symm hclose.1]
  rw [List.cons_append, splitTemplate, if_neg Bool.false_ne_true, if_pos hopen, splitTemplate_inside hclose]
  rfl

theorem placeholder?_ne_empty {part : Chars} {path : String} (h : placeholder? part = some path) : path ≠ "" := by
  rintro rfl
  rw [placeholder?] at h
  split at h
  · simpa using congrArg String.toList (Option.some.inj h)
  · cases h

/-- A part is resolved to what it is read as. -/
theorem partReads_iff {part text : Chars} {r : Chars × Bool} (h : resolvePart u payload part = .ok r) :
    PartReads u payload part text ↔ text = r.1 := by
  rw [resolvePart] at h
  cases hpart : placeholder? part with
  | none =>
    rw [hpart] at h
    cases h
    constructor
    · intro hreads
      cases hreads with
      | literal => rfl
      | value hsome | empty hsome => cases hpart.symm.trans hsome
    · rintro rfl
      exact .literal hpart
  | some path =>
    have hpath := placeholder?_ne_empty hpart
    simp only [hpart] at h
    obtain ⟨val, hval, h⟩ := bind_eq_ok.mp h
    have hleads {y : Json} : PathLeads u payload path y ↔ y ≠ .null ∧ y = val := by
      rw [pathLeads_iff hpath, hval, Except.ok.injEq, eq_comm (a := val)]
    cases htruthy : val.truthy with
    | true =>
      rw [htruthy] at h
      cases h
      constructor
      · intro hreads
        cases hreads with
        | literal hnone => cases hpart.symm.trans hnone
        | value hsome hval' =>
          cases hpart.symm.trans hsome
          rw [(hleads.mp hval').2]
          rfl
        | empty hsome hfalsy =>
          cases hpart.symm.trans hsome
          have hne : val ≠ .null := by
            rintro rfl
            cases htruthy
          rw [hfalsy val (hleads.mpr ⟨hne, rfl⟩)] at htruthy
          cases htruthy
      · rintro rfl
        have hne : val ≠ .null := by
          rintro rfl
          cases htruthy
        exact .value hpart (hleads.mpr ⟨hne, rfl⟩) htruthy
    | false =>
      rw [htruthy] at h
      cases h
      constructor
      · intro hreads
        cases hreads with
        | literal hnone => cases hpart.symm.trans hnone
        | value hsome hval' htrue =>
          cases hpart.symm.trans hsome
          rw [(hleads.mp hval').2, htruthy] at htrue
          cases htrue
        | empty => rfl
      · rintro rfl
        refine .empty hpart fun y hy => ?_
        rw [(hleads.mp hy).2, htruthy]

/-- So are the parts of a template. -/
theorem forall₂_partReads_iff {pieces texts : List Chars} {parts : List (Chars × Bool)}
    (h : pieces.mapM (resolvePart u payload) = .ok parts) :
    List.Forall₂ (PartReads u payload) pieces texts ↔ texts = parts.map Prod.fst := by
  rw [mapM_eq_ok] at h
  induction h generalizing texts with
  | nil => exact List.forall₂_nil_left_iff
  | cons hpart _ ih =>
    rw [List.forall₂_cons_left_iff]
    constructor
    · rintro ⟨text, texts, htext, htexts, rfl⟩
      rw [(partReads_iff hpart).mp htext, ih.mp htexts, List.map_cons]
    · rintro rfl
      exact ⟨_, _, (partReads_iff hpart).mpr rfl, ih.mpr rfl, rfl⟩

theorem PartsAt.leaves (hdicts : (Json.obj payload).Dicts) {id : Chars} {sep : Char} {locs : List Place}
    (h : PartsAt u payload id sep locs) : ∃ leaves,
      List.Forall₂ (fun loc leaf => (Json.obj payload).nodeAt loc = some leaf ∧ leaf.IsLeaf) locs leaves := by
  have hparts := h.parts
  clear h
  generalize splitChar sep id = parts at hparts
  induction hparts with
  | nil => exact ⟨[], .nil⟩
  | cons hpart _ ih =>
    obtain ⟨-, leaf, hfirst⟩ := hpart
    obtain ⟨hloc, hleaf, -⟩ := hfirst.matches hdicts
    obtain ⟨leaves, hleaves⟩ := ih
    exact ⟨leaf :: leaves, .cons ⟨hloc, hleaf⟩ hleaves⟩

/-- The path of a leaf at a legible place begins with a key. -/
theorem path_of_legible {loc : Place} {leaf : Json} (hleaf : leaf.IsLeaf)
    (hloc : (Json.obj payload).nodeAt loc = some leaf) (hlegible : loc.legible = true) :
    ∃ c inner, loc.chars = '.' :: c :: inner := by
  match loc with
  | [] =>
    cases hloc
    exact absurd rfl hleaf
  | .index i :: loc => cases hloc
  | .key k :: loc =>
    have hk : k ≠ "" := by
      rintro rfl
      cases loc with
      | nil => cases hlegible
      | cons step loc => cases step <;> cases hlegible
    obtain ⟨c, cs, hcs⟩ := List.exists_cons_of_ne_nil (l := k.toList) (by simpa using hk)
    exact ⟨c, cs ++ Place.chars loc, by simp [PathStep.chars, hcs]⟩

/-- Where the places are plain, a template is read as the texts of the leaves. -/
theorem partReads_of_plain {sep : Char} (hsep : sep ≠ '{') {locs : List Place} {leaves : List Json}
    (hplain : ∀ loc ∈ locs, loc.legible = true ∧ '}' ∉ loc.chars)
    (hleaves : List.Forall₂ (fun loc leaf => (Json.obj payload).nodeAt loc = some leaf ∧ leaf.IsLeaf) locs leaves)
    {part : Chars} (hpart : placeholder? part = none) :
    ∃ texts, List.Forall₂ (PartReads u payload)
        (splitTemplate false part (join [sep] (locs.map placeholderOf))) texts ∧
      texts.flatten = part ++ join [sep] (leaves.map (partText u)) := by
  induction hleaves generalizing part with
  | nil => exact ⟨[part], .cons (.literal hpart) .nil, by simp [join]⟩
  | @cons loc leaf locs leaves hleaf hleaves ih =>
    obtain ⟨hloc, hleaf⟩ := hleaf
    obtain ⟨hlegible, hclose⟩ := hplain loc List.mem_cons_self
    obtain ⟨c, inner, hchars⟩ := path_of_legible hleaf hloc hlegible
    have hdrop : loc.path.toList.drop 2 = c :: inner := by
      rw [Place.path, String.toList_ofList, hchars]
      rfl
    have hplaceholder : placeholder? ('{' :: (c :: inner) ++ ['}']) = some loc.path := by
      have hsuffix : ['}'].isSuffixOf ('{' :: (c :: inner) ++ ['}']) = true :=
        List.isSuffixOf_iff_suffix.mpr (List.suffix_append _ _)
      have hinside : (('{' :: (c :: inner) ++ ['}']).drop 1).dropLast = c :: inner := by
        rw [List.cons_append, List.drop_succ_cons, List.drop_zero, List.dropLast_concat]
      rw [placeholder?, if_pos (by rw [hsuffix]; rfl), hinside, Place.path, hchars]
    have hinner : '}' ∉ c :: inner := fun h => hclose (hchars ▸ List.mem_cons_of_mem _ h)
    -- the placeholder is read as the leaf
    have hread : PartReads u payload ('{' :: (c :: inner) ++ ['}']) (partText u leaf) := by
      have hpath : loc.path ≠ "" := fun h => by simpa [Place.path] using congrArg String.toList h
      have hleads {y : Json} : PathLeads u payload loc.path y ↔ y ≠ .null ∧ y = leaf := by
        rw [pathLeads_iff hpath, resolvePath_legible hlegible hloc, Except.ok.injEq, eq_comm (a := leaf)]
      rw [partText]
      cases htruthy : leaf.truthy with
      | true =>
        have hne : leaf ≠ .null := by
          rintro rfl
          cases htruthy
        exact .value hplaceholder (hleads.mpr ⟨hne, rfl⟩) htruthy
      | false =>
        refine .empty hplaceholder fun y hy => ?_
        rw [(hleads.mp hy).2, htruthy]
    have hempty : placeholder? [] = none := rfl
    have hbetween : placeholder? [sep] = none := by
      rw [placeholder?, if_neg]
      simp [List.isPrefixOf, Ne.symm hsep]
    cases hleaves with
    | nil =>
      refine ⟨[part, partText u leaf, []], ?_, by simp [join]⟩
      have hsplit : splitTemplate false part (join [sep] ([loc].map placeholderOf)) =
          [part, '{' :: (c :: inner) ++ ['}'], []] := by
        have hjoin : join [sep] ([loc].map placeholderOf) = '{' :: (c :: inner) ++ '}' :: [] := by
          rw [List.map_singleton, join, placeholderOf, hdrop]
        rw [hjoin, splitTemplate_placeholder (List.cons_ne_nil _ _) hinner]
        rfl
      rw [hsplit]
      exact .cons (.literal hpart) (.cons hread (.cons (.literal hempty) .nil))
    | @cons loc' leaf' locs leaves hnext hrest =>
      obtain ⟨texts, htexts, hflatten⟩ :=
        ih (fun loc h => hplain loc (List.mem_cons_of_mem _ h)) hbetween
      refine ⟨part :: partText u leaf :: texts, ?_, ?_⟩
      · have hsplit : splitTemplate false part (join [sep] ((loc :: loc' :: locs).map placeholderOf)) =
            part :: ('{' :: (c :: inner) ++ ['}']) ::
              splitTemplate false [sep] (join [sep] ((loc' :: locs).map placeholderOf)) := by
          have hjoin : join [sep] ((loc :: loc' :: locs).map placeholderOf) =
              '{' :: (c :: inner) ++ '}' :: (sep :: join [sep] ((loc' :: locs).map placeholderOf)) := by
            simp only [List.map_cons, join, placeholderOf, hdrop]
            simp
          rw [hjoin, splitTemplate_placeholder (List.cons_ne_nil _ _) hinner, splitTemplate,
            if_neg Bool.false_ne_true, if_neg (by simp [hsep])]
          rfl
        rw [hsplit]
        exact .cons (.literal hpart) (.cons hread htexts)
      · rw [List.flatten_cons, List.flatten_cons, hflatten]
        simp [join]

/-- **The template of a composite id is resolved to what it is read as.** -/
theorem compositeReads_iff (hdicts : (Json.obj payload).Dicts) {id : Chars} {sep : Char} {locs : List Place}
    (h : CompositeAt u payload id sep locs) {result : String}
    (hresult : resolveTemplate u payload (.str (String.ofList (join [sep] (locs.map placeholderOf)))) =
      .ok (some result)) {text : Chars} : CompositeReads u payload sep locs text ↔ text = result.toList := by
  rw [resolveTemplate, String.toList_ofList] at hresult
  obtain ⟨parts, hparts, hresult⟩ := bind_eq_ok.mp hresult
  have hreads {texts : List Chars} := @forall₂_partReads_iff _ _ _ texts _ hparts
  have htrim : result.toList = trimSeparators (parts.map Prod.fst).flatten := by
    split at hresult
    · simp only [pure, Except.pure, Except.ok.injEq] at hresult
      split at hresult
      · cases hresult
      · rw [← Option.some.inj hresult, String.toList_ofList, trimSeparators, List.flatMap_def]
    · cases hresult
  have hsep : sep ≠ '{' := by
    obtain ⟨before, after, hseps, -⟩ := h.first
    have hmem : sep ∈ [':', '-', '_', '/'] := by
      rw [hseps]
      exact List.mem_append_right _ List.mem_cons_self
    rintro rfl
    exact absurd hmem (by decide)
  have hempty : placeholder? [] = none := rfl
  constructor
  · intro hcomposite
    cases hcomposite with
    | plain hplain hleaves =>
      obtain ⟨texts, htexts, hflatten⟩ := partReads_of_plain (u := u) hsep hplain hleaves hempty
      rw [htrim, ← hreads.mp htexts, hflatten, List.nil_append]
    | otherwise hnot htexts => rw [htrim, hreads.mp htexts]
  · rintro rfl
    by_cases hplain : ∀ loc ∈ locs, loc.legible = true ∧ '}' ∉ loc.chars
    · obtain ⟨leaves, hleaves⟩ := h.leaves hdicts
      obtain ⟨texts, htexts, hflatten⟩ := partReads_of_plain (u := u) hsep hplain hleaves hempty
      rw [htrim, ← hreads.mp htexts, hflatten, List.nil_append]
      exact .plain hplain hleaves
    · rw [htrim]
      exact .otherwise hplain (hreads.mpr rfl)

end Composites

end WebhookIngestion
