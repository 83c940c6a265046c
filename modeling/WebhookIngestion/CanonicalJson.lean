import WebhookIngestion.Decimals
import WebhookIngestion.Fingerprints
import WebhookIngestion.Hashing
import WebhookIngestion.Library.Delimited
import Mathlib.Algebra.Group.Int.Defs

/-! # The canonical text of a document

What is relied on of `orjson`: `dumps` prints keys in order, without spaces, with every
control character escaped, and no two numbers alike (`PrintsJson`).  Then the text of a
document tells it apart from every other one, up to the order of keys, and it has no
separator byte in it. -/
namespace WebhookIngestion
open Text Delimited

/-! ### Texts as bytes -/

theorem encode_inj {s t : String} : encode s = encode t ↔ s = t := by
  rw [encode, encode, Array.toList_inj, String.toUTF8_eq_toByteArray, String.toUTF8_eq_toByteArray]
  exact ⟨fun h => String.toByteArray_inj.mp (congrArg ByteArray.mk h), fun h => h ▸ rfl⟩

theorem encode_append (s t : String) : encode (s ++ t) = encode s ++ encode t := by
  simp [encode, String.toUTF8_eq_toByteArray]

/-! ### Documents that were parsed -/

/-- Whether the digits are those of a shortest reading. -/
def PyFloat.shortest : PyFloat → Bool
  | .finite _ digits exponent => digits % 10 ≠ 0 || (digits = 0 && exponent = 0)
  | _ => false

mutual
/-- Whether `orjson.loads` can have returned the document: integers have 64 bits, floats
are finite, and keys are distinct. -/
def Json.parsed : Json → Bool
  | .int n => -2 ^ 63 ≤ n && n < 2 ^ 64
  | .float x => x.shortest
  | .arr items => parsedItems items
  | .obj fields => (fields.map Prod.fst).Nodup && parsedFields fields
  | .null | .bool _ | .str _ => true
/-- The items of an array. -/
def parsedItems : List Json → Bool
  | [] => true
  | item :: items => item.parsed && parsedItems items
/-- The fields of an object. -/
def parsedFields : JsonObject → Bool
  | [] => true
  | (_, value) :: fields => value.parsed && parsedFields fields
end

theorem parsed_of_mem_items {items : List Json} (h : parsedItems items = true) {item : Json}
    (hitem : item ∈ items) : item.parsed = true := by
  induction items with
  | nil => cases hitem
  | cons head items ih =>
    rw [parsedItems, Bool.and_eq_true] at h
    rcases List.mem_cons.mp hitem with rfl | htail
    · exact h.1
    · exact ih h.2 htail

theorem parsed_of_mem_fields {fields : JsonObject} (h : parsedFields fields = true) {field : String × Json}
    (hfield : field ∈ fields) : field.2.parsed = true := by
  induction fields with
  | nil => cases hfield
  | cons head fields ih =>
    rw [parsedFields, Bool.and_eq_true] at h
    rcases List.mem_cons.mp hfield with rfl | htail
    · exact h.1
    · exact ih h.2 htail

/-- The same document up to the order of keys. -/
inductive Json.Reordered : Json → Json → Prop
  | refl (x : Json) : Reordered x x
  | trans {x y z : Json} (hxy : Reordered x y) (hyz : Reordered y z) : Reordered x z
  | keys {fields fields' : JsonObject} (h : fields.Perm fields') : Reordered (.obj fields) (.obj fields')
  | field (before after : JsonObject) (key : String) {x y : Json} (h : Reordered x y) :
      Reordered (.obj (before ++ (key, x) :: after)) (.obj (before ++ (key, y) :: after))
  | item (before after : List Json) {x y : Json} (h : Reordered x y) :
      Reordered (.arr (before ++ x :: after)) (.arr (before ++ y :: after))

/-! ### The text of a document -/

/-- The text of a character inside a string. -/
def escapeChar (c : Char) : Chars :=
  if c = '"' then ['\\', '"']
  else if c = '\\' then ['\\', '\\']
  else if c.toNat = 8 then ['\\', 'b']
  else if c = '\t' then ['\\', 't']
  else if c = '\n' then ['\\', 'n']
  else if c.toNat = 12 then ['\\', 'f']
  else if c = '\r' then ['\\', 'r']
  else if c.toNat < 32 then '\\' :: 'u' :: hexDigits 4 c.toNat
  else [c]

/-- The text of a string. -/
def quote (s : String) : Chars := '"' :: s.toList.flatMap escapeChar ++ ['"']

/-- The text of a field. -/
def fieldText (entry : String × String) : Chars := quote entry.1 ++ ':' :: entry.2.toList

section
variable (number : Json → Chars)

mutual
/-- The text of a document: compact, with the keys of each object in order.  Keys are
distinct, so that the texts behind them do not matter to the order. -/
def jsonText : Json → Chars
  | .null => "null".toList
  | .bool b => if b then "true".toList else "false".toList
  | .int n => number (.int n)
  | .float x => number (.float x)
  | .str s => quote s
  | .arr items => '[' :: joined ',' (itemTexts items) ++ [']']
  | .obj fields =>
    '{' :: joined ',' (((fieldTexts fields).insertionSort fun a b => pairLe a b).map fieldText) ++ ['}']
/-- The texts of the items of an array. -/
def itemTexts : List Json → List Chars
  | [] => []
  | item :: items => jsonText item :: itemTexts items
/-- The keys of an object, each with the text of its value. -/
def fieldTexts : JsonObject → List (String × String)
  | [] => []
  | (key, value) :: fields => (key, String.ofList (jsonText value)) :: fieldTexts fields
end

/-- The characters of numbers. -/
def isNumberChar (c : Char) : Bool := isAsciiDigit c || ['+', '-', '.', 'e', 'E'].contains c

/-- Whether the document is a number. -/
def Json.isNumber : Json → Bool
  | .int _ | .float _ => true
  | _ => false

/-- What is relied on of `orjson.dumps`, and of the text it has for a number. -/
structure PrintsJson (env : Externals) : Prop where
  dumps : ∀ x : Json, x.parsed = true → env.dumps x = encode (String.ofList (jsonText number x))
  number_chars : ∀ x : Json, x.isNumber = true → x.parsed = true → ∀ c ∈ number x, isNumberChar c = true
  number_ne_nil : ∀ x : Json, x.isNumber = true → x.parsed = true → number x ≠ []
  number_inj : ∀ x y : Json, x.isNumber = true → x.parsed = true → y.isNumber = true → y.parsed = true →
    number x = number y → x = y

end

/-! ### Strings read back -/

def hexValue (c : Char) : Nat := if isAsciiDigit c then c.toNat - '0'.toNat else c.toNat - 'a'.toNat + 10

theorem hexValue_hexDigit : ∀ d < 16, hexValue (hexDigit d) = d := by decide

/-- The first character of what stands inside a string, unless the string ends there. -/
def unescape : Chars → Option (Char × Chars)
  | '\\' :: '"' :: rest => some ('"', rest)
  | '\\' :: '\\' :: rest => some ('\\', rest)
  | '\\' :: 'b' :: rest => some (Char.ofNat 8, rest)
  | '\\' :: 't' :: rest => some ('\t', rest)
  | '\\' :: 'n' :: rest => some ('\n', rest)
  | '\\' :: 'f' :: rest => some (Char.ofNat 12, rest)
  | '\\' :: 'r' :: rest => some ('\r', rest)
  | '\\' :: 'u' :: _ :: _ :: high :: low :: rest => some (Char.ofNat (16 * hexValue high + hexValue low), rest)
  | '"' :: _ => none
  | c :: rest => some (c, rest)
  | [] => none

theorem unescape_escapeChar (c : Char) (rest : Chars) : unescape (escapeChar c ++ rest) = some (c, rest) := by
  have hofNat {n : Nat} (h : c.toNat = n) : Char.ofNat n = c := by rw [← h, Char.ofNat_toNat]
  rw [escapeChar]
  split
  · next h => simp [h, unescape]
  split
  · next h => simp [h, unescape]
  split
  · next h => simpa [unescape] using hofNat h
  split
  · next h => simp [h, unescape]
  split
  · next h => simp [h, unescape]
  split
  · next h => simpa [unescape] using hofNat h
  split
  · next h => simp [h, unescape]
  split
  · next h =>
    have hhigh := hexValue_hexDigit (c.toNat / 16 % 16) (Nat.mod_lt _ (by decide))
    have hlow := hexValue_hexDigit (c.toNat % 16) (Nat.mod_lt _ (by decide))
    have hsum : 16 * (c.toNat / 16 % 16) + c.toNat % 16 = c.toNat := by omega
    simp [hexDigits, unescape, hhigh, hlow, hsum]
  · next hquote hbackslash _ _ _ _ _ _ =>
    rw [List.singleton_append, unescape.eq_def]
    split <;> simp_all

/-- A string ends at its own closing quote. -/
theorem flatMap_escapeChar_inj {s t rest rest' : Chars}
    (h : s.flatMap escapeChar ++ '"' :: rest = t.flatMap escapeChar ++ '"' :: rest') : s = t ∧ rest = rest' := by
  induction s generalizing t with
  | nil =>
    cases t with
    | nil => exact ⟨rfl, (List.cons.inj h).2⟩
    | cons d t =>
      have hread := congrArg unescape h
      rw [List.flatMap_cons, List.append_assoc, unescape_escapeChar] at hread
      cases hread
  | cons c s ih =>
    have hread := congrArg unescape h
    rw [List.flatMap_cons, List.append_assoc, unescape_escapeChar] at hread
    cases t with
    | nil => cases hread
    | cons d t =>
      rw [List.flatMap_cons, List.append_assoc, unescape_escapeChar, Option.some.injEq, Prod.mk.injEq] at hread
      obtain ⟨rfl, hrest⟩ := hread
      obtain ⟨rfl, rfl⟩ := ih hrest
      exact ⟨rfl, rfl⟩

theorem quote_append_inj {s t : String} {rest rest' : Chars} (h : quote s ++ rest = quote t ++ rest') :
    s = t ∧ rest = rest' := by
  simp only [quote, List.cons_append, List.cons.injEq, true_and, List.append_assoc, List.nil_append] at h
  obtain ⟨hst, hrest⟩ := flatMap_escapeChar_inj h
  exact ⟨String.toList_inj.mp hst, hrest⟩

theorem readsOff_quote (p : Char → Bool) (s t : String) : ReadsOff p (quote s) (quote t) := by
  intro rest rest' _ _ h
  obtain ⟨rfl, rfl⟩ := quote_append_inj h
  exact ⟨rfl, rfl⟩

/-! ### Documents can be told apart -/

/-- Kinds of documents, numbers being of one kind. -/
def Json.kind : Json → Nat
  | .null => 0
  | .bool _ => 1
  | .int _ | .float _ => 2
  | .str _ => 3
  | .arr _ => 4
  | .obj _ => 5

/-- The kind of the document that a text with this first character is of; no text starts
with another character. -/
def kindOf (c : Char) : Nat :=
  if isNumberChar c then 2
  else match c with
    | 'n' => 0
    | 't' | 'f' => 1
    | '"' => 3
    | '[' => 4
    | '{' => 5
    | _ => 6

section
variable {number : Json → Chars} {env : Externals}

theorem itemTexts_eq (items : List Json) : itemTexts number items = items.map (jsonText number) := by
  induction items with
  | nil => rfl
  | cons item items ih => rw [itemTexts, ih, List.map_cons]

theorem fieldTexts_eq (fields : JsonObject) :
    fieldTexts number fields = fields.map fun field => (field.1, String.ofList (jsonText number field.2)) := by
  induction fields with
  | nil => rfl
  | cons field fields ih => rw [fieldTexts, ih, List.map_cons]

variable (h : PrintsJson number env)
include h

theorem jsonText_head {x : Json} (hx : x.parsed = true) :
    ∃ c s, jsonText number x = c :: s ∧ kindOf c = x.kind := by
  have hnumber (hn : x.isNumber = true) : ∃ c s, number x = c :: s ∧ kindOf c = 2 := by
    obtain ⟨c, s, hcs⟩ := List.exists_cons_of_ne_nil (h.number_ne_nil x hn hx)
    refine ⟨c, s, hcs, if_pos (h.number_chars x hn hx c ?_)⟩
    rw [hcs]
    exact List.mem_cons_self
  cases x with
  | null => exact ⟨'n', _, rfl, by decide⟩
  | bool b =>
    cases b with
    | false => exact ⟨'f', _, rfl, by decide⟩
    | true => exact ⟨'t', _, rfl, by decide⟩
  | int n => exact hnumber rfl
  | float x => exact hnumber rfl
  | str s => exact ⟨'"', _, rfl, (by decide : kindOf '"' = 3)⟩
  | arr items => exact ⟨'[', _, rfl, (by decide : kindOf '[' = 4)⟩
  | obj fields => exact ⟨'{', _, rfl, (by decide : kindOf '{' = 5)⟩

/-- Documents of two kinds. -/
theorem readsOff_of_kind {x y : Json} (hx : x.parsed = true) (hy : y.parsed = true) (hne : x.kind ≠ y.kind) :
    ReadsOff isNumberChar (jsonText number x) (jsonText number y) := by
  obtain ⟨c, s, hcs, hc⟩ := jsonText_head h hx
  obtain ⟨d, t, hdt, hd⟩ := jsonText_head h hy
  rw [hcs, hdt]
  refine .of_head ?_ s t
  rintro rfl
  exact hne (hc.symm.trans hd)

theorem readsOff_number {x y : Json} (hx : x.parsed = true) (hy : y.parsed = true)
    (hxn : x.isNumber = true) (hyn : y.isNumber = true) : ReadsOff isNumberChar (number x) (number y) :=
  .of_all (h.number_chars x hxn hx) (h.number_chars y hyn hy)

theorem jsonText_ne_close {x : Json} (hx : x.parsed = true) {close : Char} (hclose : kindOf close = 6) :
    ∃ c s, jsonText number x = c :: s ∧ c ≠ close := by
  obtain ⟨c, s, hcs, hc⟩ := jsonText_head h hx
  refine ⟨c, s, hcs, ?_⟩
  rintro rfl
  rw [hclose] at hc
  cases x <;> cases hc

omit h in
theorem mem_fieldParts {fields : JsonObject} (hfields : parsedFields fields = true) {part : Chars}
    (hpart : part ∈ ((fieldTexts number fields).insertionSort fun a b => pairLe a b).map fieldText) :
    ∃ field ∈ fields, field.2.parsed = true ∧ part = quote field.1 ++ ':' :: jsonText number field.2 := by
  obtain ⟨entry, hentry, rfl⟩ := List.mem_map.mp hpart
  rw [List.mem_insertionSort, fieldTexts_eq, List.mem_map] at hentry
  obtain ⟨field, hfield, rfl⟩ := hentry
  exact ⟨field, hfield, parsed_of_mem_fields hfields hfield, by simp [fieldText]⟩

omit h in
/-- A field is read off by its key and then its value. -/
theorem readsOff_field {k k' : String} {value value' : Chars} (hvalue : ReadsOff isNumberChar value value') :
    ReadsOff isNumberChar (quote k ++ ':' :: value) (quote k' ++ ':' :: value') := by
  intro rest rest' hrest hrest' heq
  rw [List.append_assoc, List.append_assoc] at heq
  obtain ⟨rfl, htail⟩ := quote_append_inj heq
  obtain ⟨rfl, rfl⟩ := hvalue rest rest' hrest hrest' (List.cons.inj htail).2
  exact ⟨rfl, rfl⟩

omit h in
theorem fieldText_injective : Function.Injective fieldText := by
  rintro ⟨k, value⟩ ⟨k', value'⟩ heq
  obtain ⟨hkey, hvalue⟩ := quote_append_inj heq
  exact Prod.ext hkey (String.toList_inj.mp (List.cons.inj hvalue).2)

/-- **The texts of two documents can be told apart**, whatever follows them. -/
theorem readsOff_jsonText : ∀ {x y : Json}, x.parsed = true → y.parsed = true →
    ReadsOff isNumberChar (jsonText number x) (jsonText number y)
  | .arr items, y, hx, hy => by
    by_cases hkind : (Json.arr items).kind = y.kind
    · cases y with
      | arr items' =>
        refine ReadsOff.joined (by decide) (by decide) (by decide) (fun part hpart part' hpart' => ?_)
          (fun part hpart => ?_) (fun part hpart => ?_) '['
        · rw [itemTexts_eq, List.mem_map] at hpart hpart'
          obtain ⟨item, hitem, rfl⟩ := hpart
          obtain ⟨item', hitem', rfl⟩ := hpart'
          have hlt := List.sizeOf_lt_of_mem hitem
          exact readsOff_jsonText (parsed_of_mem_items hx hitem) (parsed_of_mem_items hy hitem')
        · rw [itemTexts_eq, List.mem_map] at hpart
          obtain ⟨item, hitem, rfl⟩ := hpart
          exact jsonText_ne_close h (parsed_of_mem_items hx hitem) (by decide)
        · rw [itemTexts_eq, List.mem_map] at hpart
          obtain ⟨item, hitem, rfl⟩ := hpart
          exact jsonText_ne_close h (parsed_of_mem_items hy hitem) (by decide)
      | null | bool | int | float | str | obj => cases hkind
    · exact readsOff_of_kind h hx hy hkind
  | .obj fields, y, hx, hy => by
    by_cases hkind : (Json.obj fields).kind = y.kind
    · cases y with
      | obj fields' =>
        rw [Json.parsed, Bool.and_eq_true] at hx hy
        refine ReadsOff.joined (by decide) (by decide) (by decide) (fun part hpart part' hpart' => ?_)
          (fun part hpart => ?_) (fun part hpart => ?_) '{'
        · obtain ⟨field, hfield, hparsed, rfl⟩ := mem_fieldParts hx.2 hpart
          obtain ⟨field', hfield', hparsed', rfl⟩ := mem_fieldParts hy.2 hpart'
          have hlt := List.sizeOf_lt_of_mem hfield
          exact readsOff_field (readsOff_jsonText hparsed hparsed')
        · obtain ⟨field, hfield, hparsed, rfl⟩ := mem_fieldParts hx.2 hpart
          exact ⟨'"', _, rfl, by decide⟩
        · obtain ⟨field, hfield, hparsed, rfl⟩ := mem_fieldParts hy.2 hpart
          exact ⟨'"', _, rfl, by decide⟩
      | null | bool | int | float | str | arr => cases hkind
    · exact readsOff_of_kind h hx hy hkind
  | .null, y, hx, hy => by
    by_cases hkind : Json.null.kind = y.kind
    · cases y with
      | null => exact .refl _
      | bool | int | float | str | arr | obj => cases hkind
    · exact readsOff_of_kind h hx hy hkind
  | .bool b, y, hx, hy => by
    by_cases hkind : (Json.bool b).kind = y.kind
    · cases y with
      | bool b' =>
        cases b <;> cases b'
        · exact .refl _
        · exact .of_head (by decide) _ _
        · exact .of_head (by decide) _ _
        · exact .refl _
      | null | int | float | str | arr | obj => cases hkind
    · exact readsOff_of_kind h hx hy hkind
  | .int n, y, hx, hy => by
    by_cases hkind : (Json.int n).kind = y.kind
    · cases y with
      | int m => exact readsOff_number h hx hy rfl rfl
      | float m => exact readsOff_number h hx hy rfl rfl
      | null | bool | str | arr | obj => cases hkind
    · exact readsOff_of_kind h hx hy hkind
  | .float n, y, hx, hy => by
    by_cases hkind : (Json.float n).kind = y.kind
    · cases y with
      | int m => exact readsOff_number h hx hy rfl rfl
      | float m => exact readsOff_number h hx hy rfl rfl
      | null | bool | str | arr | obj => cases hkind
    · exact readsOff_of_kind h hx hy hkind
  | .str s, y, hx, hy => by
    by_cases hkind : (Json.str s).kind = y.kind
    · cases y with
      | str t => exact readsOff_quote _ s t
      | null | bool | int | float | arr | obj => cases hkind
    · exact readsOff_of_kind h hx hy hkind
termination_by x => sizeOf x
decreasing_by
  · simp only [Json.arr.sizeOf_spec]
    omega
  · obtain ⟨k, v⟩ := field
    simp only [Prod.mk.sizeOf_spec] at hlt
    simp only [Json.obj.sizeOf_spec]
    omega

end

/-! ### Equal texts -/

section
variable {number : Json → Chars} {env : Externals}

theorem Json.Reordered.items {items items' : List Json} (h : List.Forall₂ Json.Reordered items items') :
    Json.Reordered (.arr items) (.arr items') := by
  suffices hbefore : ∀ before, Json.Reordered (.arr (before ++ items)) (.arr (before ++ items')) from hbefore []
  induction h with
  | nil => exact fun before => .refl _
  | @cons item item' items items' hitem _ ih =>
    intro before
    refine .trans (.item before items hitem) ?_
    have htail := ih (before ++ [item'])
    simpa using htail

theorem Json.Reordered.fields {fields fields' : JsonObject}
    (h : List.Forall₂ (fun field field' => field.1 = field'.1 ∧ Json.Reordered field.2 field'.2) fields fields') :
    Json.Reordered (.obj fields) (.obj fields') := by
  suffices hbefore : ∀ before, Json.Reordered (.obj (before ++ fields)) (.obj (before ++ fields')) from hbefore []
  induction h with
  | nil => exact fun before => .refl _
  | @cons field field' fields fields' hfield _ ih =>
    obtain ⟨key, value⟩ := field
    obtain ⟨key', value'⟩ := field'
    obtain ⟨rfl, hvalue⟩ := hfield
    intro before
    refine .trans (.field before fields key hvalue) ?_
    have htail := ih (before ++ [(key, value')])
    simpa using htail

/-- Lists with one image up to order are paired off by their elements. -/
theorem exists_perm_of_map_perm {α β : Type} {f : α → β} {l l' : List α} (h : (l.map f).Perm (l'.map f)) :
    ∃ l'' : List α, l''.Perm l' ∧ l.map f = l''.map f := by
  induction l generalizing l' with
  | nil =>
    rw [List.map_nil, List.nil_perm, List.map_eq_nil_iff] at h
    exact ⟨[], by rw [h], rfl⟩
  | cons a l ih =>
    obtain ⟨a', ha', heq⟩ := List.mem_map.mp (h.subset List.mem_cons_self)
    obtain ⟨before, after, rfl⟩ := List.append_of_mem ha'
    have hmiddle : (f a :: (before ++ after).map f).Perm ((before ++ a' :: after).map f) := by
      rw [← heq]
      simp only [List.map_append, List.map_cons]
      exact List.perm_middle.symm
    obtain ⟨l'', hperm, hmap⟩ := ih (List.Perm.cons_inv (h.trans hmiddle.symm))
    refine ⟨a' :: l'', (hperm.cons a').trans List.perm_middle.symm, ?_⟩
    rw [List.map_cons, List.map_cons, hmap, heq]

theorem forall₂_of_map_eq {α β : Type} {f : α → β} {R : α → α → Prop} {l l' : List α} (h : l.map f = l'.map f)
    (hR : ∀ a ∈ l, ∀ b ∈ l', f a = f b → R a b) : List.Forall₂ R l l' := by
  induction l generalizing l' with
  | nil =>
    rw [List.map_nil, eq_comm, List.map_eq_nil_iff] at h
    subst h
    exact .nil
  | cons a l ih =>
    cases l' with
    | nil => cases h
    | cons b l' =>
      obtain ⟨hab, htail⟩ := List.cons.inj h
      exact .cons (hR a List.mem_cons_self b List.mem_cons_self hab)
        (ih htail fun c hc d hd => hR c (List.mem_cons_of_mem _ hc) d (List.mem_cons_of_mem _ hd))

/-- **Reordering keys does not change the text.** -/
theorem jsonText_of_reordered {x y : Json} (h : x.Reordered y) : jsonText number x = jsonText number y := by
  induction h with
  | refl x => rfl
  | trans _ _ ihxy ihyz => exact ihxy.trans ihyz
  | @keys fields fields' hperm =>
    have hsorted : (fieldTexts number fields).insertionSort (fun a b => pairLe a b) =
        (fieldTexts number fields').insertionSort (fun a b => pairLe a b) := by
      refine List.Perm.eq_of_pairwise' (List.pairwise_insertionSort _ _) (List.pairwise_insertionSort _ _) ?_
      refine (List.perm_insertionSort _ _).trans (.trans ?_ (List.perm_insertionSort _ _).symm)
      rw [fieldTexts_eq, fieldTexts_eq]
      exact hperm.map _
    rw [jsonText, jsonText, hsorted]
  | field before after key _ ih =>
    rw [jsonText, jsonText, fieldTexts_eq, fieldTexts_eq]
    simp [ih]
  | item before after _ ih =>
    rw [jsonText, jsonText, itemTexts_eq, itemTexts_eq]
    simp [ih]

/-- Equal texts are of one kind. -/
theorem kind_of_jsonText (h : PrintsJson number env) {x y : Json} (hx : x.parsed = true) (hy : y.parsed = true)
    (heq : jsonText number x = jsonText number y) : x.kind = y.kind := by
  obtain ⟨c, s, hcs, hc⟩ := jsonText_head h hx
  obtain ⟨d, t, hdt, hd⟩ := jsonText_head h hy
  have hcons := hcs.symm.trans (heq.trans hdt)
  rw [← hc, ← hd, (List.cons.inj hcons).1]

/-- **Documents with one text are the same up to the order of keys.** -/
theorem reordered_of_jsonText (h : PrintsJson number env) : ∀ {x y : Json}, x.parsed = true → y.parsed = true →
    jsonText number x = jsonText number y → x.Reordered y
  | .arr items, y, hx, hy, heq => by
    have hkind := kind_of_jsonText h hx hy heq
    cases y with
    | arr items' =>
      have hjoined : joined ',' (itemTexts number items) ++ [']'] = joined ',' (itemTexts number items') ++ [']'] :=
        (List.cons.inj heq).2
      have htexts : itemTexts number items = itemTexts number items' := by
        refine (joined_inj (p := isNumberChar) (by decide) (by decide) (by decide)
          (fun part hpart part' hpart' => ?_) (fun part hpart => ?_) (fun part hpart => ?_) hjoined).1
        · rw [itemTexts_eq, List.mem_map] at hpart hpart'
          obtain ⟨item, hitem, rfl⟩ := hpart
          obtain ⟨item', hitem', rfl⟩ := hpart'
          exact readsOff_jsonText h (parsed_of_mem_items hx hitem) (parsed_of_mem_items hy hitem')
        · rw [itemTexts_eq, List.mem_map] at hpart
          obtain ⟨item, hitem, rfl⟩ := hpart
          exact jsonText_ne_close h (parsed_of_mem_items hx hitem) (by decide)
        · rw [itemTexts_eq, List.mem_map] at hpart
          obtain ⟨item, hitem, rfl⟩ := hpart
          exact jsonText_ne_close h (parsed_of_mem_items hy hitem) (by decide)
      rw [itemTexts_eq, itemTexts_eq] at htexts
      refine .items (forall₂_of_map_eq htexts fun item hitem item' hitem' hitems => ?_)
      have hlt := List.sizeOf_lt_of_mem hitem
      exact reordered_of_jsonText h (parsed_of_mem_items hx hitem) (parsed_of_mem_items hy hitem') hitems
    | null | bool | int | float | str | obj => cases hkind
  | .obj fields, y, hx, hy, heq => by
    have hkind := kind_of_jsonText h hx hy heq
    cases y with
    | obj fields' =>
      rw [Json.parsed, Bool.and_eq_true] at hx hy
      have hjoined := (List.cons.inj heq).2
      have hparts : ((fieldTexts number fields).insertionSort fun a b => pairLe a b).map fieldText =
          ((fieldTexts number fields').insertionSort fun a b => pairLe a b).map fieldText := by
        refine (joined_inj (p := isNumberChar) (by decide) (by decide) (by decide)
          (fun part hpart part' hpart' => ?_) (fun part hpart => ?_) (fun part hpart => ?_) hjoined).1
        · obtain ⟨field, hfield, hparsed, rfl⟩ := mem_fieldParts hx.2 hpart
          obtain ⟨field', hfield', hparsed', rfl⟩ := mem_fieldParts hy.2 hpart'
          exact readsOff_field (readsOff_jsonText h hparsed hparsed')
        · obtain ⟨field, -, -, rfl⟩ := mem_fieldParts hx.2 hpart
          exact ⟨'"', _, rfl, by decide⟩
        · obtain ⟨field, -, -, rfl⟩ := mem_fieldParts hy.2 hpart
          exact ⟨'"', _, rfl, by decide⟩
      have hsorted := List.map_injective_iff.mpr fieldText_injective hparts
      have hperm : (fieldTexts number fields).Perm (fieldTexts number fields') :=
        (List.perm_insertionSort _ _).symm.trans ((List.Perm.of_eq hsorted).trans (List.perm_insertionSort _ _))
      rw [fieldTexts_eq, fieldTexts_eq] at hperm
      -- the other object's fields, in the order of the first one
      obtain ⟨fields'', hperm'', hmap⟩ := exists_perm_of_map_perm hperm
      refine .trans (.fields (forall₂_of_map_eq hmap fun field hfield field' hfield' hfields => ?_)) (.keys hperm'')
      have hlt := List.sizeOf_lt_of_mem hfield
      rw [Prod.mk.injEq] at hfields
      exact ⟨hfields.1, reordered_of_jsonText h (parsed_of_mem_fields hx.2 hfield)
        (parsed_of_mem_fields hy.2 (hperm''.subset hfield')) (String.ofList_injective hfields.2)⟩
    | null | bool | int | float | str | arr => cases hkind
  | .null, y, hx, hy, heq => by
    have hkind := kind_of_jsonText h hx hy heq
    cases y with
    | null => exact .refl _
    | bool | int | float | str | arr | obj => cases hkind
  | .bool b, y, hx, hy, heq => by
    have hkind := kind_of_jsonText h hx hy heq
    cases y with
    | bool b' =>
      cases b <;> cases b'
      · exact .refl _
      · exact absurd heq (by decide : "false".toList ≠ "true".toList)
      · exact absurd heq (by decide : "true".toList ≠ "false".toList)
      · exact .refl _
    | null | int | float | str | arr | obj => cases hkind
  | .int n, y, hx, hy, heq => by
    have hkind := kind_of_jsonText h hx hy heq
    cases y with
    | int m => exact h.number_inj _ _ rfl hx rfl hy heq ▸ .refl _
    | float m => exact h.number_inj _ _ rfl hx rfl hy heq ▸ .refl _
    | null | bool | str | arr | obj => cases hkind
  | .float n, y, hx, hy, heq => by
    have hkind := kind_of_jsonText h hx hy heq
    cases y with
    | int m => exact h.number_inj _ _ rfl hx rfl hy heq ▸ .refl _
    | float m => exact h.number_inj _ _ rfl hx rfl hy heq ▸ .refl _
    | null | bool | str | arr | obj => cases hkind
  | .str s, y, hx, hy, heq => by
    have hkind := kind_of_jsonText h hx hy heq
    cases y with
    | str t =>
      have hquote : quote s ++ [] = quote t ++ [] := congrArg (· ++ []) heq
      obtain ⟨rfl, -⟩ := quote_append_inj hquote
      exact .refl _
    | null | bool | int | float | arr | obj => cases hkind
termination_by x => sizeOf x
decreasing_by
  · simp only [Json.arr.sizeOf_spec]
    omega
  · obtain ⟨k, v⟩ := field
    simp only [Prod.mk.sizeOf_spec] at hlt
    simp only [Json.obj.sizeOf_spec]
    omega

end

end WebhookIngestion
