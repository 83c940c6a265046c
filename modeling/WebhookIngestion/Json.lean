import Mathlib.Data.Rat.Defs

/-! # JSON values as Python holds them

Payloads, LLM answers and `jsonb` columns are JSON documents that `orjson` has
decoded: objects keep their keys in order, integers and floats are different
types, and `true` is not a number. -/
namespace WebhookIngestion

/-- A Python `float`.  A finite one is the number `± digits · 10 ^ exponent` of
its shortest decimal reading, which is what `repr` prints. -/
inductive PyFloat where
  | finite (negative : Bool) (digits : Nat) (exponent : Int)
  | infinite (negative : Bool)
  | nan
  deriving DecidableEq

namespace PyFloat

/-- The number a finite float stands for. -/
def toRat? : PyFloat → Option Rat
  | finite negative digits exponent =>
    let magnitude : Rat := digits * (10 : Rat) ^ exponent
    some (if negative then -magnitude else magnitude)
  | _ => none

/-- `bool(x)`: zero, of either sign, is the one float that counts as false. -/
def truthy : PyFloat → Bool
  | finite _ digits _ => digits ≠ 0
  | _ => true

end PyFloat

/-- A decoded JSON document. -/
inductive Json where
  | null
  | bool (b : Bool)
  | int (n : Int)
  | float (x : PyFloat)
  | str (s : String)
  | arr (items : List Json)
  | obj (fields : List (String × Json))

/-- A JSON object: its keys in order, with their values. -/
abbrev JsonObject := List (String × Json)

namespace Json

/-! ### Equality of documents is decidable -/

mutual
/-- The equality test. -/
def eqB : Json → Json → Bool
  | null, null => true
  | bool a, bool b => a == b
  | int a, int b => a == b
  | float a, float b => a == b
  | str a, str b => a == b
  | arr a, arr b => eqListB a b
  | obj a, obj b => eqFieldsB a b
  | _, _ => false
/-- The equality test on the items of an array. -/
def eqListB : List Json → List Json → Bool
  | [], [] => true
  | a :: as, b :: bs => eqB a b && eqListB as bs
  | _, _ => false
/-- The equality test on the fields of an object. -/
def eqFieldsB : JsonObject → JsonObject → Bool
  | [], [] => true
  | (k, a) :: as, (l, b) :: bs => k == l && eqB a b && eqFieldsB as bs
  | _, _ => false
end

mutual
theorem eqB_iff : ∀ a b : Json, eqB a b = true ↔ a = b
  | arr a, b => by cases b <;> simp [eqB, eqListB_iff a]
  | obj a, b => by cases b <;> simp [eqB, eqFieldsB_iff a]
  | null, b | bool _, b | int _, b | float _, b | str _, b => by cases b <;> simp [eqB]
theorem eqListB_iff : ∀ as bs : List Json, eqListB as bs = true ↔ as = bs
  | [], bs => by cases bs <;> simp [eqListB]
  | a :: as, bs => by cases bs <;> simp [eqListB, eqB_iff a, eqListB_iff as]
theorem eqFieldsB_iff : ∀ as bs : JsonObject, eqFieldsB as bs = true ↔ as = bs
  | [], bs => by cases bs <;> simp [eqFieldsB]
  | (k, a) :: as, bs => by
      cases bs <;> simp [eqFieldsB, eqB_iff a, eqFieldsB_iff as, Prod.ext_iff]
end

instance : DecidableEq Json := fun a b => decidable_of_iff _ (eqB_iff a b)

/-! ### Python's view of a document -/

/-- `bool(x)`: `None`, `False`, zeros and everything empty count as false. -/
def truthy : Json → Bool
  | null => false
  | bool b => b
  | int n => n ≠ 0
  | float x => x.truthy
  | str s => s ≠ ""
  | arr items => !items.isEmpty
  | obj fields => !fields.isEmpty

/-- `isinstance(x, dict)`, with the dictionary. -/
def asObject? : Json → Option JsonObject
  | obj fields => some fields
  | _ => none

/-- `isinstance(x, str)`, with the string. -/
def asString? : Json → Option String
  | str s => some s
  | _ => none

/-! ### Documents as `jsonb` -/

mutual
/-- Whether a document has at most `levels` levels of nesting, and no text in it has U+0000. -/
def storableIn (levels : Nat) : Json → Bool
  | str s => !s.toList.contains (Char.ofNat 0)
  | arr items => levels ≠ 0 && storableItems (levels - 1) items
  | obj fields => levels ≠ 0 && storableFields (levels - 1) fields
  | _ => true
/-- The same of the items of an array. -/
def storableItems (levels : Nat) : List Json → Bool
  | [] => true
  | item :: items => storableIn levels item && storableItems levels items
/-- The same of the fields of an object, keys and values. -/
def storableFields (levels : Nat) : JsonObject → Bool
  | [] => true
  | (key, value) :: fields =>
    !key.toList.contains (Char.ofNat 0) && storableIn levels value && storableFields levels fields
end

/-- Whether a document can be stored in a `jsonb` column: `orjson.dumps` writes at most 254 levels,
and `jsonb` takes no U+0000. -/
def storable (doc : Json) : Bool := storableIn 254 doc

end Json

namespace JsonObject

/-- `d.get(key)`; a missing key and a key that holds `None` read the same. -/
def get (fields : JsonObject) (key : String) : Json :=
  (fields.lookup key).getD .null

/-- The `jsonb` operator `||` on two objects: the right one's fields win. -/
def concat (left right : JsonObject) : JsonObject :=
  left.filter (fun field => (right.lookup field.1).isNone) ++ right

end JsonObject

end WebhookIngestion
