import WebhookIngestion.Runtime
import Mathlib.Data.List.Sort

/-! # Content-addressed hashing and structural fingerprints

Event ids and cache keys are digests of canonical JSON; a fingerprint is the digest
of the set of paths of a payload with the types found there. -/
namespace WebhookIngestion
open Text

/-! ### Digests -/

/-- The parts with a separator byte between them. -/
def joinBytes (sep : UInt8) : List Bytes → Bytes
  | [] => []
  | [part] => part
  | part :: parts => part ++ sep :: joinBytes sep parts

/-- `_RECORD_SEP`. -/
def recordSep : UInt8 := 0x1f

section
variable (env : Externals)

/-- `canonical_json`. -/
def canonicalJson (obj : Json) : Bytes := env.dumps obj

/-- `sha256_hex`. -/
def sha256Hex (parts : List Bytes) : String := (env.sha256 (joinBytes recordSep parts)).text

/-- The part `value.encode("utf-8")`, where there is a value. -/
def optionalPart (value : Option String) : List Bytes :=
  match value with
  | some value => if value = "" then [] else [encode value]
  | none => []

/-- `compute_event_id`. -/
def computeEventId (payload : Json) (vendorEventId : Option String) : String :=
  sha256Hex env (canonicalJson env payload :: optionalPart vendorEventId)

/-- `llm_cache_key`. -/
def llmCacheKey (promptVersion : String) (payload : Json) (targetSchemaVersion : String)
    (vendorScope : Option String) : String :=
  sha256Hex env ([encode promptVersion, canonicalJson env payload, encode targetSchemaVersion] ++
    optionalPart vendorScope)

end

/-! ### Fingerprints -/

mutual
/-- `_walk` of `structural_fingerprint`: each path with the type found there. -/
def shape (skip : List String) (path : String) : Json → List (String × String)
  | .obj fields =>
    if path ∈ skip then [(path, "map")] else (path, "object") :: shapeFields skip path fields
  | .arr items =>
    if path ∈ skip then [(path, "map")] else (path, "array") :: shapeItems skip (path ++ "[]") items
  | .bool _ => [(path, if path ∈ skip then "map" else "boolean")]
  | .int _ | .float _ => [(path, if path ∈ skip then "map" else "number")]
  | .str _ => [(path, if path ∈ skip then "map" else "string")]
  | .null => [(path, if path ∈ skip then "map" else "null")]
/-- The fields of an object. -/
def shapeFields (skip : List String) (path : String) : List (String × Json) → List (String × String)
  | [] => []
  | (key, value) :: fields =>
    shape skip (path ++ "." ++ key) value ++ shapeFields skip path fields
/-- The items of an array, all under one path. -/
def shapeItems (skip : List String) (path : String) : List Json → List (String × String)
  | [] => []
  | item :: items => shape skip path item ++ shapeItems skip path items
end

/-- The order of strings, by code point. -/
def charsLe : Chars → Chars → Bool
  | [], _ => true
  | _ :: _, [] => false
  | a :: s, b :: t => if a = b then charsLe s t else a.toNat ≤ b.toNat

/-- The order of `(path, type)` pairs. -/
def pairLe (a b : String × String) : Bool :=
  if a.1 = b.1 then charsLe a.2.toList b.2.toList else charsLe a.1.toList b.1.toList

/-- `sorted(paths)` of the set of paths. -/
def sortedShape (payload : Json) (mapPaths : List String) : List (String × String) :=
  (shape mapPaths "$" payload).dedup.insertionSort fun a b => pairLe a b

/-- `structural_fingerprint`. -/
def structuralFingerprint (env : Externals) (payload : Json) (mapPaths : List String) : String :=
  (env.sha256 (env.dumps (.arr ((sortedShape payload mapPaths).map fun (path, type) =>
    .arr [.str path, .str type])))).text

/-! ### Digests are not blank -/

theorem HexDigest.strip_text (digest : HexDigest) : strip digest.text ≠ "" := by
  have h := digest.isHex
  rw [isHexDigest, Bool.and_eq_true, decide_eq_true_iff, List.all_eq_true] at h
  obtain ⟨hlength, hdigits⟩ := h
  cases hs : digest.text.toList with
  | nil => rw [hs] at hlength; cases hlength
  | cons c rest =>
    -- a hexadecimal digit is no space, so stripping keeps the first one
    have hc : isSpace c = false := by
      have hdigit := hdigits c (hs ▸ List.mem_cons_self)
      have hrange : (48 ≤ c.toNat ∧ c.toNat ≤ 57) ∨ (97 ≤ c.toNat ∧ c.toNat ≤ 102) := by
        rw [isAsciiDigit, Bool.or_eq_true, Bool.and_eq_true, Bool.and_eq_true, decide_eq_true_iff,
          decide_eq_true_iff, decide_eq_true_iff, decide_eq_true_iff] at hdigit
        exact hdigit
      simp only [isSpace, Bool.or_eq_false_iff, Bool.and_eq_false_iff, decide_eq_false_iff_not]
      omega
    intro hblank
    have hstripped : stripWhere isSpace digest.text.toList = [] := by
      rw [strip] at hblank
      simpa using congrArg String.toList hblank
    rw [stripWhere, hs, List.dropWhile_cons_of_neg (by simp [hc])] at hstripped
    have hall := List.rdropWhile_eq_nil_iff.mp hstripped c List.mem_cons_self
    rw [hc] at hall
    cases hall

end WebhookIngestion
