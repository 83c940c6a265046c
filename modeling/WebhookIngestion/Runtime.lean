import WebhookIngestion.Canonical
import WebhookIngestion.Library.Programs
import WebhookIngestion.Text

/-! # What the program calls outside its own source

The exceptions it tells apart, the libraries it calls (`Externals`), and Python's
`str`, `repr` and `float` on decoded documents. -/
namespace WebhookIngestion
open Text

/-- The exceptions, as far as some handler tells them apart.  `validationError` is
pydantic's, `schemaValidationError` that of `jsonschema`. -/
inductive PyError where
  | valueError | jsonDecodeError | validationError | schemaValidationError
  | typeError | attributeError | keyError | overflowError | assertionError
  | normalizationError | budgetExceeded | llmValidationError
  | providerError | databaseError
  | httpException (statusCode : Nat) (detail : String)
  deriving DecidableEq

/-- `isinstance(exc, ValueError)`. -/
def PyError.isValueError : PyError → Bool
  | valueError | jsonDecodeError | validationError => true
  | _ => false

abbrev Bytes := List UInt8

/-- `s.encode("utf-8")`. -/
def encode (s : String) : Bytes := s.toUTF8.data.toList

/-- 64 hexadecimal digits. -/
def isHexDigest (s : String) : Bool :=
  s.toList.length = 64 && s.toList.all fun c => isAsciiDigit c || ('a' ≤ c && c ≤ 'f')

/-- What `hexdigest()` of a SHA-256 hash prints. -/
structure HexDigest where
  text : String
  isHex : isHexDigest text = true

/-- A `datetime` that may be naive. -/
structure ParsedDateTime where
  wall : Int
  utcoffset : Option Int

/-- The libraries: `orjson`, `hashlib`, `hmac`, `dateutil`, the conversions of numbers,
and the Unicode database. -/
structure Externals extends Unicode where
  /-- `orjson.loads` of a text. -/
  loads : String → Option Json
  /-- `orjson.loads` of a request body. -/
  loadsBytes : Bytes → Option Json
  /-- `orjson.dumps` with sorted keys. -/
  dumps : Json → Bytes
  /-- `hashlib.sha256(…).hexdigest()`. -/
  sha256 : Bytes → HexDigest
  /-- `hmac.new(secret, …, hashlib.sha256).hexdigest()`. -/
  hmacSha256 : String → Bytes → HexDigest
  /-- `dateutil.parser.parse(text, tzinfos=_TZ_ALIASES, dayfirst=…)` on one day: what a text does not
  say of its date is taken from today. -/
  dtparse : String → Bool → Except PyError ParsedDateTime
  /-- `float(text)`. -/
  floatOfText : String → Option PyFloat
  /-- `float(n)` of an integer. -/
  floatOfInt : Int → PyFloat
  /-- `str(exc)`. -/
  errorText : PyError → String

/-- The digest of the first text in a table that some bytes are the encoding of. -/
def digestOf (digests : List (String × HexDigest)) (bytes : Bytes) : HexDigest :=
  ((digests.find? (encode ·.1 = bytes)).map Prod.snd).getD
    ⟨String.ofList (List.replicate 64 '0'), by decide⟩

/-- Libraries that answer from tables, to run the program on inputs whose answers are
known: documents with their canonical texts, digests, signatures by their secrets, and
readings of timestamps. -/
def Externals.ofTables (documents : List (String × Json)) (digests : List (String × HexDigest))
    (signatures : List (String × String × HexDigest)) (timestamps : List (String × ParsedDateTime)) :
    Externals where
  alnum _ := false
  digit _ := none
  printable _ := true
  loads text := documents.lookup text
  loadsBytes body := (documents.find? (encode ·.1 = body)).map Prod.snd
  dumps doc := ((documents.find? (·.2 = doc)).map fun entry => encode entry.1).getD []
  sha256 := digestOf digests
  hmacSha256 secret := digestOf ((signatures.filter (·.1 = secret)).map Prod.snd)
  dtparse text _ := match timestamps.lookup text with
    | some dt => .ok dt
    | none => .error .valueError
  floatOfText _ := none
  floatOfInt n := .finite (n < 0) n.natAbs 0
  errorText _ := ""

/-! ### Numbers as text -/

/-- `repr` of a float: positional notation for decimal points from -3 to 16, scientific
notation beyond. -/
def PyFloat.repr : PyFloat → String
  | .nan => "nan"
  | .infinite negative => if negative then "-inf" else "inf"
  | .finite negative digits exponent =>
    let ds := (toString digits).toList
    let point : Int := ds.length + exponent
    let sign := if negative then ['-'] else []
    let magnitude : Chars :=
      if digits = 0 then "0.0".toList
      else if -4 < point ∧ point ≤ 16 then
        if 0 ≤ exponent then ds ++ List.replicate exponent.toNat '0' ++ ['.', '0']
        else if 0 < point then ds.take point.toNat ++ '.' :: ds.drop point.toNat
        else '0' :: '.' :: List.replicate (-point).toNat '0' ++ ds
      else
        let power := point - 1
        let shown := (toString power.natAbs).toList
        let mantissa := match ds with
          | d :: rest => if rest = [] then [d] else d :: '.' :: rest
          | [] => []
        mantissa ++ 'e' :: (if power < 0 then '-' else '+') ::
          (if shown.length < 2 then '0' :: shown else shown)
    String.ofList (sign ++ magnitude)

/-! ### Documents as text -/

def hexDigit (n : Nat) : Char :=
  if n < 10 then Char.ofNat ('0'.toNat + n) else Char.ofNat ('a'.toNat + n - 10)

/-- `width` hexadecimal digits of `n`. -/
def hexDigits : (width : Nat) → Nat → Chars
  | 0, _ => []
  | width + 1, n => hexDigits width (n / 16) ++ [hexDigit (n % 16)]

/-- `repr` of a string: in single quotes unless it has some and no double ones. -/
def reprString (u : Unicode) (s : String) : String :=
  let quote := if '\'' ∈ s.toList ∧ '"' ∉ s.toList then '"' else '\''
  let shown (c : Char) : Chars :=
    if c = quote || c = '\\' then ['\\', c]
    else if c = '\n' then ['\\', 'n']
    else if c = '\r' then ['\\', 'r']
    else if c = '\t' then ['\\', 't']
    else if c.toNat < 32 || c.toNat = 127 then '\\' :: 'x' :: hexDigits 2 c.toNat
    else if isAscii c || u.printable c then [c]
    else if c.toNat < 0x100 then '\\' :: 'x' :: hexDigits 2 c.toNat
    else if c.toNat < 0x10000 then '\\' :: 'u' :: hexDigits 4 c.toNat
    else '\\' :: 'U' :: hexDigits 8 c.toNat
  String.ofList (quote :: s.toList.flatMap shown ++ [quote])

namespace Json

mutual
/-- `repr(x)`. -/
def repr (u : Unicode) : Json → String
  | null => "None"
  | bool b => if b then "True" else "False"
  | int n => toString n
  | float x => x.repr
  | str s => reprString u s
  | arr items => "[" ++ reprItems u items ++ "]"
  | obj fields => "\x7b" ++ reprFields u fields ++ "\x7d"
/-- The items of a list, separated by commas. -/
def reprItems (u : Unicode) : List Json → String
  | [] => ""
  | [item] => repr u item
  | item :: items => repr u item ++ ", " ++ reprItems u items
/-- The fields of a dictionary, separated by commas. -/
def reprFields (u : Unicode) : List (String × Json) → String
  | [] => ""
  | [(key, value)] => reprString u key ++ ": " ++ repr u value
  | (key, value) :: fields => reprString u key ++ ": " ++ repr u value ++ ", " ++ reprFields u fields
end

/-- `str(x)`. -/
def text (u : Unicode) : Json → String
  | str s => s
  | x => repr u x

/-- `str(x) if x else None`. -/
def textIfTruthy (u : Unicode) (x : Json) : Option String :=
  if x.truthy then some (x.text u) else none

/-- `float(x)`. -/
def toFloat (env : Externals) : Json → Except PyError PyFloat
  | float x => .ok x
  | int n => .ok (env.floatOfInt n)
  | bool b => .ok (env.floatOfInt (if b then 1 else 0))
  | str s => match env.floatOfText s with
    | some x => .ok x
    | none => .error .valueError
  | _ => .error .typeError

/-- Whether `float(x)` reads a value. -/
def readsAsFloat (env : Externals) : Json → Bool
  | float _ | int _ | bool _ => true
  | str s => (env.floatOfText s).isSome
  | _ => false

theorem returns_toFloat_iff {env : Externals} {x : Json} :
    Programs.Returns (x.toFloat env) ↔ x.readsAsFloat env = true := by
  cases x with
  | str s =>
    rw [toFloat, readsAsFloat]
    cases env.floatOfText s with
    | none => exact iff_of_false (Programs.not_returns_error _) Bool.false_ne_true
    | some value => exact iff_of_true (.ok value) rfl
  | int n => exact iff_of_true (.ok _) rfl
  | float value => exact iff_of_true (.ok _) rfl
  | bool b => exact iff_of_true (.ok _) rfl
  | _ => exact iff_of_false (Programs.not_returns_error _) Bool.false_ne_true

/-- A number's value; a JSON number is never infinite. -/
def toRat? : Json → Option Rat
  | int n => some n
  | float x => x.toRat?
  | _ => none

end Json

/-! ### The models validate their fields -/

/-- `_CanonicalBase`: the ids are not blank, the confidence is in `[0, 1]`. -/
def CanonicalBase.validate (base : CanonicalBase) : Except PyError Unit :=
  if strip base.eventId = "" ∨ strip base.vendorId = "" ∨ base.confidence < 0 ∨ 1 < base.confidence then
    .error .validationError
  else .ok ()

/-- `CanonicalShipmentEvent(…)` or `CanonicalInvoiceEvent(…)`. -/
def CanonicalEntityEvent.validate {k : EntityType} (ev : CanonicalEntityEvent k) :
    Except PyError (CanonicalEntityEvent k) := do
  ev.toCanonicalBase.validate
  return ev

/-- `CanonicalUnclassifiedEvent(…)`. -/
def CanonicalUnclassifiedEvent.validate (ev : CanonicalUnclassifiedEvent) :
    Except PyError CanonicalUnclassifiedEvent := do
  ev.toCanonicalBase.validate
  return ev

/-- `Money(currency=…, amount_minor=…)`. -/
def Money.validate (currency : String) (amountMinor : Int) : Except PyError Money :=
  if h : isCurrencyCode currency = true then
    if amountMinor < 0 then .error .validationError else .ok ⟨currency, amountMinor.toNat, h⟩
  else .error .validationError

end WebhookIngestion
