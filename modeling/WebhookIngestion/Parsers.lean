import WebhookIngestion.Runtime

/-! # Parsing timestamps and money

`parse_timestamp` leaves the reading of a text to `dateutil`; `parse_money` is the
program's own. -/
namespace WebhookIngestion
open Text

/-! ### Timestamps -/

/-- The end of year 9999, in microseconds from the start of year 1. -/
def maxWall : Int := 3652059 * 86400 * 1000000

/-- A day, in microseconds. -/
def dayLength : Int := 86400 * 1000000

/-- `dt.astimezone(UTC)`, by the wall clock and the offset of `dt`: an offset of a day or more is a
`ValueError`, and an instant outside years 1 to 9999 has no UTC reading. -/
def astimezoneUtc (wall utcoffset : Int) : Except PyError DateTime :=
  if utcoffset ≤ -dayLength ∨ dayLength ≤ utcoffset then .error .valueError
  else if 0 ≤ wall - utcoffset ∧ wall - utcoffset < maxWall then .ok ⟨wall - utcoffset, 0⟩
  else .error .overflowError

/-- `parse_timestamp`. -/
def parseTimestamp (env : Externals) (value : String) : Except PyError DateTime := do
  let raw := strip value
  if raw = "" then
    throw .valueError
  let dt ← match env.dtparse raw false with
    | .ok dt => pure dt
    | .error e =>
      -- Retry with day-first for European/Asian shapes.
      if e.isValueError ∨ e = .overflowError then env.dtparse raw true else throw e
  -- a naive timestamp is taken as UTC
  astimezoneUtc dt.wall (dt.utcoffset.getD 0)

theorem astimezoneUtc_eq_ok {wall utcoffset : Int} {t : DateTime} (h : astimezoneUtc wall utcoffset = .ok t) :
    t = ⟨wall - utcoffset, 0⟩ ∧ 0 ≤ wall - utcoffset ∧ wall - utcoffset < maxWall := by
  unfold astimezoneUtc at h
  split at h
  · cases h
  · split at h
    · rename_i hrange
      cases h
      exact ⟨rfl, hrange⟩
    · cases h

/-- What is in UTC stays as it is. -/
theorem astimezoneUtc_zero {wall : Int} (h : 0 ≤ wall ∧ wall < maxWall) : astimezoneUtc wall 0 = .ok ⟨wall, 0⟩ := by
  rw [astimezoneUtc, if_neg (by decide), Int.sub_zero, if_pos h]

/-- What `parse_timestamp` returns has a UTC reading. -/
theorem parseTimestamp_utc {env : Externals} {value : String} {t : DateTime}
    (h : parseTimestamp env value = .ok t) : astimezoneUtc t.wall t.utcoffset = .ok t := by
  have hresult : ∃ wall utcoffset, astimezoneUtc wall utcoffset = .ok t := by
    unfold parseTimestamp at h
    simp only [bind, Except.bind] at h
    repeat' split at h
    all_goals first | cases h | exact ⟨_, _, h⟩
  obtain ⟨wall, utcoffset, hutc⟩ := hresult
  obtain ⟨rfl, hrange⟩ := astimezoneUtc_eq_ok hutc
  exact astimezoneUtc_zero hrange

/-! ### Money -/

/-- `re.search(r"\b([A-Z]{3})\b", s)`; `before` is the character left of `s`. -/
def findCurrencyCode (u : Unicode) (before : Option Char) : Chars → Option Chars
  | [] => none
  | a :: s =>
    match s with
    | b :: c :: rest =>
      if !before.any (isWord u) && isAsciiUpper a && isAsciiUpper b && isAsciiUpper c &&
          !rest.head?.any (isWord u) then
        some [a, b, c]
      else findCurrencyCode u (some a) s
    | _ => none

def isSeparator (c : Char) : Bool := c = '.' || c = ','

/-- The currency of a stripped amount text, and the text without its code. -/
def splitCurrency (u : Unicode) (s : Chars) : String × Chars :=
  match findCurrencyCode u none s with
  | some code => (String.ofList code, removeAll code 0 s)
  | none =>
    match s.head? with
    | some '€' => ("EUR", s)
    | some '£' => ("GBP", s)
    | _ => ("USD", s)

/-- The minor units a text of digits, separators and signs stands for. -/
def parseMinorUnits (u : Unicode) (digits : Chars) : Except PyError Int :=
  let number (s : Chars) : Except PyError Int :=
    match int? u s with
    | some n => .ok n
    | none => .error .valueError
  let fractional := digits.rtakeWhile fun c => !isSeparator c
  let joined := digits.filter fun c => !isSeparator c
  if digits.all fun c => !isSeparator c then
    -- Pure integer like "24350": assume zero fractional part.
    return (← number digits) * 100
  else if fractional.length ≠ 1 ∧ fractional.length ≠ 2 then
    -- The last separator is a thousands separator.
    if joined ≠ [] ∧ joined.all isAsciiDigit then return (← number joined) * 100
    else throw .valueError
  else do
    let integerPart := (digits.take (digits.length - fractional.length)).filter fun c => !isSeparator c
    let major ← if integerPart = [] then pure 0 else number integerPart
    let minor ← number ((fractional ++ ['0']).take 2)
    return major * 100 + minor

/-- `parse_money`. -/
def parseMoney (env : Externals) (value : String) : Except PyError (String × Int) := do
  let s := stripWhere isSpace value.toList
  if s = [] then
    throw .valueError
  let (currency, s) := splitCurrency env.toUnicode s
  let digits := s.filter fun c => isAsciiDigit c || isSeparator c || c = '-'
  if digits = [] then
    throw .valueError
  return (currency, ← parseMinorUnits env.toUnicode digits)

/-- The Unicode database without the characters outside ASCII. -/
def asciiOnly : Unicode := ⟨fun _ => false, fun _ => none, fun _ => true⟩

example : splitCurrency asciiOnly "EUR 24.350,75".toList = ("EUR", " 24.350,75".toList) := by decide

example : parseMinorUnits asciiOnly "24.350,75".toList = .ok 2435075 := by decide

end WebhookIngestion
