import WebhookIngestion.Decimals
import WebhookIngestion.Library.Calendar
import WebhookIngestion.Parsers

/-! # Day-first timestamps

What `parse_timestamp` reads from `DD/MM/YYYY HH:MM`.  The day-first reading is a retry, and
`dateutil` does not fail on a first number that can be a month, so such a date is read with day
and month the other way round. -/
namespace WebhookIngestion
open Text Calendar

/-! ### Writing timestamps -/

/-- `_TZ_ALIASES`, in seconds. -/
def tzAliases : List (String × Int) :=
  [("WIB", 7 * 3600), ("WITA", 8 * 3600), ("WIT", 9 * 3600), ("JST", 9 * 3600), ("KST", 9 * 3600),
    ("HKT", 8 * 3600), ("SGT", 8 * 3600), ("IST", 5 * 3600 + 1800), ("CET", 1 * 3600), ("CEST", 2 * 3600),
    ("EST", -5 * 3600), ("EDT", -4 * 3600), ("PST", -8 * 3600), ("PDT", -7 * 3600)]

/-- A day and a time of day, with an alias from the table or none. -/
structure DayFirstStamp where
  date : Date
  year_short : date.year ≤ 9999
  hour : Fin 24
  minute : Fin 60
  zone : Option (String × Int)
  zone_known : ∀ z ∈ zone, z ∈ tzAliases

/-- The last `width` digits of `n`, with leading zeros. -/
def paddedDigits : (width : Nat) → Nat → Chars
  | 0, _ => []
  | width + 1, n => paddedDigits width (n / 10) ++ [Nat.digitChar (n % 10)]

namespace DayFirstStamp

/-- `DD/MM/YYYY HH:MM`. -/
def dateChars (s : DayFirstStamp) : Chars :=
  paddedDigits 2 s.date.day ++ '/' :: paddedDigits 2 s.date.month ++ '/' :: paddedDigits 4 s.date.year ++
    ' ' :: paddedDigits 2 s.hour ++ ':' :: paddedDigits 2 s.minute

def zoneChars (s : DayFirstStamp) : Chars := s.zone.elim [] fun z => ' ' :: z.1.toList

def text (s : DayFirstStamp) : String := String.ofList (s.dateChars ++ s.zoneChars)

/-- The time of day on some date, in the zone of the stamp. -/
def reading (s : DayFirstStamp) (date : Date) : ParsedDateTime where
  wall := (((date.ordinal : Int) - 1) * 86400 + s.hour * 3600 + s.minute * 60) * 1000000
  utcoffset := s.zone.map fun z => z.2 * 1000000

/-- The instant the stamp is written for; UTC if it has no alias. -/
def instant (s : DayFirstStamp) : Int := (s.reading s.date).wall - (s.reading s.date).utcoffset.getD 0

/-- The day is no month, or the same number. -/
def Unambiguous (s : DayFirstStamp) : Prop := 12 < s.date.day ∨ s.date.day = s.date.month

/-- The instant has a year from 1 to 9999 in UTC. -/
def InCalendar (s : DayFirstStamp) : Prop := 0 ≤ s.instant ∧ s.instant < maxWall

end DayFirstStamp

/-- What is assumed of `dateutil` on day-first timestamps. -/
structure ReadsDayFirst (env : Externals) : Prop where
  monthFirst : ∀ (s : DayFirstStamp) (h : s.date.day ≤ 12),
    env.dtparse s.text false = .ok (s.reading (s.date.swap h))
  swapped : ∀ s : DayFirstStamp, 12 < s.date.day → env.dtparse s.text false = .ok (s.reading s.date)
  dayFirst : ∀ s : DayFirstStamp, env.dtparse s.text true = .ok (s.reading s.date)

/-! ### Reading them -/

theorem isAsciiDigit_digitChar (n : Nat) : isAsciiDigit (Nat.digitChar (n % 10)) = true := by
  have hchar : ∀ d : Fin 10, isAsciiDigit (Nat.digitChar d) = true := by decide
  exact hchar ⟨n % 10, Nat.mod_lt _ (by decide)⟩

namespace DayFirstStamp
variable (s : DayFirstStamp)

/-- A stamp begins with a digit and ends in one or in an alias. -/
theorem strip_text : strip s.text = s.text := by
  have hdigit (n : Nat) : isSpace (Nat.digitChar (n % 10)) = false :=
    isSpace_of_isAsciiDigit (isAsciiDigit_digitChar n)
  have hhead : ∀ c ∈ (s.dateChars ++ s.zoneChars).head?, isSpace c = false := by
    intro c hc
    have hfirst : Nat.digitChar (s.date.day / 10 % 10) = c := Option.some.inj hc
    rw [← hfirst]
    exact hdigit _
  have hlast : ∀ c ∈ (s.dateChars ++ s.zoneChars).getLast?, isSpace c = false := by
    intro c hc
    rw [zoneChars] at hc
    cases hzone : s.zone with
    | none =>
      have hminute : Nat.digitChar (s.minute % 10) = c := by
        simpa [hzone, dateChars, paddedDigits] using hc
      rw [← hminute]
      exact hdigit _
    | some z =>
      have halias : ∀ z ∈ tzAliases, z.1.toList ≠ [] ∧ z.1.toList.getLast?.all (!isSpace ·) = true := by decide
      obtain ⟨hne, hspace⟩ := halias z (s.zone_known z hzone)
      rw [hzone, Option.elim_some, List.getLast?_append, List.getLast?_cons_of_ne_nil hne,
        List.getLast?_eq_getLast_of_ne_nil hne, Option.some_or, ← List.getLast?_eq_getLast_of_ne_nil hne] at hc
      rw [Option.mem_def.mp hc] at hspace
      simpa using hspace
  rw [strip, text, String.toList_ofList, stripWhere_eq_self hhead hlast]

theorem text_ne_empty : s.text ≠ "" := by
  intro hempty
  have hchars := congrArg String.toList hempty
  rw [text, String.toList_ofList] at hchars
  cases hchars

theorem reading_swap (h : s.date.day ≤ 12) :
    (s.reading (s.date.swap h)).wall = (s.reading s.date).wall ↔ s.date.day = s.date.month := by
  rw [← Date.ordinal_swap h]
  simp only [reading]
  omega

/-- The offsets of the known zones are shorter than a day. -/
theorem offset_range : ¬ ((s.reading s.date).utcoffset.getD 0 ≤ -dayLength ∨
    dayLength ≤ (s.reading s.date).utcoffset.getD 0) := by
  have hknown : ∀ z ∈ tzAliases, ¬ (z.2 * 1000000 ≤ -dayLength ∨ dayLength ≤ z.2 * 1000000) := by decide
  have hzone := s.zone_known
  rw [reading]
  cases hz : s.zone with
  | none => simp [dayLength]
  | some z => exact hknown z (hzone z hz)

section
variable {env : Externals} (hdateutil : ReadsDayFirst env)
include hdateutil

/-- The first try never fails on a day-first timestamp. -/
theorem parseTimestamp_text : parseTimestamp env s.text =
    if h : s.date.day ≤ 12 then
      astimezoneUtc (s.reading (s.date.swap h)).wall ((s.reading (s.date.swap h)).utcoffset.getD 0)
    else astimezoneUtc (s.reading s.date).wall ((s.reading s.date).utcoffset.getD 0) := by
  have hfirst (dt : ParsedDateTime) (hdt : env.dtparse s.text false = .ok dt) :
      parseTimestamp env s.text = astimezoneUtc dt.wall (dt.utcoffset.getD 0) := by
    rw [parseTimestamp]
    simp only [s.strip_text, if_neg s.text_ne_empty, hdt]
    rfl
  split
  · next h => exact hfirst _ (hdateutil.monthFirst s h)
  · next h => exact hfirst _ (hdateutil.swapped s (Nat.lt_of_not_le h))

theorem parseTimestamp_unambiguous (hs : s.Unambiguous) :
    parseTimestamp env s.text =
      astimezoneUtc (s.reading s.date).wall ((s.reading s.date).utcoffset.getD 0) := by
  rw [parseTimestamp_text s hdateutil]
  split
  · next h =>
    have hsame := (s.reading_swap h).mpr (hs.resolve_left (Nat.not_lt_of_le h))
    rw [hsame]
    rfl
  · rfl

theorem unambiguous_of_parseTimestamp (h : parseTimestamp env s.text = .ok ⟨s.instant, 0⟩) : s.Unambiguous := by
  by_cases hday : s.date.day ≤ 12
  · rw [parseTimestamp_text s hdateutil, dif_pos hday] at h
    have hsame := congrArg DateTime.wall (astimezoneUtc_eq_ok h).1
    exact .inr ((s.reading_swap hday).mp (Int.sub_left_inj _ |>.mp hsame.symm))
  · exact .inl (Nat.lt_of_not_le hday)

theorem parseTimestamp_iff :
    parseTimestamp env s.text = .ok ⟨s.instant, 0⟩ ↔ s.Unambiguous ∧ s.InCalendar := by
  constructor
  · intro h
    have hs := s.unambiguous_of_parseTimestamp hdateutil h
    rw [s.parseTimestamp_unambiguous hdateutil hs] at h
    exact ⟨hs, (astimezoneUtc_eq_ok h).2⟩
  · rintro ⟨hs, hrange⟩
    rw [s.parseTimestamp_unambiguous hdateutil hs, astimezoneUtc, if_neg s.offset_range]
    exact if_pos hrange

end

end DayFirstStamp

/-- **A day-first timestamp is read as one if its day is no month**, or the same number, and only then; so
such timestamps keep their order. -/
theorem dayFirst_read_iff {env : Externals} (hdateutil : ReadsDayFirst env) :
    (∀ s : DayFirstStamp, parseTimestamp env s.text = .ok ⟨s.instant, 0⟩ ↔ s.Unambiguous ∧ s.InCalendar) ∧
      ∀ s later : DayFirstStamp, s.Unambiguous → later.Unambiguous → s.instant ≤ later.instant →
        ∀ t t', parseTimestamp env s.text = .ok t → parseTimestamp env later.text = .ok t' →
          t.instant ≤ t'.instant := by
  refine ⟨fun s => s.parseTimestamp_iff hdateutil, ?_⟩
  have hread {s : DayFirstStamp} {t : DateTime} (hs : s.Unambiguous) (ht : parseTimestamp env s.text = .ok t) :
      t = ⟨s.instant, 0⟩ := by
    rw [s.parseTimestamp_unambiguous hdateutil hs] at ht
    exact (astimezoneUtc_eq_ok ht).1
  intro s later hs hlater hle t t' ht ht'
  rw [hread hs ht, hread hlater ht']
  simpa [DateTime.instant] using hle

/-! ### A reader of them -/

/-- What `dateutil` reads from a day-first timestamp. -/
def readDayFirst (text : String) (dayfirst : Bool) : Except PyError ParsedDateTime :=
  let chars := text.toList
  let number (start width : Nat) : Nat := Nat.ofDigitChars 10 ((chars.drop start).take width) 0
  let (day, month) := if ¬ dayfirst ∧ number 0 2 ≤ 12 then (number 3 2, number 0 2) else (number 0 2, number 3 2)
  let year := number 6 4
  let ordinal := daysBeforeYear year + daysBeforeMonth (isLeap year) month + day
  .ok {
    wall := (((ordinal : Int) - 1) * 86400 + number 11 2 * 3600 + number 14 2 * 60) * 1000000
    utcoffset := (tzAliases.lookup (String.ofList (chars.drop 17))).map (· * 1000000) }

def dayFirstRuntime : Externals := { Externals.ofTables [] [] [] [] with dtparse := readDayFirst }

theorem ofDigitChars_paddedDigits (width : Nat) {n : Nat} (h : n < 10 ^ width) :
    Nat.ofDigitChars 10 (paddedDigits width n) 0 = n := by
  induction width generalizing n with
  | zero =>
    rw [Nat.lt_one_iff.mp h]
    rfl
  | succ width ih =>
    have hrest : n / 10 < 10 ^ width := Nat.div_lt_of_lt_mul (by rwa [Nat.pow_succ, Nat.mul_comm] at h)
    rw [paddedDigits, Nat.ofDigitChars_append, ih hrest,
      Nat.ofDigitChars_cons_digitChar_of_lt_ten (Nat.mod_lt _ (by decide)), Nat.ofDigitChars_nil]
    exact Nat.div_add_mod n 10

theorem readDayFirst_text (s : DayFirstStamp) (dayfirst : Bool) :
    readDayFirst s.text dayfirst =
      .ok (if h : ¬ dayfirst ∧ s.date.day ≤ 12 then s.reading (s.date.swap h.2) else s.reading s.date) := by
  have hday : Nat.ofDigitChars 10 (((s.dateChars ++ s.zoneChars).drop 0).take 2) 0 = s.date.day := by
    have hlength := daysInMonth_le (isLeap s.date.year) s.date.month
    have hrange := s.date.day_range
    exact ofDigitChars_paddedDigits 2 (by omega)
  have hmonth : Nat.ofDigitChars 10 (((s.dateChars ++ s.zoneChars).drop 3).take 2) 0 = s.date.month := by
    have hrange := s.date.month_range
    exact ofDigitChars_paddedDigits 2 (by omega)
  have hyear : Nat.ofDigitChars 10 (((s.dateChars ++ s.zoneChars).drop 6).take 4) 0 = s.date.year := by
    have hrange := s.year_short
    exact ofDigitChars_paddedDigits 4 (by omega)
  have hhour : Nat.ofDigitChars 10 (((s.dateChars ++ s.zoneChars).drop 11).take 2) 0 = s.hour :=
    ofDigitChars_paddedDigits 2 (by omega)
  have hminute : Nat.ofDigitChars 10 (((s.dateChars ++ s.zoneChars).drop 14).take 2) 0 = s.minute :=
    ofDigitChars_paddedDigits 2 (by omega)
  have hzone : (tzAliases.lookup (String.ofList ((s.dateChars ++ s.zoneChars).drop 17))).map (· * 1000000) =
      s.zone.map fun z => z.2 * 1000000 := by
    have hknown := s.zone_known
    rw [DayFirstStamp.zoneChars]
    cases hz : s.zone with
    | none => rfl
    | some z =>
      have hlookup : ∀ z ∈ tzAliases, tzAliases.lookup (String.ofList z.1.toList) = some z.2 := by decide
      exact congrArg (Option.map (· * 1000000)) (hlookup z (hknown z hz))
  rw [readDayFirst, DayFirstStamp.text, String.toList_ofList]
  simp only [hday, hmonth, hyear, hhour, hminute, hzone]
  split
  · rfl
  · rfl

theorem readsDayFirst_readDayFirst : ReadsDayFirst dayFirstRuntime where
  monthFirst s h := (readDayFirst_text s false).trans (by rw [dif_pos ⟨by decide, h⟩])
  swapped s h := (readDayFirst_text s false).trans (by rw [dif_neg fun hle => absurd hle.2 (Nat.not_le_of_lt h)])
  dayFirst s := (readDayFirst_text s true).trans (by rw [dif_neg fun hle => hle.1 rfl])

/-- 09:42 in western Indonesia on a day of 2026. -/
def wibMorning (month day : Nat) (hmonth : 1 ≤ month ∧ month ≤ 12)
    (hday : 1 ≤ day ∧ day ≤ daysInMonth (isLeap 2026) month) : DayFirstStamp where
  date := ⟨2026, month, day, by decide, hmonth, hday⟩
  year_short := show 2026 ≤ 9999 by decide
  hour := 9
  minute := 42
  zone := some ("WIB", 7 * 3600)
  zone_known := by decide

example : (wibMorning 4 28 (by decide) (by decide)).text = "28/04/2026 09:42 WIB" := by decide

theorem dayFirst_read_witness :
    parseTimestamp dayFirstRuntime (wibMorning 4 28 (by decide) (by decide)).text =
      .ok ⟨(wibMorning 4 28 (by decide) (by decide)).instant, 0⟩ :=
  ((dayFirst_read_iff readsDayFirst_readDayFirst).1 (wibMorning 4 28 (by decide) (by decide))).mpr
    ⟨.inl (by decide), by decide, by decide⟩

/-- The fifth of March is read as the third of May, and so after the third of April, which is read as
the fourth of March. -/
theorem dayFirst_misread :
    let march5 := wibMorning 3 5 (by decide) (by decide)
    let april3 := wibMorning 4 3 (by decide) (by decide)
    let march4 := wibMorning 3 4 (by decide) (by decide)
    let may3 := wibMorning 5 3 (by decide) (by decide)
    march5.instant < april3.instant ∧ march4.instant < may3.instant ∧
      parseTimestamp dayFirstRuntime march5.text = .ok ⟨may3.instant, 0⟩ ∧
      parseTimestamp dayFirstRuntime april3.text = .ok ⟨march4.instant, 0⟩ ∧
      parseTimestamp dayFirstRuntime april3.text ≠ .ok ⟨april3.instant, 0⟩ := by
  decide +kernel

end WebhookIngestion
