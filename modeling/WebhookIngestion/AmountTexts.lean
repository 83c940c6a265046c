import WebhookIngestion.MoneyRoundTrip
import Mathlib.Data.Bool.AllAny

/-! # Signs and codes of amounts

What `parse_money` makes of a minus sign and of where the currency code stands.  The
sign goes to the units alone and the decimals are added to them, so a negative amount with
decimals comes back too large, below one unit even positive; and a code that a digit touches
is no word of its own, so the default currency stands in for it. -/
namespace WebhookIngestion
open Text

/-! ### Signs -/

/-- An amount without a sign: digits, with separators between or behind them. -/
structure AmountText where
  first : Char
  rest : Chars
  first_digit : isAsciiDigit first = true
  rest_amount : ∀ c ∈ rest, isAmountChar c = true

def AmountText.chars (number : AmountText) : Chars := number.first :: number.rest

/-- The decimals of a number: the one or two digits behind its last separator. -/
def decimalsOf (number : Chars) : Chars :=
  let last := number.rtakeWhile fun c => !isSeparator c
  if (number.all fun c => !isSeparator c) ∨ last.length ≠ 1 ∧ last.length ≠ 2 then [] else last

/-- The decimals are not all zero. -/
def AmountText.HasCents (number : AmountText) : Prop := ∃ d ∈ decimalsOf number.chars, d ≠ '0'

/-- A number behind a currency code and a space, if there is a code. -/
def spelled (code : Option String) (number : Chars) : String :=
  match code with
  | none => String.ofList number
  | some code => String.ofList (code.toList ++ ' ' :: number)

section
variable {u : Unicode} {number front last ds : Chars} {sep : Char}

theorem int?_minus (hds : ∀ c ∈ ds, isAsciiDigit c = true) :
    int? u ('-' :: ds) = (int? u ds).map fun n => -n := by
  have hstrip : stripWhere isSpace ('-' :: ds) = '-' :: ds := by
    refine stripWhere_eq_self ?_ ?_
    · rintro c ⟨⟩
      decide
    · intro c hc
      rcases List.mem_cons.mp (List.mem_of_getLast? hc) with rfl | hmem
      · decide
      · exact isSpace_of_isAsciiDigit (hds c hmem)
  have hunderscore : '_' ∉ ds := ne_of_isAsciiDigit hds (by decide)
  have hfilter : ds.filter (· ≠ '_') = ds := by
    refine List.filter_eq_self.mpr fun c hc => ?_
    rw [decide_eq_true_iff]
    rintro rfl
    exact hunderscore hc
  rw [int?, hstrip, int?_digits hds]
  simp only [splitChar_eq_singleton hunderscore, hfilter]
  cases ds with
  | nil => rfl
  | cons d ds => cases natValue u (d :: ds) <;> simp

/-- A number has no separator, or a last one. -/
theorem last_separator (number : Chars) :
    (∀ c ∈ number, isSeparator c = false) ∨ ∃ front sep last, number = front ++ sep :: last ∧
      isSeparator sep = true ∧ ∀ c ∈ last, isSeparator c = false := by
  induction number with
  | nil => exact .inl fun _ hc => absurd hc List.not_mem_nil
  | cons d number ih =>
    rcases ih with hnone | ⟨front, sep, last, rfl, hsep, hlast⟩
    · cases hd : isSeparator d with
      | true => exact .inr ⟨[], d, number, rfl, hd, hnone⟩
      | false => exact .inl (List.forall_mem_cons.mpr ⟨hd, hnone⟩)
    · exact .inr ⟨d :: front, sep, last, rfl, hsep, hlast⟩

theorem isAsciiDigit_of_isAmountChar {c : Char} (h : isAmountChar c = true) (hsep : isSeparator c = false) :
    isAsciiDigit c = true := by
  rwa [isAmountChar, hsep, Bool.or_false] at h

theorem decimalsOf_whole (hnumber : ∀ c ∈ number, isSeparator c = false) : decimalsOf number = [] := by
  refine if_pos (.inl (List.all_eq_true.mpr fun c hc => ?_))
  rw [hnumber c hc]
  rfl

theorem decimalsOf_append (hsep : isSeparator sep = true) (hlast : ∀ c ∈ last, isSeparator c = false) :
    decimalsOf (front ++ sep :: last) = if last.length ≠ 1 ∧ last.length ≠ 2 then [] else last := by
  rw [decimalsOf, fractional_eq hsep hlast]
  simp only [not_all_digits hsep, Bool.false_eq_true, false_or]

/-- The minor units decimals stand for; zeros, and nothing else, stand for none. -/
theorem minorUnits_digits (hlast : ∀ c ∈ last, isAsciiDigit c = true)
    (hlength : ¬ (last.length ≠ 1 ∧ last.length ≠ 2)) :
    ∃ minor : Nat, int? u ((last ++ ['0']).take 2) = some (minor : Int) ∧ (minor = 0 ↔ ∀ d ∈ last, d = '0') := by
  have hzero {d : Char} (hd : isAsciiDigit d = true) : d.toNat - '0'.toNat = 0 ↔ d = '0' := by
    have hrange := isAsciiDigit_iff.mp hd
    constructor
    · intro heq
      have h0 : '0'.toNat = 48 := rfl
      exact Char.toNat_inj.mp (by omega)
    · rintro rfl
      rfl
  have htwo {d e : Char} (hd : isAsciiDigit d = true) (he : isAsciiDigit e = true) :
      int? u [d, e] = some ((10 * (d.toNat - '0'.toNat) + (e.toNat - '0'.toNat) : Nat) : Int) := by
    have hds : ∀ c ∈ [d, e], isAsciiDigit c = true :=
      List.forall_mem_cons.mpr ⟨hd, List.forall_mem_singleton.mpr he⟩
    rw [int?_digits hds, natValue_digits hds, if_neg (by simp), Nat.ofDigitChars_eq_foldl]
    simp
  rcases last with _ | ⟨d, _ | ⟨e, _ | ⟨f, last⟩⟩⟩
  · exact absurd ⟨by simp, by simp⟩ hlength
  · have hd := hlast d List.mem_cons_self
    refine ⟨_, htwo hd (by decide), ?_⟩
    rw [Nat.add_eq_zero_iff, Nat.mul_eq_zero, hzero hd]
    simp
  · have hd := hlast d List.mem_cons_self
    have he := hlast e (List.mem_cons_of_mem _ List.mem_cons_self)
    refine ⟨_, htwo hd he, ?_⟩
    rw [Nat.add_eq_zero_iff, Nat.mul_eq_zero, hzero hd, hzero he]
    simp
  · exact absurd ⟨by simp, by simp⟩ hlength

theorem parseMinorUnits_minus_whole (hds : ∀ c ∈ ds, isAsciiDigit c = true) {amount : Int}
    (h : parseMinorUnits u ds = .ok amount) : parseMinorUnits u ('-' :: ds) = .ok (-amount) := by
  have hwhole : ∀ c ∈ ds, isSeparator c = false := fun c hc => isSeparator_of_isAsciiDigit (hds c hc)
  rw [parseMinorUnits_whole hwhole] at h
  rw [parseMinorUnits_whole (List.forall_mem_cons.mpr ⟨by decide, hwhole⟩), int?_minus hds]
  cases hn : int? u ds with
  | none =>
    rw [hn] at h
    cases h
  | some n =>
    rw [hn] at h
    cases h
    rw [Option.map_some, Option.elim_some, Int.neg_mul]

section
variable (hsep : isSeparator sep = true) (hlast : ∀ c ∈ last, isSeparator c = false)
include hsep hlast

/-- A sign is no digit of a number with thousands only. -/
theorem parseMinorUnits_minus_thousands (hlength : last.length ≠ 1 ∧ last.length ≠ 2) :
    parseMinorUnits u ('-' :: (front ++ sep :: last)) = .error .valueError := by
  have hjoined : ('-' :: front ++ sep :: last).filter (fun c => !isSeparator c) =
      '-' :: (front ++ sep :: last).filter (fun c => !isSeparator c) := rfl
  rw [← List.cons_append, parseMinorUnits_thousands hsep hlast hlength hjoined]
  refine if_neg ?_
  rintro ⟨-, hall⟩
  rw [List.all_cons, Bool.and_eq_true] at hall
  exact absurd hall.1 (by decide)

/-- With decimals the sign goes to the units alone. -/
theorem parseMinorUnits_minus_decimals (hlength : ¬ (last.length ≠ 1 ∧ last.length ≠ 2))
    (hds : front.filter (fun c => !isSeparator c) = ds) (hdigits : ∀ c ∈ ds, isAsciiDigit c = true) (hne : ds ≠ [])
    {minor amount : Int} (hminor : int? u ((last ++ ['0']).take 2) = some minor)
    (h : parseMinorUnits u (front ++ sep :: last) = .ok amount) :
    parseMinorUnits u ('-' :: (front ++ sep :: last)) = .ok (2 * minor - amount) := by
  have hsigned : ('-' :: front).filter (fun c => !isSeparator c) = '-' :: ds := by
    rw [List.filter_cons_of_pos (by decide), hds]
  rw [parseMinorUnits_decimals hsep hlast (by omega) hds hne hminor] at h
  rw [← List.cons_append, parseMinorUnits_decimals hsep hlast (by omega) hsigned (List.cons_ne_nil _ _) hminor,
    int?_minus hdigits]
  cases hn : int? u ds with
  | none =>
    rw [hn] at h
    cases h
  | some n =>
    rw [hn] at h
    cases h
    rw [Option.map_some, Option.elim_some]
    congr 1
    omega

end

theorem AmountText.amount (number : AmountText) : ∀ c ∈ number.chars, isAmountChar c = true := by
  refine List.forall_mem_cons.mpr ⟨?_, number.rest_amount⟩
  rw [isAmountChar, number.first_digit]
  rfl

/-- What stands before a separator of a number has digits. -/
theorem AmountText.front_ne_nil {number : AmountText} (heq : number.chars = front ++ sep :: last)
    (hsep : isSeparator sep = true) : front.filter (fun c => !isSeparator c) ≠ [] := by
  have hfirst : isSeparator number.first = false := isSeparator_of_isAsciiDigit number.first_digit
  cases front with
  | nil =>
    rw [show number.first = sep from (List.cons.inj heq).1, hsep] at hfirst
    cases hfirst
  | cons d rest =>
    rw [show number.first = d from (List.cons.inj heq).1] at hfirst
    rw [List.filter_cons_of_pos (by rw [hfirst]; rfl)]
    exact List.cons_ne_nil _ _

/-- A sign in front of a number whose units are read makes it refused or negative, exactly if the number
has no cents. -/
theorem parseMinorUnits_minus (number : AmountText) {amount : Int}
    (h : parseMinorUnits u number.chars = .ok amount) :
    (parseMinorUnits u ('-' :: number.chars) = .error .valueError ∨
      parseMinorUnits u ('-' :: number.chars) = .ok (-amount)) ↔ ¬ number.HasCents := by
  have hdigit (c : Char) (hc : c ∈ number.chars) (hsep : isSeparator c = false) : isAsciiDigit c = true :=
    isAsciiDigit_of_isAmountChar (number.amount c hc) hsep
  rcases last_separator number.chars with hnone | ⟨front, sep, last, heq, hsep, hlast⟩
  · have hds : ∀ c ∈ number.chars, isAsciiDigit c = true := fun c hc => hdigit c hc (hnone c hc)
    rw [AmountText.HasCents, decimalsOf_whole hnone, parseMinorUnits_minus_whole hds h]
    simp
  · have hfront := AmountText.front_ne_nil heq hsep
    rw [heq] at h hdigit
    rw [AmountText.HasCents, heq, decimalsOf_append hsep hlast]
    by_cases hlength : last.length ≠ 1 ∧ last.length ≠ 2
    · rw [if_pos hlength, parseMinorUnits_minus_thousands hsep hlast hlength]
      simp
    · obtain ⟨minor, hminor, hzero⟩ := minorUnits_digits (u := u)
        (fun d hd => hdigit d (List.mem_append_right _ (List.mem_cons_of_mem _ hd)) (hlast d hd)) hlength
      have hunits (c : Char) (hc : c ∈ front.filter fun c => !isSeparator c) : isAsciiDigit c = true := by
        obtain ⟨hmem, hc⟩ := List.mem_filter.mp hc
        exact hdigit c (List.mem_append_left _ hmem) (by simpa using hc)
      have hodd : 2 * (minor : Int) - amount = -amount ↔ minor = 0 := by omega
      rw [if_neg hlength, parseMinorUnits_minus_decimals hsep hlast hlength rfl hunits hfront hminor h]
      simp [hodd, hzero]

theorem parseMoney_spelled (hkept : ∀ c ∈ number, isKept c = true) (hne : number ≠ []) (env : Externals)
    {code : Option String} (hcode : ∀ c ∈ code, isCurrencyCode c = true) :
    parseMoney env (spelled code number) =
      (parseMinorUnits env.toUnicode number).map (Prod.mk (code.getD "USD")) := by
  cases code with
  | none => exact parseMoney_bare hkept hne env
  | some code => exact parseMoney_codeFirst hkept hne env (hcode code rfl)

end

instance (number : AmountText) : Decidable number.HasCents :=
  inferInstanceAs (Decidable (∃ d ∈ decimalsOf number.chars, d ≠ '0'))

/-- **The sign of an amount without cents is kept, or the text refused**; with cents, and only then,
the amount comes back as another. -/
theorem parseMoney_odd_iff (env : Externals) {code : Option String} (hcode : ∀ c ∈ code, isCurrencyCode c = true)
    (number : AmountText) {currency : String} {amount : Int}
    (hread : parseMoney env (spelled code number.chars) = .ok (currency, amount)) :
    (parseMoney env (spelled code ('-' :: number.chars)) = .error .valueError ∨
      parseMoney env (spelled code ('-' :: number.chars)) = .ok (currency, -amount)) ↔ ¬ number.HasCents := by
  have hkept : ∀ c ∈ number.chars, isKept c = true := fun c hc => isKept_of_isAmountChar (number.amount c hc)
  have hminus : ∀ c ∈ '-' :: number.chars, isKept c = true := List.forall_mem_cons.mpr ⟨rfl, hkept⟩
  rw [parseMoney_spelled hkept (List.cons_ne_nil _ _) env hcode] at hread
  rw [parseMoney_spelled hminus (List.cons_ne_nil _ _) env hcode]
  cases hunits : parseMinorUnits env.toUnicode number.chars with
  | error e =>
    rw [hunits] at hread
    cases hread
  | ok units =>
    rw [hunits] at hread
    cases hread
    rw [← parseMinorUnits_minus number hunits]
    cases parseMinorUnits env.toUnicode ('-' :: number.chars) <;> simp [Except.map]

theorem parseMoney_odd_witness :
    parseMoney (Externals.ofTables [] [] [] []) "EUR -12,00" = .error .valueError ∨
      parseMoney (Externals.ofTables [] [] [] []) "EUR -12,00" = .ok ("EUR", -1200) := by
  let number : AmountText := ⟨'1', "2,00".toList, by decide, List.all_iff_forall_prop.mp (by decide)⟩
  have hzeros : ∀ d ∈ decimalsOf number.chars, d = '0' := List.all_iff_forall_prop.mp (by decide)
  have hcode : ∀ c ∈ some "EUR", isCurrencyCode c = true := by decide
  exact (parseMoney_odd_iff (Externals.ofTables [] [] [] []) hcode number
    (show parseMoney _ (spelled (some "EUR") number.chars) = .ok ("EUR", 1200) by decide)).mpr
    fun ⟨d, hd, hne⟩ => hne (hzeros d hd)

/-- Less than one unit owed reads as owned. -/
theorem parseMoney_sign_lost :
    parseMoney (Externals.ofTables [] [] [] []) "0.50" = .ok ("USD", 50) ∧
      ¬ (parseMoney (Externals.ofTables [] [] [] []) "-0.50" = .error .valueError ∨
        parseMoney (Externals.ofTables [] [] [] []) "-0.50" = .ok ("USD", -50)) ∧
      parseMoney (Externals.ofTables [] [] [] []) "-0.50" = .ok ("USD", 50) := by
  decide

/-! ### Codes -/

/-- A text with no other capital letters than those of a currency code. -/
structure CodedText where
  front : Chars
  code : String
  back : Chars
  code_valid : isCurrencyCode code = true
  front_plain : ∀ c ∈ front, isAsciiUpper c = false
  back_plain : ∀ c ∈ back, isAsciiUpper c = false

namespace CodedText

def text (t : CodedText) : String := String.ofList (t.front ++ t.code.toList ++ t.back)

/-- No letter, digit or underscore touches the code. -/
def StandsAlone (u : Unicode) (t : CodedText) : Prop :=
  standsAlone u (t.front.dropWhile isSpace) (t.back.rdropWhile isSpace) = true

/-- The currency the text has without its code. -/
def otherCurrency (t : CodedText) : String := assumedCurrency (t.front.dropWhile isSpace)

/-- What is left of the text to read units from. -/
def number (t : CodedText) : Chars := (t.front ++ t.back).filter isKept

end CodedText

section
variable {u : Unicode}

/-- Units can be read from digits, separators and signs. -/
def ReadableUnits (u : Unicode) (digits : Chars) : Prop :=
  let isNumber (s : Chars) : Prop := (int? u s).isSome = true
  let last := digits.rtakeWhile fun c => !isSeparator c
  let units := digits.filter fun c => !isSeparator c
  if digits.all fun c => !isSeparator c then isNumber digits
  else if last.length ≠ 1 ∧ last.length ≠ 2 then (units ≠ [] ∧ units.all isAsciiDigit) ∧ isNumber units
  else
    let integerPart := (digits.take (digits.length - last.length)).filter fun c => !isSeparator c
    (integerPart = [] ∨ isNumber integerPart) ∧ isNumber ((last ++ ['0']).take 2)

theorem parseMinorUnits_readable (digits : Chars) :
    ReadableUnits u digits ∧ (∃ amount, parseMinorUnits u digits = .ok amount) ∨
      ¬ ReadableUnits u digits ∧ parseMinorUnits u digits = .error .valueError := by
  rw [ReadableUnits, parseMinorUnits]
  dsimp only
  split
  · cases int? u digits with
    | none => exact .inr ⟨Bool.false_ne_true, rfl⟩
    | some n => exact .inl ⟨rfl, n * 100, rfl⟩
  · split
    · split
      · next hunits =>
        rw [and_iff_right hunits]
        cases int? u (digits.filter fun c => !isSeparator c) with
        | none => exact .inr ⟨Bool.false_ne_true, rfl⟩
        | some n => exact .inl ⟨rfl, n * 100, rfl⟩
      · next hunits => exact .inr ⟨fun h => hunits h.1, rfl⟩
    · split
      · next hempty =>
        cases int? u (List.take 2 (digits.rtakeWhile (fun c => !isSeparator c) ++ ['0'])) with
        | none => exact .inr ⟨fun h => Bool.false_ne_true h.2, rfl⟩
        | some m => exact .inl ⟨⟨.inl hempty, rfl⟩, _, rfl⟩
      · next hempty =>
        rw [or_iff_right hempty]
        cases int? u (List.filter (fun c => !isSeparator c)
          (List.take (digits.length - (digits.rtakeWhile fun c => !isSeparator c).length) digits)) with
        | none => exact .inr ⟨fun h => Bool.false_ne_true h.1, rfl⟩
        | some n =>
          cases int? u (List.take 2 (digits.rtakeWhile (fun c => !isSeparator c) ++ ['0'])) with
          | none => exact .inr ⟨fun h => Bool.false_ne_true h.2, rfl⟩
          | some m => exact .inl ⟨⟨rfl, rfl⟩, _, rfl⟩

end

theorem parseMoney_coded (env : Externals) (t : CodedText) :
    ∃ currency, parseMoney env t.text = (readUnits env.toUnicode t.number).map (Prod.mk currency) ∧
      (currency = t.code ↔ t.StandsAlone env.toUnicode ∨ t.code = t.otherCurrency) := by
  obtain ⟨a, b, c, hchars, ha, hb, hc⟩ := isCurrencyCode_iff.mp t.code_valid
  have hread := parseMoney_between ha hb hc t.front_plain t.back_plain env
  have htext : t.text = String.ofList (t.front ++ a :: b :: c :: t.back) := by
    rw [CodedText.text, hchars, String.toList_ofList, List.append_assoc]
    rfl
  rw [← htext, ← hchars] at hread
  refine ⟨_, hread, ?_⟩
  rw [CodedText.StandsAlone, CodedText.otherCurrency]
  split
  · next halone => simp [halone]
  · next halone => simp [halone, eq_comm]

/-- **A code is the currency, unless a word character touches it**: then another currency stands in
for it, if it is not the same and the units are read at all. -/
theorem parseMoney_keepsCode_iff (env : Externals) (t : CodedText) :
    (parseMoney env t.text = .error .valueError ∨ ∃ amount, parseMoney env t.text = .ok (t.code, amount)) ↔
      t.StandsAlone env.toUnicode ∨ t.code = t.otherCurrency ∨
        ¬ (t.number ≠ [] ∧ ReadableUnits env.toUnicode t.number) := by
  obtain ⟨currency, hread, hcurrency⟩ := parseMoney_coded env t
  rw [hread, ← or_assoc, ← hcurrency, readUnits]
  by_cases hnumber : t.number = []
  · rw [if_pos hnumber]
    simp [hnumber, Except.map]
  · rw [if_neg hnumber]
    rcases parseMinorUnits_readable (u := env.toUnicode) t.number with ⟨hreadable, amount, hunits⟩ | ⟨hnot, hunits⟩
    · simp [hunits, hnumber, hreadable, Except.map]
    · simp [hunits, hnot, Except.map]

/-- Euros booked as dollars. -/
theorem parseMoney_code_lost :
    parseMoney (Externals.ofTables [] [] [] []) "EUR100" = .ok ("USD", 10000) ∧
      ¬ (parseMoney (Externals.ofTables [] [] [] []) "EUR100" = .error .valueError ∨
        ∃ amount, parseMoney (Externals.ofTables [] [] [] []) "EUR100" = .ok ("EUR", amount)) := by
  have hread : parseMoney (Externals.ofTables [] [] [] []) "EUR100" = .ok ("USD", 10000) := by decide
  rw [hread]
  simp

end WebhookIngestion
