import WebhookIngestion.Decimals
import WebhookIngestion.Parsers

/-! # Amounts as they are written

How a vendor writes an amount of `n` units and some decimals, in the two styles
`parse_money` tells apart, and what it reads there.  The decimal separator is guessed
from the last separator and the number of digits behind it: the last group of thousands
has three, the decimals one or two, so neither is taken for the other. -/
namespace WebhookIngestion
open Text

/-! ### Writing amounts -/

inductive MoneyStyle where
  | us | european
  deriving DecidableEq

def MoneyStyle.thousands : MoneyStyle → Char
  | us => ','
  | european => '.'

def MoneyStyle.decimal : MoneyStyle → Char
  | us => '.'
  | european => ','

/-- The decimals an amount is written with. -/
inductive WrittenDecimals where
  | none
  | one (d : Fin 10)
  | two (m : Fin 100)
  deriving DecidableEq

namespace WrittenDecimals

def minorUnits : WrittenDecimals → Nat
  | none => 0
  | one d => 10 * d
  | two m => m

def digits : WrittenDecimals → Chars
  | none => []
  | one d => [Nat.digitChar d]
  | two m => [Nat.digitChar (m / 10), Nat.digitChar (m % 10)]

end WrittenDecimals

/-- `sep` between each group of three digits and the next, counted from the right. -/
def groupThousands (sep : Char) : Chars → Chars
  | [] => []
  | d :: ds =>
    if ds ≠ [] ∧ ds.length % 3 = 0 then d :: sep :: groupThousands sep ds else d :: groupThousands sep ds

def renderUnits (style : MoneyStyle) (grouping : Bool) (n : Nat) : Chars :=
  if grouping then groupThousands style.thousands (Nat.toDigits 10 n) else Nat.toDigits 10 n

def renderAmount (style : MoneyStyle) (grouping : Bool) (n : Nat) (decimals : WrittenDecimals) : Chars :=
  if decimals = .none then renderUnits style grouping n
  else renderUnits style grouping n ++ style.decimal :: decimals.digits

/-- An amount with its currency before or after it. -/
def renderMoney (style : MoneyStyle) (grouping codeFirst : Bool) (code : String) (n : Nat)
    (decimals : WrittenDecimals) : String :=
  if codeFirst then String.ofList (code.toList ++ ' ' :: renderAmount style grouping n decimals)
  else String.ofList (renderAmount style grouping n decimals ++ ' ' :: code.toList)

example : renderMoney .european true true "EUR" 1024350 (.two 75) = "EUR 1.024.350,75" := by decide

example : renderMoney .us true false "USD" 24350 (.one 5) = "24,350.5 USD" := by decide

/-! ### The characters of an amount -/

/-- What `parse_money` keeps of an amount besides the sign. -/
def isAmountChar (c : Char) : Bool := isAsciiDigit c || isSeparator c

theorem isSeparator_of_isAsciiDigit {c : Char} (h : isAsciiDigit c = true) : isSeparator c = false := by
  have hrange := isAsciiDigit_iff.mp h
  rw [isSeparator, Bool.or_eq_false_iff]
  constructor
  · refine decide_eq_false ?_
    rintro rfl
    exact absurd hrange (by decide)
  · refine decide_eq_false ?_
    rintro rfl
    exact absurd hrange (by decide)

theorem isSeparator_thousands (style : MoneyStyle) : isSeparator style.thousands = true := by
  cases style <;> rfl

theorem isSeparator_decimal (style : MoneyStyle) : isSeparator style.decimal = true := by
  cases style <;> rfl

theorem isSeparator_iff {c : Char} : isSeparator c = true ↔ c = '.' ∨ c = ',' := by
  rw [isSeparator, Bool.or_eq_true, decide_eq_true_iff, decide_eq_true_iff]

theorem not_upper_of_isAmountChar {c : Char} (h : isAmountChar c = true) : isAsciiUpper c = false := by
  rw [← Bool.not_eq_true, isAsciiUpper_iff]
  rw [isAmountChar, Bool.or_eq_true] at h
  rcases h with hdigit | hsep
  · have hrange := isAsciiDigit_iff.mp hdigit
    omega
  · rcases isSeparator_iff.mp hsep with rfl | rfl <;> decide

theorem not_space_of_isAmountChar {c : Char} (h : isAmountChar c = true) : isSpace c = false := by
  rw [isAmountChar, Bool.or_eq_true] at h
  rcases h with hdigit | hsep
  · exact isSpace_of_isAsciiDigit hdigit
  · rcases isSeparator_iff.mp hsep with rfl | rfl <;> decide

/-- What `parse_money` keeps of a text to read units from. -/
def isKept (c : Char) : Bool := isAsciiDigit c || isSeparator c || c = '-'

theorem isKept_of_isAmountChar {c : Char} (h : isAmountChar c = true) : isKept c = true := by
  rw [isKept, ← isAmountChar, h]
  rfl

theorem not_space_of_isKept {c : Char} (h : isKept c = true) : isSpace c = false := by
  rw [isKept, Bool.or_eq_true, decide_eq_true_iff] at h
  rcases h with hamount | rfl
  · exact not_space_of_isAmountChar hamount
  · decide

theorem not_upper_of_isKept {c : Char} (h : isKept c = true) : isAsciiUpper c = false := by
  rw [isKept, Bool.or_eq_true, decide_eq_true_iff] at h
  rcases h with hamount | rfl
  · exact not_upper_of_isAmountChar hamount
  · decide

theorem isKept_of_isSpace {c : Char} (h : isSpace c = true) : isKept c = false := by
  by_contra hkept
  rw [not_space_of_isKept (by simpa using hkept)] at h
  cases h

theorem isKept_of_isAsciiUpper {c : Char} (h : isAsciiUpper c = true) : isKept c = false := by
  by_contra hkept
  rw [not_upper_of_isKept (by simpa using hkept)] at h
  cases h

/-! ### Groups of thousands -/

section
variable {sep : Char} {ds : Chars}

theorem groupThousands_filter (hsep : isSeparator sep = true) (hds : ∀ c ∈ ds, isAsciiDigit c = true) :
    (groupThousands sep ds).filter (fun c => !isSeparator c) = ds := by
  induction ds with
  | nil => rfl
  | cons d ds ih =>
    have hd : isSeparator d = false := isSeparator_of_isAsciiDigit (hds d List.mem_cons_self)
    have hrest := ih fun c hc => hds c (List.mem_cons_of_mem _ hc)
    rw [groupThousands]
    split
    · rw [List.filter_cons_of_pos (by rw [hd]; rfl), List.filter_cons_of_neg (by rw [hsep]; decide), hrest]
    · rw [List.filter_cons_of_pos (by rw [hd]; rfl), hrest]

theorem groupThousands_short (h : ds.length ≤ 3) : groupThousands sep ds = ds := by
  induction ds with
  | nil => rfl
  | cons d ds ih =>
    rw [List.length_cons] at h
    have hcond : ¬ (ds ≠ [] ∧ ds.length % 3 = 0) := by
      rintro ⟨hne, hmod⟩
      have hpos := List.length_pos_iff.mpr hne
      omega
    rw [groupThousands, if_neg hcond, ih (by omega)]

/-- The last group has three digits. -/
theorem groupThousands_long (h : 3 < ds.length) :
    ∃ front last, groupThousands sep ds = front ++ sep :: last ∧ last.length = 3 ∧ last <:+ ds := by
  induction ds with
  | nil => cases h
  | cons d ds ih =>
    rw [List.length_cons] at h
    by_cases hlast : ds.length = 3
    · refine ⟨[d], ds, ?_, hlast, List.suffix_cons d ds⟩
      have hcond : ds ≠ [] ∧ ds.length % 3 = 0 := by
        refine ⟨?_, by omega⟩
        rintro rfl
        cases hlast
      rw [groupThousands, if_pos hcond, groupThousands_short (by omega)]
      rfl
    · obtain ⟨front, last, heq, hlength, hsuffix⟩ := ih (by omega)
      have hsuffix := hsuffix.trans (List.suffix_cons d ds)
      rw [groupThousands]
      split
      · exact ⟨d :: sep :: front, last, by rw [heq]; rfl, hlength, hsuffix⟩
      · exact ⟨d :: front, last, by rw [heq]; rfl, hlength, hsuffix⟩

theorem mem_groupThousands {c : Char} (h : c ∈ groupThousands sep ds) : c = sep ∨ c ∈ ds := by
  induction ds with
  | nil => cases h
  | cons d ds ih =>
    rw [groupThousands] at h
    split at h
    · rcases List.mem_cons.mp h with rfl | h
      · exact .inr List.mem_cons_self
      · rcases List.mem_cons.mp h with rfl | h
        · exact .inl rfl
        · exact (ih h).imp_right (List.mem_cons_of_mem d)
    · rcases List.mem_cons.mp h with rfl | h
      · exact .inr List.mem_cons_self
      · exact (ih h).imp_right (List.mem_cons_of_mem d)

end

theorem renderUnits_filter (style : MoneyStyle) (grouping : Bool) (n : Nat) :
    (renderUnits style grouping n).filter (fun c => !isSeparator c) = Nat.toDigits 10 n := by
  rw [renderUnits]
  split
  · exact groupThousands_filter (isSeparator_thousands style) fun c => isAsciiDigit_of_mem_toDigits
  · refine List.filter_eq_self.mpr fun c hc => ?_
    rw [isSeparator_of_isAsciiDigit (isAsciiDigit_of_mem_toDigits hc)]
    rfl

/-- Units are written in digits only, or end in a group of three. -/
theorem renderUnits_cases (style : MoneyStyle) (grouping : Bool) (n : Nat) :
    renderUnits style grouping n = Nat.toDigits 10 n ∨
      ∃ front last, renderUnits style grouping n = front ++ style.thousands :: last ∧ last.length = 3 ∧
        ∀ c ∈ last, isSeparator c = false := by
  cases grouping with
  | false => exact .inl rfl
  | true =>
    rw [renderUnits, if_pos rfl]
    by_cases hlong : 3 < (Nat.toDigits 10 n).length
    · obtain ⟨front, last, heq, hlength, hsuffix⟩ := @groupThousands_long style.thousands _ hlong
      refine .inr ⟨front, last, heq, hlength, fun c hc => ?_⟩
      exact isSeparator_of_isAsciiDigit (isAsciiDigit_of_mem_toDigits (hsuffix.subset hc))
    · exact .inl (groupThousands_short (Nat.le_of_not_lt hlong))

theorem isAmountChar_of_mem_renderUnits {style : MoneyStyle} {grouping : Bool} {n : Nat} {c : Char}
    (h : c ∈ renderUnits style grouping n) : isAmountChar c = true := by
  have hdigit (hc : c ∈ Nat.toDigits 10 n) : isAmountChar c = true := by
    rw [isAmountChar, isAsciiDigit_of_mem_toDigits hc]
    rfl
  rw [renderUnits] at h
  split at h
  · rcases mem_groupThousands h with rfl | hc
    · rw [isAmountChar, isSeparator_thousands, Bool.or_true]
    · exact hdigit hc
  · exact hdigit h

theorem WrittenDecimals.isAsciiDigit_of_mem {decimals : WrittenDecimals} {c : Char} (h : c ∈ decimals.digits) :
    isAsciiDigit c = true := by
  have hchar : ∀ d : Fin 10, isAsciiDigit (Nat.digitChar d) = true := by decide
  have hlt (m : Nat) (hm : m < 10) : isAsciiDigit (Nat.digitChar m) = true := hchar ⟨m, hm⟩
  cases decimals with
  | none => cases h
  | one d =>
    rw [List.mem_singleton.mp h]
    exact hchar d
  | two m =>
    rcases List.mem_cons.mp h with rfl | h
    · exact hlt _ (by omega)
    · rw [List.mem_singleton.mp h]
      exact hlt _ (by omega)

theorem isAmountChar_of_mem_renderAmount {style : MoneyStyle} {grouping : Bool} {n : Nat}
    {decimals : WrittenDecimals} {c : Char} (h : c ∈ renderAmount style grouping n decimals) :
    isAmountChar c = true := by
  rw [renderAmount] at h
  split at h
  · exact isAmountChar_of_mem_renderUnits h
  · rcases List.mem_append.mp h with h | h
    · exact isAmountChar_of_mem_renderUnits h
    · rcases List.mem_cons.mp h with rfl | h
      · rw [isAmountChar, isSeparator_decimal, Bool.or_true]
      · rw [isAmountChar, WrittenDecimals.isAsciiDigit_of_mem h]
        rfl

theorem renderAmount_ne_nil (style : MoneyStyle) (grouping : Bool) (n : Nat) (decimals : WrittenDecimals) :
    renderAmount style grouping n decimals ≠ [] := by
  have hunits : renderUnits style grouping n ≠ [] := by
    intro hnil
    have hfilter := renderUnits_filter style grouping n
    rw [hnil] at hfilter
    exact Nat.toDigits_ne_nil hfilter.symm
  rw [renderAmount]
  split
  · exact hunits
  · exact List.append_ne_nil_of_left_ne_nil hunits _

/-! ### The currency -/

section
variable {u : Unicode} {before : Option Char} {front back s : Chars}

theorem findCurrencyCode_cons {d : Char} (hd : isAsciiUpper d = false) :
    findCurrencyCode u before (d :: s) = findCurrencyCode u (some d) s := by
  rcases s with _ | ⟨b, _ | ⟨c, rest⟩⟩
  · rfl
  · rfl
  · rw [findCurrencyCode, hd]
    simp

/-- No code begins before the first capital letter. -/
theorem findCurrencyCode_append (hfront : ∀ c ∈ front, isAsciiUpper c = false) :
    findCurrencyCode u before (front ++ s) = findCurrencyCode u (front.getLast?.or before) s := by
  induction front generalizing before with
  | nil => rfl
  | cons d front ih =>
    rw [List.cons_append, findCurrencyCode_cons (hfront d List.mem_cons_self),
      ih fun c hc => hfront c (List.mem_cons_of_mem _ hc), List.getLast?_cons]
    cases front.getLast? <;> rfl

theorem findCurrencyCode_eq_none (hs : ∀ c ∈ s, isAsciiUpper c = false) : findCurrencyCode u before s = none := by
  have hskip := @findCurrencyCode_append u before s [] hs
  rwa [List.append_nil, findCurrencyCode] at hskip

theorem findCurrencyCode_run {a b c : Char} (ha : isAsciiUpper a = true) (hb : isAsciiUpper b = true)
    (hc : isAsciiUpper c = true) (hback : ∀ x ∈ back, isAsciiUpper x = false) :
    findCurrencyCode u before (a :: b :: c :: back) =
      if !before.any (isWord u) && !back.head?.any (isWord u) then some [a, b, c] else none := by
  have hrest : findCurrencyCode u (some a) (b :: c :: back) = none := by
    rcases back with _ | ⟨x, back⟩
    · rfl
    · have hx := hback x List.mem_cons_self
      have htail : findCurrencyCode u (some b) (c :: x :: back) = none := by
        rcases back with _ | ⟨y, back⟩
        · rfl
        · rw [findCurrencyCode, hx, findCurrencyCode_eq_none hback]
          simp
      rw [findCurrencyCode, hx, htail]
      simp
  rw [findCurrencyCode, ha, hb, hc, hrest]
  simp

theorem removeAll_append {a : Char} {needle : Chars} (ha : a ∉ front) :
    removeAll (a :: needle) 0 (front ++ s) = front ++ removeAll (a :: needle) 0 s := by
  induction front with
  | nil => rfl
  | cons d front ih =>
    rw [List.mem_cons, not_or] at ha
    have hprefix : (a :: needle).isPrefixOf (d :: (front ++ s)) = false := by
      rw [List.isPrefixOf_cons_cons, Bool.and_eq_false_iff]
      exact .inl (by simpa using ha.1)
    rw [List.cons_append, removeAll, hprefix, ih ha.2]
    rfl

end

section
variable {u : Unicode} {front back : Chars}

/-- The currency of a text without a code. -/
def assumedCurrency (s : Chars) : String :=
  match s.head? with
  | some '€' => "EUR"
  | some '£' => "GBP"
  | _ => "USD"

theorem splitCurrency_none {s : Chars} (h : findCurrencyCode u none s = none) :
    splitCurrency u s = (assumedCurrency s, s) := by
  rw [splitCurrency, h, assumedCurrency]
  dsimp only
  split <;> simp only [*]

theorem isWord_space : isWord u ' ' = false := by
  rw [isWord, if_pos (by decide)]
  decide

/-- Whether no word character touches a code between two texts. -/
def standsAlone (u : Unicode) (front back : Chars) : Bool :=
  !front.getLast?.any (isWord u) && !back.head?.any (isWord u)

section
variable {a b c : Char} (ha : isAsciiUpper a = true) (hb : isAsciiUpper b = true) (hc : isAsciiUpper c = true)
variable (hfront : ∀ x ∈ front, isAsciiUpper x = false) (hback : ∀ x ∈ back, isAsciiUpper x = false)
include ha hb hc hfront hback

theorem findCurrencyCode_between :
    findCurrencyCode u none (front ++ a :: b :: c :: back) =
      if standsAlone u front back then some [a, b, c] else none := by
  rw [findCurrencyCode_append hfront, findCurrencyCode_run ha hb hc hback, Option.or_none]
  rfl

omit hb hc in
theorem removeAll_between : removeAll [a, b, c] 0 (front ++ a :: b :: c :: back) = front ++ back := by
  have hnot {s : Chars} (hs : ∀ x ∈ s, isAsciiUpper x = false) : a ∉ s := by
    intro hmem
    rw [hs a hmem] at ha
    cases ha
  have hrest : removeAll [a, b, c] 0 (back ++ []) = back ++ removeAll [a, b, c] 0 [] :=
    removeAll_append (hnot hback)
  rw [List.append_nil] at hrest
  rw [removeAll_append (hnot hfront)]
  simp [removeAll, hrest]

end

end

/-! ### Reading the units -/

/-- `sys.int_info.default_max_str_digits`: longer texts are refused by `int`. -/
def maxStrDigits : Nat := 4300

section
variable {u : Unicode}

/-- Python reads back a number of at most 4300 digits. -/
theorem int?_units (n : Nat) :
    int? u (Nat.toDigits 10 n) = if n < 10 ^ maxStrDigits then some (n : Int) else none := by
  have hlength : (Nat.toDigits 10 n).length ≤ 4300 ↔ n < 10 ^ maxStrDigits :=
    Nat.length_toDigits_le_iff (k := maxStrDigits) (by decide) (by decide)
  split
  · next hn => exact int?_toDigits (hlength.mpr hn)
  · next hn =>
    cases h : int? u (Nat.toDigits 10 n) with
    | none => rfl
    | some i => exact absurd (hlength.mp (length_le_of_int? h)) hn

theorem rtakeWhile_append_cons {p : Char → Bool} {sep : Char} {front last : Chars} (hsep : p sep = false)
    (hlast : ∀ c ∈ last, p c = true) : (front ++ sep :: last).rtakeWhile p = last := by
  rw [List.rtakeWhile, List.reverse_append, List.reverse_cons, List.append_assoc,
    List.takeWhile_append_of_pos fun c hc => hlast c (List.mem_reverse.mp hc)]
  simp [hsep]

theorem parseMinorUnits_whole {digits : Chars} (hdigits : ∀ c ∈ digits, isSeparator c = false) :
    parseMinorUnits u digits = (int? u digits).elim (.error .valueError) fun n => .ok (n * 100) := by
  have hall : (digits.all fun c => !isSeparator c) = true := by
    rw [List.all_eq_true]
    intro c hc
    rw [hdigits c hc]
    rfl
  rw [parseMinorUnits, if_pos hall]
  dsimp only
  cases int? u digits <;> rfl

section
variable {front last ds : Chars} {sep : Char} (hsep : isSeparator sep = true)
  (hlast : ∀ c ∈ last, isSeparator c = false)
include hsep hlast

omit hlast in
theorem not_all_digits : ¬ ((front ++ sep :: last).all fun c => !isSeparator c) = true := by
  rw [List.all_eq_true]
  intro hall
  have hfalse := hall sep (List.mem_append_right _ List.mem_cons_self)
  rw [hsep] at hfalse
  cases hfalse

theorem fractional_eq : (front ++ sep :: last).rtakeWhile (fun c => !isSeparator c) = last :=
  rtakeWhile_append_cons (by rw [hsep]; rfl) fun c hc => by rw [hlast c hc]; rfl

/-- A last separator before no, three or more digits is one of thousands. -/
theorem parseMinorUnits_thousands (hlength : last.length ≠ 1 ∧ last.length ≠ 2)
    (hds : (front ++ sep :: last).filter (fun c => !isSeparator c) = ds) :
    parseMinorUnits u (front ++ sep :: last) =
      if ds ≠ [] ∧ ds.all isAsciiDigit = true then (int? u ds).elim (.error .valueError) fun n => .ok (n * 100)
      else .error .valueError := by
  rw [parseMinorUnits, if_neg (not_all_digits hsep)]
  simp only [fractional_eq hsep hlast, hds]
  rw [if_pos hlength]
  split
  · cases int? u ds <;> rfl
  · rfl

/-- A last separator before one or two digits is that of the decimals. -/
theorem parseMinorUnits_decimals (hlength : last.length = 1 ∨ last.length = 2)
    (hds : front.filter (fun c => !isSeparator c) = ds) (hne : ds ≠ []) {minor : Int}
    (hminor : int? u ((last ++ ['0']).take 2) = some minor) :
    parseMinorUnits u (front ++ sep :: last) =
      (int? u ds).elim (.error .valueError) fun n => .ok (n * 100 + minor) := by
  have hshort : ¬ (last.length ≠ 1 ∧ last.length ≠ 2) := by omega
  have htake : (front ++ sep :: last).take ((front ++ sep :: last).length - last.length) = front ++ [sep] := by
    have hfront : (front ++ sep :: last).length - last.length = (front ++ [sep]).length := by
      simp only [List.length_append, List.length_cons, List.length_nil]
      omega
    rw [hfront, show front ++ sep :: last = (front ++ [sep]) ++ last by simp, List.take_left]
  have hinteger : (front ++ [sep]).filter (fun c => !isSeparator c) = ds := by
    rw [List.filter_append, hds]
    simp [hsep]
  rw [parseMinorUnits, if_neg (not_all_digits hsep)]
  simp only [fractional_eq hsep hlast, htake, hinteger]
  rw [if_neg hshort, if_neg hne, hminor]
  cases int? u ds <;> rfl

end

theorem WrittenDecimals.int?_digits {decimals : WrittenDecimals} (h : decimals ≠ .none) :
    int? u ((decimals.digits ++ ['0']).take 2) = some (decimals.minorUnits : Int) := by
  have hdigits : ∀ c ∈ (decimals.digits ++ ['0']).take 2, isAsciiDigit c = true := by
    intro c hc
    rcases List.mem_append.mp (List.mem_of_mem_take hc) with hc | hc
    · exact isAsciiDigit_of_mem hc
    · rw [List.mem_singleton.mp hc]
      rfl
  rw [Text.int?_digits hdigits, natValue_digits hdigits]
  cases decimals with
  | none => exact absurd rfl h
  | one d =>
    have hvalue : ∀ d : Fin 10, Nat.ofDigitChars 10 [Nat.digitChar d, '0'] 0 = 10 * d := by decide
    exact congrArg (some ∘ Nat.cast) (hvalue d)
  | two m =>
    have hvalue : ∀ m : Fin 100, Nat.ofDigitChars 10 [Nat.digitChar (m / 10), Nat.digitChar (m % 10)] 0 = m := by
      decide
    exact congrArg (some ∘ Nat.cast) (hvalue m)

theorem WrittenDecimals.length_digits {decimals : WrittenDecimals} (h : decimals ≠ .none) :
    decimals.digits.length = 1 ∨ decimals.digits.length = 2 := by
  cases decimals with
  | none => exact absurd rfl h
  | one => exact .inl rfl
  | two => exact .inr rfl

/-- What an amount reads as, if its units are not too long for `int`. -/
theorem parseMinorUnits_renderAmount (style : MoneyStyle) (grouping : Bool) (n : Nat) (decimals : WrittenDecimals) :
    parseMinorUnits u (renderAmount style grouping n decimals) =
      if n < 10 ^ maxStrDigits then .ok ((100 * n + decimals.minorUnits : Nat) : Int) else .error .valueError := by
  have hdigits : ∀ c ∈ Nat.toDigits 10 n, isAsciiDigit c = true := fun c => isAsciiDigit_of_mem_toDigits
  rw [renderAmount]
  by_cases hnone : decimals = .none
  · rw [if_pos hnone, hnone]
    have hunits : parseMinorUnits u (renderUnits style grouping n) =
        (int? u (Nat.toDigits 10 n)).elim (.error .valueError) fun n => .ok (n * 100) := by
      rcases renderUnits_cases style grouping n with heq | ⟨front, last, heq, hlength, hlast⟩
      · rw [heq]
        exact parseMinorUnits_whole fun c hc => isSeparator_of_isAsciiDigit (hdigits c hc)
      · have hfilter := renderUnits_filter style grouping n
        rw [heq] at hfilter ⊢
        rw [parseMinorUnits_thousands (isSeparator_thousands style) hlast (by omega) hfilter]
        exact if_pos ⟨Nat.toDigits_ne_nil, List.all_eq_true.mpr hdigits⟩
    rw [hunits, int?_units]
    split
    · rw [Option.elim_some, WrittenDecimals.minorUnits]
      congr 1
      omega
    · rfl
  · have hlast (c : Char) (hc : c ∈ decimals.digits) : isSeparator c = false :=
      isSeparator_of_isAsciiDigit (WrittenDecimals.isAsciiDigit_of_mem hc)
    rw [if_neg hnone, parseMinorUnits_decimals (isSeparator_decimal style) hlast
      (WrittenDecimals.length_digits hnone) (renderUnits_filter style grouping n) Nat.toDigits_ne_nil
      (WrittenDecimals.int?_digits hnone), int?_units]
    split
    · rw [Option.elim_some]
      congr 1
      omega
    · rfl

end

/-! ### Reading the text -/

section
variable {front back : Chars}

/-- The units read from what is kept of a text. -/
def readUnits (u : Unicode) (digits : Chars) : Except PyError Int :=
  if digits = [] then .error .valueError else parseMinorUnits u digits

theorem parseMoney_of_split {env : Externals} {text rest : Chars} {currency : String}
    (hne : stripWhere isSpace text ≠ [])
    (hsplit : splitCurrency env.toUnicode (stripWhere isSpace text) = (currency, rest)) :
    parseMoney env (String.ofList text) = (readUnits env.toUnicode (rest.filter isKept)).map (Prod.mk currency) := by
  rw [parseMoney, readUnits]
  simp only [String.toList_ofList, if_neg hne, hsplit]
  change (if rest.filter isKept = [] then Except.error PyError.valueError else
    (parseMinorUnits env.toUnicode (rest.filter isKept)).bind fun units => .ok (currency, units)) = _
  split
  · rfl
  · cases parseMinorUnits env.toUnicode (rest.filter isKept) <;> rfl

section
variable {a b c : Char} (ha : isAsciiUpper a = true) (hb : isAsciiUpper b = true) (hc : isAsciiUpper c = true)
variable (hfront : ∀ x ∈ front, isAsciiUpper x = false) (hback : ∀ x ∈ back, isAsciiUpper x = false)
include ha hb hc hfront hback

/-- The only capital letters of a text are its currency code, if no word character touches
them; otherwise they are passed over. -/
theorem parseMoney_between (env : Externals) :
    parseMoney env (String.ofList (front ++ a :: b :: c :: back)) =
      (readUnits env.toUnicode ((front ++ back).filter isKept)).map (Prod.mk
        (if standsAlone env.toUnicode (front.dropWhile isSpace) (back.rdropWhile isSpace) then String.ofList [a, b, c]
          else assumedCurrency (front.dropWhile isSpace))) := by
  have hstrip : stripWhere isSpace (front ++ a :: b :: c :: back) =
      front.dropWhile isSpace ++ a :: b :: c :: back.rdropWhile isSpace := by
    have hlast : (front.dropWhile isSpace ++ [a, b] ++ c :: back).rdropWhile isSpace =
        front.dropWhile isSpace ++ [a, b] ++ c :: back.rdropWhile isSpace :=
      rdropWhile_append_cons (not_space_of_isAsciiUpper hc)
    simp only [List.append_assoc, List.cons_append, List.nil_append] at hlast
    rw [stripWhere, dropWhile_append_cons (not_space_of_isAsciiUpper ha), hlast]
  have hfront' : ∀ x ∈ front.dropWhile isSpace, isAsciiUpper x = false :=
    fun x hx => hfront x ((List.dropWhile_suffix _).subset hx)
  have hback' : ∀ x ∈ back.rdropWhile isSpace, isAsciiUpper x = false :=
    fun x hx => hback x ((List.rdropWhile_prefix _ _).subset hx)
  have hkept : ∀ c, isSpace c = true → isKept c = false := fun _ => isKept_of_isSpace
  have hfilter : (front.dropWhile isSpace ++ back.rdropWhile isSpace).filter isKept =
      (front ++ back).filter isKept := by
    rw [List.filter_append, filter_dropWhile hkept, filter_rdropWhile hkept, ← List.filter_append]
  have hfound := findCurrencyCode_between (u := env.toUnicode) ha hb hc hfront' hback'
  have hne : stripWhere isSpace (front ++ a :: b :: c :: back) ≠ [] := by rw [hstrip]; simp
  split at hfound
  · next halone =>
    rw [if_pos halone, ← hfilter]
    refine parseMoney_of_split hne ?_
    rw [hstrip, splitCurrency, hfound]
    exact congrArg (Prod.mk _) (removeAll_between ha hfront' hback')
  · next halone =>
    have hassumed : assumedCurrency (front.dropWhile isSpace ++ a :: b :: c :: back.rdropWhile isSpace) =
        assumedCurrency (front.dropWhile isSpace) := by
      cases front.dropWhile isSpace with
      | cons x s => rfl
      | nil =>
        rw [List.nil_append, assumedCurrency]
        split
        · next h => cases h; exact absurd ha (by decide)
        · next h => cases h; exact absurd ha (by decide)
        · rfl
    have hwhole : (front.dropWhile isSpace ++ a :: b :: c :: back.rdropWhile isSpace).filter isKept =
        (front ++ back).filter isKept := by
      rw [← hfilter, List.filter_append, List.filter_append]
      simp [isKept_of_isAsciiUpper ha, isKept_of_isAsciiUpper hb, isKept_of_isAsciiUpper hc]
    rw [if_neg halone, ← hwhole, ← hassumed]
    refine parseMoney_of_split hne ?_
    rw [hstrip, splitCurrency_none hfound]

end

end

theorem isCurrencyCode_iff {code : String} :
    isCurrencyCode code = true ↔ ∃ a b c, code = String.ofList [a, b, c] ∧ isAsciiUpper a = true ∧
      isAsciiUpper b = true ∧ isAsciiUpper c = true := by
  have hupper (s : Chars) : (s.all fun c => 'A' ≤ c && c ≤ 'Z') = s.all isAsciiUpper := rfl
  rw [isCurrencyCode, Bool.and_eq_true, decide_eq_true_iff, hupper]
  constructor
  · rintro ⟨hlength, hall⟩
    obtain ⟨a, b, c, hchars⟩ := List.length_eq_three.mp hlength
    simp only [hchars, List.all_cons, List.all_nil, Bool.and_eq_true, Bool.and_true] at hall
    exact ⟨a, b, c, by rw [← hchars, String.ofList_toList], hall⟩
  · rintro ⟨a, b, c, rfl, ha, hb, hc⟩
    rw [String.toList_ofList]
    exact ⟨rfl, by rw [List.all_cons, List.all_cons, List.all_cons, ha, hb, hc]; rfl⟩

section
variable {number : Chars} (hkept : ∀ c ∈ number, isKept c = true) (hne : number ≠ []) (env : Externals)
include hkept hne

/-- A number by itself is one of US dollars. -/
theorem parseMoney_bare :
    parseMoney env (String.ofList number) = (parseMinorUnits env.toUnicode number).map (Prod.mk "USD") := by
  have hstrip : stripWhere isSpace number = number := by
    refine stripWhere_eq_self ?_ ?_
    · exact fun c hc => not_space_of_isKept (hkept c (List.mem_of_head? hc))
    · exact fun c hc => not_space_of_isKept (hkept c (List.mem_of_getLast? hc))
  have hassumed : assumedCurrency number = "USD" := by
    rw [assumedCurrency]
    split
    · next h => exact absurd (hkept _ (List.mem_of_head? h)) (by decide)
    · next h => exact absurd (hkept _ (List.mem_of_head? h)) (by decide)
    · rfl
  have hnone : findCurrencyCode env.toUnicode none number = none :=
    findCurrencyCode_eq_none fun c hc => not_upper_of_isKept (hkept c hc)
  have hsplit : splitCurrency env.toUnicode (stripWhere isSpace number) = ("USD", number) := by
    rw [hstrip, splitCurrency_none hnone, hassumed]
  rw [parseMoney_of_split (by rwa [hstrip]) hsplit, List.filter_eq_self.mpr hkept, readUnits, if_neg hne]

variable {code : String} (hcode : isCurrencyCode code = true)
include hcode

theorem parseMoney_codeFirst :
    parseMoney env (String.ofList (code.toList ++ ' ' :: number)) =
      (parseMinorUnits env.toUnicode number).map (Prod.mk code) := by
  obtain ⟨a, b, c, rfl, ha, hb, hc⟩ := isCurrencyCode_iff.mp hcode
  have hupper : ∀ x ∈ ' ' :: number, isAsciiUpper x = false :=
    List.forall_mem_cons.mpr ⟨by decide, fun x hx => not_upper_of_isKept (hkept x hx)⟩
  have hread := parseMoney_between ha hb hc (fun x (hx : x ∈ []) => absurd hx List.not_mem_nil) hupper env
  have hself : (' ' :: number).rdropWhile isSpace = ' ' :: number := by
    rw [List.rdropWhile_eq_self_iff]
    intro hl
    rw [List.getLast_cons hne, not_space_of_isKept (hkept _ (List.getLast_mem hne))]
    exact Bool.false_ne_true
  have halone : standsAlone env.toUnicode [] (' ' :: number) = true := by simp [standsAlone, isWord_space]
  rw [List.dropWhile_nil, hself, if_pos halone, List.nil_append, List.nil_append, List.filter_cons_of_neg (by decide),
    List.filter_eq_self.mpr hkept, readUnits, if_neg hne] at hread
  rw [String.toList_ofList]
  exact hread

theorem parseMoney_codeLast :
    parseMoney env (String.ofList (number ++ ' ' :: code.toList)) =
      (parseMinorUnits env.toUnicode number).map (Prod.mk code) := by
  obtain ⟨a, b, c, rfl, ha, hb, hc⟩ := isCurrencyCode_iff.mp hcode
  have hupper : ∀ x ∈ number ++ [' '], isAsciiUpper x = false :=
    List.forall_mem_append.mpr ⟨fun x hx => not_upper_of_isKept (hkept x hx), List.forall_mem_singleton.mpr (by decide)⟩
  have hread := parseMoney_between ha hb hc hupper (fun x (hx : x ∈ []) => absurd hx List.not_mem_nil) env
  have hself : (number ++ [' ']).dropWhile isSpace = number ++ [' '] := by
    obtain ⟨x, rest, rfl⟩ := List.exists_cons_of_ne_nil hne
    refine List.dropWhile_cons_of_neg ?_
    rw [not_space_of_isKept (hkept x List.mem_cons_self)]
    exact Bool.false_ne_true
  have halone : standsAlone env.toUnicode (number ++ [' ']) [] = true := by simp [standsAlone, isWord_space]
  rw [List.rdropWhile_nil, hself, if_pos halone, List.append_nil, List.filter_append, List.filter_eq_self.mpr hkept,
    List.filter_cons_of_neg (by decide), List.filter_nil, List.append_nil, readUnits, if_neg hne,
    List.append_assoc] at hread
  rw [String.toList_ofList]
  exact hread

end

theorem parseMoney_written (env : Externals) (style : MoneyStyle) (grouping codeFirst : Bool) {code : String}
    (hcode : isCurrencyCode code = true) (n : Nat) (decimals : WrittenDecimals) :
    parseMoney env (renderMoney style grouping codeFirst code n decimals) =
      (parseMinorUnits env.toUnicode (renderAmount style grouping n decimals)).map (Prod.mk code) := by
  have hkept : ∀ c ∈ renderAmount style grouping n decimals, isKept c = true :=
    fun _ hc => isKept_of_isAmountChar (isAmountChar_of_mem_renderAmount hc)
  have hne := renderAmount_ne_nil style grouping n decimals
  cases codeFirst with
  | true => exact parseMoney_codeFirst hkept hne env hcode
  | false => exact parseMoney_codeLast hkept hne env hcode

/-- **An amount is read as it was written**, in both styles, grouped or not, with its code
before or after it: as long as its units have at most 4300 digits; beyond, reading fails. -/
theorem parseMoney_renderMoney (env : Externals) (style : MoneyStyle) (grouping codeFirst : Bool) {code : String}
    (hcode : isCurrencyCode code = true) (n : Nat) (decimals : WrittenDecimals) :
    parseMoney env (renderMoney style grouping codeFirst code n decimals) =
      if n < 10 ^ maxStrDigits then .ok (code, ((100 * n + decimals.minorUnits : Nat) : Int))
      else .error .valueError := by
  rw [parseMoney_written env style grouping codeFirst hcode, parseMinorUnits_renderAmount]
  split <;> rfl

theorem parseMoney_renderMoney_witness :
    parseMoney (Externals.ofTables [] [] [] []) (renderMoney .european true true "EUR" 1024350 (.two 75)) =
      .ok ("EUR", ((100 * 1024350 + 75 : Nat) : Int)) := by
  have hshort : 1024350 < 10 ^ maxStrDigits := calc
    1024350 < 10 ^ 7 := by decide
    _ ≤ 10 ^ maxStrDigits := Nat.pow_le_pow_right (by decide) (by decide)
  have hread := parseMoney_renderMoney (Externals.ofTables [] [] [] []) .european true true
    (show isCurrencyCode "EUR" = true by decide) 1024350 (.two 75)
  rw [if_pos hshort] at hread
  exact hread

/-- A number of 4301 digits is more than `int` converts. -/
theorem parseMoney_too_long :
    parseMoney (Externals.ofTables [] [] [] []) (renderMoney .us false true "USD" (10 ^ maxStrDigits) .none) =
      .error .valueError := by
  rw [parseMoney_written _ _ _ _ (by decide), parseMinorUnits_renderAmount, if_neg (Nat.lt_irrefl _)]
  rfl

end WebhookIngestion
