import WebhookIngestion.Text
import Mathlib.Algebra.Group.Nat.Defs

/-! # Decimal numerals

What Python reads from a run of digits, and that it reads a printed number back, as long
as the number has no more digits than Python converts. -/
namespace WebhookIngestion
namespace Text
variable {u : Unicode}

/-! ### Digits -/

theorem isAsciiDigit_iff {c : Char} : isAsciiDigit c = true ↔ 48 ≤ c.toNat ∧ c.toNat ≤ 57 := by
  rw [isAsciiDigit, Bool.and_eq_true, decide_eq_true_iff, decide_eq_true_iff]
  exact Iff.rfl

theorem isSpace_of_isAsciiDigit {c : Char} (h : isAsciiDigit c = true) : isSpace c = false := by
  have hrange := isAsciiDigit_iff.mp h
  simp only [isSpace, Bool.or_eq_false_iff, Bool.and_eq_false_iff, decide_eq_false_iff_not]
  omega

theorem digitValue_of_isAsciiDigit {c : Char} (h : isAsciiDigit c = true) :
    digitValue u c = some (c.toNat - '0'.toNat) := by
  have hascii : isAscii c = true := by
    have hrange := isAsciiDigit_iff.mp h
    rw [isAscii, decide_eq_true_iff]
    omega
  rw [digitValue, if_pos hascii, if_pos h]

/-- Outside the digits, no ASCII character has a value. -/
theorem digitValue_eq_none {c : Char} (hascii : isAscii c = true) (h : isAsciiDigit c = false) :
    digitValue u c = none := by
  rw [digitValue, if_pos hascii, if_neg (by rw [h]; exact Bool.false_ne_true)]

theorem isAsciiDigit_of_mem_toDigits {n : Nat} {c : Char} (h : c ∈ Nat.toDigits 10 n) :
    isAsciiDigit c = true :=
  Nat.isDigit_of_mem_toDigits (by decide) (by decide) h

/-! ### Runs of digits -/

section
variable {ds : Chars} (hds : ∀ c ∈ ds, isAsciiDigit c = true)
include hds

theorem mapM_digitValue : ds.mapM (digitValue u) = some (ds.map fun c => c.toNat - '0'.toNat) := by
  induction ds with
  | nil => rfl
  | cons c ds ih =>
    rw [List.mapM_cons, digitValue_of_isAsciiDigit (hds c List.mem_cons_self),
      ih fun c hc => hds c (List.mem_cons_of_mem _ hc)]
    rfl

/-- A run of digits reads as a number if there are some, and not too many. -/
theorem natValue_digits :
    natValue u ds = if ds = [] ∨ 4300 < ds.length then none else some (Nat.ofDigitChars 10 ds 0) := by
  have hfold : (ds.map fun c => c.toNat - '0'.toNat).foldl (fun n d => 10 * n + d) 0 =
      Nat.ofDigitChars 10 ds 0 := by
    rw [Nat.ofDigitChars_eq_foldl, List.foldl_map]
  simp only [natValue, mapM_digitValue hds, Option.bind_eq_bind, Option.bind_some, hfold, List.length_map,
    List.map_eq_nil_iff]

theorem stripWhere_digits : stripWhere isSpace ds = ds :=
  stripWhere_eq_self (fun c hc => isSpace_of_isAsciiDigit (hds c (List.mem_of_head? hc)))
    fun c hc => isSpace_of_isAsciiDigit (hds c (List.mem_of_getLast? hc))

theorem ne_of_isAsciiDigit {c : Char} (hc : isAsciiDigit c = false) : c ∉ ds := by
  intro hmem
  rw [hds c hmem] at hc
  cases hc

end

theorem splitChar_eq_singleton {sep : Char} : ∀ {s : Chars}, sep ∉ s → splitChar sep s = [s]
  | [], _ => rfl
  | c :: s, h => by
      rw [List.mem_cons, not_or] at h
      rw [splitChar, if_neg (Ne.symm h.1), splitChar_eq_singleton h.2]

/-- `int(s)` of a run of digits. -/
theorem int?_digits {ds : Chars} (hds : ∀ c ∈ ds, isAsciiDigit c = true) :
    int? u ds = (natValue u ds).map (Nat.cast : Nat → Int) := by
  cases ds with
  | nil => rfl
  | cons d ds =>
    have hminus : d ≠ '-' := fun hd => ne_of_isAsciiDigit hds (c := '-') (by decide) (hd ▸ List.mem_cons_self)
    have hplus : d ≠ '+' := fun hd => ne_of_isAsciiDigit hds (c := '+') (by decide) (hd ▸ List.mem_cons_self)
    have hunderscore : '_' ∉ d :: ds := ne_of_isAsciiDigit hds (by decide)
    have hfilter : (d :: ds).filter (· ≠ '_') = d :: ds :=
      List.filter_eq_self.mpr fun c hc => by
        rw [decide_eq_true_iff]
        rintro rfl
        exact hunderscore hc
    rw [int?, stripWhere_digits hds]
    split
    · next h => exact absurd (List.cons.inj h).1 hminus
    · next h => exact absurd (List.cons.inj h).1 hplus
    · rw [splitChar_eq_singleton hunderscore, hfilter]
      cases natValue u (d :: ds) <;> simp [hminus]

/-- A printed number reads back. -/
theorem int?_toDigits {n : Nat} (h : (Nat.toDigits 10 n).length ≤ 4300) :
    int? u (Nat.toDigits 10 n) = some (n : Int) := by
  rw [int?_digits fun c => isAsciiDigit_of_mem_toDigits, natValue_digits fun c => isAsciiDigit_of_mem_toDigits,
    if_neg (by simp [Nat.toDigits_ne_nil, h]), Nat.ofDigitChars_ten_toDigits]
  rfl

/-- A run of more digits than Python converts reads as nothing. -/
theorem length_le_of_int? {n : Nat} {i : Int} (h : int? u (Nat.toDigits 10 n) = some i) :
    (Nat.toDigits 10 n).length ≤ 4300 := by
  rw [int?_digits fun c => isAsciiDigit_of_mem_toDigits,
    natValue_digits fun c => isAsciiDigit_of_mem_toDigits] at h
  by_contra hlen
  rw [if_pos (.inr (Nat.lt_of_not_le hlen))] at h
  cases h

theorem mem_stripWhere {p : Char → Bool} {c : Char} {s : Chars} (hc : p c = false) (h : c ∈ s) :
    c ∈ stripWhere p s := by
  have hdrop : c ∈ s.dropWhile p := by
    rw [← List.takeWhile_append_dropWhile (p := p) (l := s), List.mem_append] at h
    refine h.resolve_left fun htake => ?_
    rw [List.mem_takeWhile_imp htake] at hc
    cases hc
  rw [stripWhere, List.rdropWhile, List.mem_reverse]
  have hrev := List.mem_reverse.mpr hdrop
  rw [← List.takeWhile_append_dropWhile (p := p) (l := (s.dropWhile p).reverse), List.mem_append] at hrev
  refine hrev.resolve_left fun htake => ?_
  rw [List.mem_takeWhile_imp htake] at hc
  cases hc

theorem mapM_eq_none_of_mem {α β : Type} {f : α → Option β} {a : α} (ha : f a = none) :
    ∀ {l : List α}, a ∈ l → l.mapM f = none
  | b :: l, h => by
      rw [List.mapM_cons]
      rcases List.mem_cons.mp h with rfl | h
      · rw [ha]
        rfl
      · rw [mapM_eq_none_of_mem ha h]
        cases f b <;> rfl

/-- A character that is no part of a numeral does not occur in one. -/
theorem notMem_of_int? {c : Char} {s : Chars} {i : Int} (h : int? u s = some i)
    (hvalue : digitValue u c = none) (hspace : isSpace c = false)
    (hsign : c ≠ '-' ∧ c ≠ '+' ∧ c ≠ '_') : c ∉ s := by
  intro hmem
  have hstrip := mem_stripWhere hspace hmem
  have hnone {t : Chars} (ht : c ∈ t) : natValue u (t.filter (· ≠ '_')) = none := by
    have hfilter : c ∈ t.filter (· ≠ '_') := List.mem_filter.mpr ⟨ht, by simpa using hsign.2.2⟩
    rw [natValue, mapM_eq_none_of_mem hvalue hfilter]
    rfl
  rw [int?] at h
  split at h
  · next rest hrest =>
    have ht := (List.mem_cons.mp (hrest ▸ hstrip)).resolve_left hsign.1
    rw [hnone ht] at h
    split at h <;> cases h
  · next rest hrest =>
    have ht := (List.mem_cons.mp (hrest ▸ hstrip)).resolve_left hsign.2.1
    rw [hnone ht] at h
    split at h <;> cases h
  · rw [hnone hstrip] at h
    split at h <;> cases h

end Text
end WebhookIngestion
