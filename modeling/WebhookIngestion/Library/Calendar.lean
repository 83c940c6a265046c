import Mathlib.Order.Basic

/-! # The Gregorian calendar

Dates of the proleptic Gregorian calendar and the number of a day, counted from the first
of January of year 1. -/
namespace Calendar

def isLeap (year : Nat) : Bool := year % 4 = 0 ∧ (year % 100 ≠ 0 ∨ year % 400 = 0)

/-- The days of a month, 1 to 12; month 0 has none. -/
def daysInMonth (leap : Bool) : Nat → Nat
  | 0 => 0
  | 2 => if leap then 29 else 28
  | 4 | 6 | 9 | 11 => 30
  | _ => 31

def daysBeforeMonth (leap : Bool) : Nat → Nat
  | 0 => 0
  | month + 1 => daysBeforeMonth leap month + daysInMonth leap month

def daysBeforeYear (year : Nat) : Nat :=
  let years := year - 1
  365 * years + years / 4 - years / 100 + years / 400

/-- A day of the calendar. -/
structure Date where
  year : Nat
  month : Nat
  day : Nat
  year_pos : 1 ≤ year
  month_range : 1 ≤ month ∧ month ≤ 12
  day_range : 1 ≤ day ∧ day ≤ daysInMonth (isLeap year) month

/-- The first of January of year 1 has the number 1. -/
def Date.ordinal (date : Date) : Nat :=
  daysBeforeYear date.year + daysBeforeMonth (isLeap date.year) date.month + date.day

theorem length_of_month (leap : Bool) {month : Nat} (h : 1 ≤ month) : 28 ≤ daysInMonth leap month := by
  unfold daysInMonth
  split <;> first | omega | (split <;> omega)

theorem daysInMonth_le (leap : Bool) (month : Nat) : daysInMonth leap month ≤ 31 := by
  unfold daysInMonth
  split <;> first | omega | (split <;> omega)

theorem daysBeforeMonth_lt (leap : Bool) {month later : Nat} (h : month < later) :
    daysBeforeMonth leap month + daysInMonth leap month ≤ daysBeforeMonth leap later := by
  induction later with
  | zero => cases h
  | succ later ih =>
    rw [daysBeforeMonth]
    rcases Nat.lt_succ_iff_lt_or_eq.mp h with hlt | rfl
    · exact Nat.le_add_right_of_le (ih hlt)
    · exact Nat.le_refl _

/-- A later month of the year has later days. -/
theorem Date.ordinal_lt (date later : Date) (hyear : date.year = later.year) (hmonth : date.month < later.month) :
    date.ordinal < later.ordinal := by
  have hlast := daysBeforeMonth_lt (isLeap date.year) hmonth
  have hday := date.day_range
  have hlater := later.day_range
  rw [ordinal, ordinal, ← hyear]
  omega

/-- Day and month the other way round. -/
def Date.swap (date : Date) (h : date.day ≤ 12) : Date where
  year := date.year
  month := date.day
  day := date.month
  year_pos := date.year_pos
  month_range := ⟨date.day_range.1, h⟩
  day_range := ⟨date.month_range.1, by
    have hlength := length_of_month (isLeap date.year) date.day_range.1
    have hmonth := date.month_range
    omega⟩

/-- Only a date of two equal numbers is the same day the other way round. -/
theorem Date.ordinal_swap {date : Date} (h : date.day ≤ 12) :
    (date.swap h).ordinal = date.ordinal ↔ date.day = date.month := by
  constructor
  · intro heq
    rcases Nat.lt_trichotomy date.day date.month with hlt | hsame | hgt
    · exact absurd heq (Nat.ne_of_lt (ordinal_lt (date.swap h) date rfl hlt))
    · exact hsame
    · exact absurd heq.symm (Nat.ne_of_lt (ordinal_lt date (date.swap h) rfl hgt))
  · intro hsame
    rw [ordinal, ordinal]
    simp only [swap, hsame]

example : (⟨2026, 4, 28, by decide, by decide, by decide⟩ : Date).ordinal = 739734 := by decide

end Calendar
