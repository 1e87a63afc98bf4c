import Mathlib.Data.Int.Notation
import Mathlib.Data.Nat.Notation
import VoceChat.Foundations.SignedDecimal

/-!
# Dates

Dates of the Gregorian calendar, also before it was in use, in the years that `chrono` knows, and
their numbers. A date is written in three parts, as the names of three directories are; what was
written is read back (`ofParts_parts`).
-/

namespace Calendar

def isLeapYear (year : ℤ) : Bool := year % 4 = 0 ∧ year % 100 ≠ 0 ∨ year % 400 = 0

def daysInMonth (year : ℤ) (month : ℕ) : ℕ :=
  if month = 2 then if isLeapYear year then 29 else 28
  else if month = 4 ∨ month = 6 ∨ month = 9 ∨ month = 11 then 30
  else 31

/-- `NaiveDate::from_ymd_opt` has a date. -/
def Valid (year : ℤ) (month day : ℕ) : Prop :=
  -262144 ≤ year ∧ year ≤ 262143 ∧ 1 ≤ month ∧ month ≤ 12 ∧ 1 ≤ day ∧ day ≤ daysInMonth year month

instance (year : ℤ) (month day : ℕ) : Decidable (Valid year month day) :=
  inferInstanceAs (Decidable (_ ∧ _))

/-- `NaiveDate`. -/
structure Date where
  year : ℤ
  month : ℕ
  day : ℕ
  valid : Valid year month day
  deriving DecidableEq

/-- `NaiveDate::from_ymd_opt`. -/
def ofYmd (year : ℤ) (month day : ℕ) : Option Date :=
  if h : Valid year month day then some ⟨year, month, day, h⟩ else none

/-- The days of a year before a month. -/
def daysBeforeMonth (year : ℤ) : ℕ → ℕ
  | 0 | 1 => 0
  | month + 2 => daysBeforeMonth year (month + 1) + daysInMonth year (month + 1)

/-- The number of a day, which is 1 on the first of January of the year 1. -/
def Date.dayNumber (d : Date) : ℤ :=
  365 * (d.year - 1) + (d.year - 1) / 4 - (d.year - 1) / 100 + (d.year - 1) / 400 +
    daysBeforeMonth d.year d.month + d.day

example : (ofYmd 1970 1 1).map Date.dayNumber = some 719163 := by decide

example : ofYmd 2023 2 29 = none := by decide

/-- The year, the month and the day, written out. -/
def Date.parts (d : Date) : List String :=
  [Decimal.signed d.year, Decimal.decimal d.month, Decimal.decimal d.day]

/-- The date that is written in three parts, an `i32` and two `u32`. -/
def ofParts : List String → Option Date
  | [year, month, day] => do
    ofYmd (← Decimal.parseSigned (2 ^ 31) year) (← Decimal.parseUnsigned (2 ^ 32) month)
      (← Decimal.parseUnsigned (2 ^ 32) day)
  | _ => none

theorem daysInMonth_le (year : ℤ) (month : ℕ) : daysInMonth year month ≤ 31 := by
  rw [daysInMonth]
  split
  · split <;> decide
  · split <;> decide

/-- **What was written is read back.** -/
theorem ofParts_parts (d : Date) : ofParts d.parts = some d := by
  obtain ⟨hyear, hyear', hmonth, hmonth', hday, hday'⟩ := d.valid
  have hdays := daysInMonth_le d.year d.month
  rw [Date.parts, ofParts, Decimal.parseSigned_signed (by omega) (by omega),
    Decimal.parseUnsigned_decimal (by omega), Decimal.parseUnsigned_decimal (by omega)]
  exact dif_pos d.valid

end Calendar
