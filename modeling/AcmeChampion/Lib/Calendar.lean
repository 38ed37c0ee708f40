import Mathlib.Order.Monotone.Basic
import Mathlib.Tactic.SplitIfs
import Mathlib.Data.Int.Notation

/-!
# The Gregorian calendar

Dates and times of the proleptic Gregorian calendar, with what makes them valid as fields.  Days are
numbered from 1970-01-01 on; a day number belongs to one date at most (`Date.dayNumber_inj`), and a
number of seconds to one time (`DateTime.seconds_inj`).  Years that begin on 1 March have their leap
day last, so their days are counted by the cycles of the calendar alone (`daysBeforeYear_march`).
-/

namespace Calendar

def IsLeap (y : ℤ) : Prop := y % 4 = 0 ∧ (y % 100 ≠ 0 ∨ y % 400 = 0)

instance (y : ℤ) : Decidable (IsLeap y) := inferInstanceAs (Decidable (_ ∧ _))

/-- Months are numbered from 1. -/
def daysInMonth (y : ℤ) : ℕ → ℕ
  | 2 => if IsLeap y then 29 else 28
  | 4 | 6 | 9 | 11 => 30
  | _ => 31

/-- The days of the first `m` months. -/
def daysThrough (y : ℤ) : ℕ → ℕ
  | 0 => 0
  | m + 1 => daysThrough y m + daysInMonth y (m + 1)

/-- The days from 1970-01-01 to the first day of the year. -/
def daysBeforeYear (y : ℤ) : ℤ :=
  365 * (y - 1970) + ((y - 1) / 4 - 492) - ((y - 1) / 100 - 19) + ((y - 1) / 400 - 4)

structure Date where
  year : ℤ
  month : ℕ
  day : ℕ
  one_le_month : 1 ≤ month
  month_le : month ≤ 12
  one_le_day : 1 ≤ day
  day_le : day ≤ daysInMonth year month

/-- The days from 1970-01-01 to the date. -/
def Date.dayNumber (d : Date) : ℤ :=
  daysBeforeYear d.year + daysThrough d.year (d.month - 1) + (d.day - 1)

structure DateTime where
  date : Date
  hour : ℕ
  minute : ℕ
  second : ℕ
  hour_lt : hour < 24
  minute_lt : minute < 60
  second_lt : second < 60

/-- The seconds from 1970-01-01T00:00:00 to the time. -/
def DateTime.seconds (t : DateTime) : ℤ :=
  24 * 60 * 60 * t.date.dayNumber + 60 * 60 * t.hour + 60 * t.minute + t.second

/-! ## Counting days -/

theorem one_le_daysInMonth (y : ℤ) (m : ℕ) : 1 ≤ daysInMonth y m := by
  unfold daysInMonth
  split
  · split_ifs <;> omega
  · omega
  · omega
  · omega
  · omega
  · omega

theorem daysInMonth_le (y : ℤ) (m : ℕ) : daysInMonth y m ≤ 31 := by
  unfold daysInMonth
  split
  · split_ifs <;> omega
  · omega
  · omega
  · omega
  · omega
  · omega

theorem daysThrough_strictMono (y : ℤ) : StrictMono (daysThrough y) :=
  strictMono_nat_of_lt_succ fun m => Nat.lt_add_of_pos_right (one_le_daysInMonth y (m + 1))

theorem daysThrough_twelve (y : ℤ) : daysThrough y 12 = if IsLeap y then 366 else 365 := by
  simp only [daysThrough, daysInMonth]
  split_ifs <;> rfl

theorem daysBeforeYear_succ (y : ℤ) :
    daysBeforeYear (y + 1) = daysBeforeYear y + daysThrough y 12 := by
  rw [daysThrough_twelve]
  by_cases h : IsLeap y
  · rw [if_pos h]
    unfold IsLeap at h
    unfold daysBeforeYear
    omega
  · rw [if_neg h]
    unfold IsLeap at h
    unfold daysBeforeYear
    omega

theorem daysBeforeYear_mono {y z : ℤ} (h : y ≤ z) : daysBeforeYear y ≤ daysBeforeYear z := by
  have hmono : Monotone daysBeforeYear := by
    refine monotone_int_of_le_succ fun y => ?_
    rw [daysBeforeYear_succ, daysThrough_twelve]
    split_ifs <;> omega
  exact hmono h

/-- The days from 1970-01-01 to the first of March. -/
theorem daysBeforeYear_march (y : ℤ) : daysBeforeYear y + daysThrough y 2 =
    11017 + 365 * (y - 2000) + (y - 2000) / 4 - (y - 2000) / 100 + (y - 2000) / 400 := by
  by_cases h : IsLeap y
  · simp only [daysThrough, daysInMonth, h, if_true]
    unfold IsLeap at h
    unfold daysBeforeYear
    omega
  · simp only [daysThrough, daysInMonth, h, if_false]
    unfold IsLeap at h
    unfold daysBeforeYear
    omega

/-! ## One date for a day -/

theorem Date.dayNumber_bounds (d : Date) :
    daysBeforeYear d.year + daysThrough d.year (d.month - 1) ≤ d.dayNumber ∧
      d.dayNumber < daysBeforeYear d.year + daysThrough d.year d.month := by
  obtain ⟨m, hm⟩ := Nat.exists_eq_add_of_le' d.one_le_month
  have hthrough : daysThrough d.year d.month
      = daysThrough d.year (d.month - 1) + daysInMonth d.year d.month := by
    rw [hm]
    rfl
  have h1 := d.one_le_day
  have h2 := d.day_le
  unfold dayNumber
  omega

theorem Date.year_le {d e : Date} (h : d.dayNumber ≤ e.dayNumber) : d.year ≤ e.year := by
  by_contra hlt
  have hyear := daysBeforeYear_mono (show e.year + 1 ≤ d.year by omega)
  have hmonth := (daysThrough_strictMono e.year).monotone e.month_le
  have hd := d.dayNumber_bounds.1
  have he := e.dayNumber_bounds.2
  rw [daysBeforeYear_succ] at hyear
  omega

theorem Date.month_le_of_year {d e : Date} (hyear : d.year = e.year)
    (h : d.dayNumber ≤ e.dayNumber) : d.month ≤ e.month := by
  by_contra hlt
  have hmonth := (daysThrough_strictMono e.year).monotone (show e.month ≤ d.month - 1 by omega)
  have hd := d.dayNumber_bounds.1
  have he := e.dayNumber_bounds.2
  rw [hyear] at hd
  omega

theorem Date.dayNumber_inj {d e : Date} (h : d.dayNumber = e.dayNumber) : d = e := by
  have hyear := Int.le_antisymm (Date.year_le h.le) (Date.year_le h.ge)
  have hmonth := Nat.le_antisymm (Date.month_le_of_year hyear h.le)
    (Date.month_le_of_year hyear.symm h.ge)
  have hd := d.one_le_day
  have he := e.one_le_day
  have hday : d.day = e.day := by
    unfold dayNumber at h
    rw [hyear, hmonth] at h
    omega
  obtain ⟨y, m, k, _, _, _, _⟩ := d
  obtain ⟨y', m', k', _, _, _, _⟩ := e
  obtain rfl : y = y' := hyear
  obtain rfl : m = m' := hmonth
  obtain rfl : k = k' := hday
  rfl

theorem DateTime.seconds_inj {t u : DateTime} (h : t.seconds = u.seconds) : t = u := by
  obtain ⟨d, h1, m1, s1, _, _, _⟩ := t
  obtain ⟨e, h2, m2, s2, _, _, _⟩ := u
  simp only [seconds] at h
  obtain rfl : d = e := Date.dayNumber_inj (by omega)
  obtain rfl : h1 = h2 := by omega
  obtain rfl : m1 = m2 := by omega
  obtain rfl : s1 = s2 := by omega
  rfl

end Calendar
