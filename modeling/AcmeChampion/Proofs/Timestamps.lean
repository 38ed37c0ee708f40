import AcmeChampion.Lib.Calendar
import AcmeChampion.Time
import Mathlib.Tactic.IntervalCases

/-!
# The date of a clock reading

`Time.from` returns the date and time of the reading in the Gregorian calendar, with the months
numbered from 0 (`from_spec`).  `Time.fmt` writes the month as it is, so no text is that of the date
(`not_showsDate`).
-/

namespace AcmeChampion

open Calendar Lines MachineInt

/-! ## The parts of the conversion -/

theorem sinceEpoch_ok {now : SystemTime} (h : now.nanos.natAbs / 1000000000 < 2 ^ 62) :
    ∃ nanos, sinceEpoch now = .ok (now.nanos / 1000000000, nanos) ∧
      (nanos.toNat : ℤ) = now.nanos % 1000000000 := by
  unfold sinceEpoch SystemTime.durationSince unixEpoch Duration.fromNanos
  by_cases hpos : 0 ≤ now.nanos
  · rw [if_pos hpos]
    simp only [Int.sub_zero]
    rw [i64_ok (by omega) (by omega), ok_bind]
    refine ⟨_, congrArg (fun t => Except.ok (t, _)) (by omega), ?_⟩
    rw [UInt32.toNat_ofNat']
    omega
  · rw [if_neg hpos]
    simp only [Int.zero_sub]
    rw [i64_ok (by omega) (by omega), ok_bind, i64_ok (by omega) (by omega), ok_bind]
    have hnanos : (UInt32.ofNat ((-now.nanos).toNat % 1000000000)).toNat
        = (-now.nanos).toNat % 1000000000 := by
      rw [UInt32.toNat_ofNat']
      omega
    split_ifs with hsub
    · rw [gt_iff_lt, UInt32.lt_iff_toNat_lt, hnanos] at hsub
      have hsub : 0 < (-now.nanos).toNat % 1000000000 := hsub
      obtain ⟨v, hv, heq⟩ := @u32_ok (1000000000 - ((-now.nanos).toNat % 1000000000 : ℕ))
        (by omega) (by omega)
      rw [i64_ok (by omega) (by omega), ok_bind, hnanos, hv, ok_bind]
      refine ⟨v, congrArg (fun t => Except.ok (t, v)) (by omega), by omega⟩
    · rw [gt_iff_lt, UInt32.lt_iff_toNat_lt, hnanos] at hsub
      have hsub : ¬ 0 < (-now.nanos).toNat % 1000000000 := hsub
      refine ⟨0, congrArg (fun t => Except.ok (t, 0)) (by omega), ?_⟩
      have hzero : (0 : UInt32).toNat = 0 := rfl
      rw [hzero]
      omega

/-- The days since 1 March 2000 make so many years and days; the 366th of a year is a leap day. -/
structure Marches (days years remdays : ℤ) : Prop where
  days_eq : days = 365 * years + years / 4 - years / 100 + years / 400 + remdays
  nonneg : 0 ≤ remdays
  le_365 : remdays ≤ 365
  leap : remdays = 365 → IsLeap (2001 + years)

theorem marchYear_ok {days : ℤ} (hlo : -2 ^ 62 < days) (hhi : days < 2 ^ 62) :
    ∃ years remdays, marchYear days = .ok (years, remdays) ∧ Marches days years remdays := by
  have hdays := Int.mul_ediv_add_emod days daysPer400Y
  unfold marchYear
  rw [floorDiv_eq (by decide) (by decide) (by omega) (by omega), ok_bind]
  unfold daysPer400Y at hdays ⊢
  obtain ⟨c, rem1, hc, hrem1, hc0, hc4, h1, hc'⟩ :=
    @clampedDiv_ok (days % (365 * 400 + 97)) daysPer100Y 4 (by decide) (by omega) (by omega)
      (by decide) (by unfold daysPer100Y; omega)
  unfold daysPer100Y at hrem1 hc'
  obtain ⟨q, rem2, hq, hrem2, hq0, hq25, h2, hq'⟩ := @clampedDiv_ok rem1 daysPer4Y 25 (by decide)
    (by omega) (by omega) (by decide) (by unfold daysPer4Y; omega)
  unfold daysPer4Y at hrem2 hq'
  obtain ⟨y, rem3, hy, hrem3, hy0, hy4, h3, hy'⟩ := @clampedDiv_ok rem2 365 4 (by decide)
    (by omega) (by omega) (by decide) (by omega)
  simp only [hc, hq, hy, ok_bind]
  rw [i64_ok (by omega) (by omega), ok_bind, i64_ok (by omega) (by omega), ok_bind,
    i64_ok (by omega) (by omega), ok_bind, i64_ok (by omega) (by omega), ok_bind,
    i64_ok (by omega) (by omega), ok_bind, i64_ok (by omega) (by omega), ok_bind]
  refine ⟨_, _, rfl, by omega, h3, by omega, fun hlast => ?_⟩
  unfold IsLeap
  omega

/-- The loop stops at the month that the days end in, before the months run out. -/
theorem monthLoop_ok : ∀ (lengths : List ℤ) (k : ℕ) (months remdays : ℤ),
    (∀ n ∈ lengths, 0 ≤ n) → k + lengths.length ≤ 128 → 0 ≤ remdays → remdays < 2 ^ 62 →
      remdays < lengths.sum →
        ∃ (j : ℕ) (n d : ℤ), monthLoop (lengths.zipIdx k) months remdays = .ok ((k + j : ℕ), d) ∧
          lengths[j]? = some n ∧ 0 ≤ d ∧ d < n ∧ remdays = (lengths.take j).sum + d
  | [], k, months, remdays, _, _, hlo, _, hsum => by
    rw [List.sum_nil] at hsum
    omega
  | n :: lengths, k, months, remdays, hn, hk, hlo, hhi, hsum => by
    rw [List.length_cons] at hk
    rw [List.sum_cons] at hsum
    have hn0 := hn n (by simp)
    rw [List.zipIdx_cons, monthLoop, i8_ok (by omega) (by omega), ok_bind]
    split_ifs with hstop
    · exact ⟨0, n, remdays, rfl, rfl, hlo, hstop, by simp⟩
    · rw [i64_ok (by omega) (by omega), ok_bind]
      obtain ⟨j, n', d, hloop, hj, hd, hdn, heq⟩ := monthLoop_ok lengths (k + 1) k (remdays - n)
        (fun n' hn' => hn n' (by simp [hn'])) (by omega) (by omega) (by omega) (by omega)
      refine ⟨j + 1, n', d, ?_, hj, hd, hdn, ?_⟩
      · rw [hloop, Nat.add_right_comm, Nat.add_assoc]
      · rw [List.take_succ_cons, List.sum_cons]
        omega

/-! ## The date -/

theorem daysInMonth_march (y : ℤ) {j : ℕ} {n : ℤ} (hj : daysInMonth[j]? = some n) (h10 : j < 10) :
    n = Calendar.daysInMonth y (j + 3) := by
  interval_cases j <;> simpa [daysInMonth, Calendar.daysInMonth, eq_comm] using hj

theorem daysThrough_march (y : ℤ) (j : ℕ) (h10 : j ≤ 10) :
    (daysThrough y (j + 2) : ℤ) = daysThrough y 2 + (daysInMonth.take j).sum := by
  induction j with
  | zero => simp
  | succ j ih =>
    have hlen : j < daysInMonth.length := Nat.lt_of_lt_of_le h10 (by decide)
    have hget := List.getElem?_eq_getElem hlen
    have hn := daysInMonth_march y hget h10
    rw [List.take_add_one, hget, List.sum_append, ← add_assoc, ← ih (by omega)]
    simp only [daysThrough, Option.toList_some, List.sum_singleton, hn]
    push_cast
    rfl

/-- The `j`-th month of a year that begins in March, and its days of which `remdays` have passed,
are a month and a day of a year that begins in January. -/
theorem date_of_march {days years remdays d n : ℤ} {j : ℕ} (hlo : -2 ^ 62 < days)
    (hhi : days < 2 ^ 62) (h : Marches days years remdays) (hj : daysInMonth[j]? = some n)
    (hd : 0 ≤ d) (hdn : d < n) (heq : remdays = (daysInMonth.take j).sum + d) :
    ∃ date : Date, date.dayNumber = days + 11017 ∧ (date.day : ℤ) = d + 1 ∧
      2000 + years ≤ date.year ∧ date.year ≤ 2001 + years ∧
      shiftYear j years = .ok (date.month - 3, date.year - 2000) := by
  obtain ⟨hdays, hrem, hrem', hleap⟩ := h
  have hmarch := daysBeforeYear_march (2000 + years)
  rw [add_sub_cancel_left] at hmarch
  by_cases h10 : j < 10
  · have hn := daysInMonth_march (2000 + years) hj h10
    have hthrough := daysThrough_march (2000 + years) j h10.le
    refine ⟨⟨2000 + years, j + 3, (d + 1).toNat, by omega, by omega, by omega, by omega⟩, ?_, ?_,
      by simp, by simp, ?_⟩
    · simp only [Date.dayNumber, Nat.add_succ_sub_one]
      omega
    · simp only
      omega
    · unfold shiftYear
      rw [if_neg (by omega)]
      exact congrArg Except.ok (Prod.ext (by simp) (by simp))
  · have h12 : j < 12 := (List.getElem?_eq_some_iff.1 hj).1
    have hyear := daysBeforeYear_succ (2000 + years)
    have h306 : (daysInMonth.take 10).sum = 306 := rfl
    have hthrough := h306 ▸ daysThrough_march (2000 + years) 10 le_rfl
    rw [show 10 + 2 = 12 from rfl] at hthrough
    have hnext : 2000 + years + 1 = 2001 + years := by omega
    rw [hnext] at hyear
    have hshift : shiftYear j years = .ok (j - 12, years + 1) := by
      unfold shiftYear
      rw [if_pos (by omega), i8_ok (by omega) (by omega), ok_bind, i64_ok (by omega) (by omega)]
      rfl
    obtain rfl | rfl : j = 10 ∨ j = 11 := by omega
    · obtain rfl : 31 = n := Option.some.inj hj
      refine ⟨⟨2001 + years, 1, (d + 1).toNat, by omega, by omega, by omega, ?_⟩, ?_, ?_, by simp,
        by simp, ?_⟩
      · simp only [Calendar.daysInMonth]
        omega
      · have hzero : daysThrough (2001 + years) (1 - 1) = 0 := rfl
        simp only [Date.dayNumber, hzero]
        omega
      · simp only
        omega
      · rw [hshift]
        exact congrArg Except.ok (Prod.ext (by simp) (by simp only; omega))
    · obtain rfl : 29 = n := Option.some.inj hj
      have h337 : (daysInMonth.take 11).sum = 337 := rfl
      -- the 29th of February is the 366th day
      have hfeb : (d + 1).toNat ≤ Calendar.daysInMonth (2001 + years) 2 := by
        simp only [Calendar.daysInMonth]
        split_ifs with hl
        · omega
        · have hne := mt hleap hl
          omega
      refine ⟨⟨2001 + years, 2, (d + 1).toNat, by omega, by omega, by omega, hfeb⟩, ?_, ?_, by simp,
        by simp, ?_⟩
      · have hjan : daysThrough (2001 + years) (2 - 1) = 31 := rfl
        simp only [Date.dayNumber, hjan]
        omega
      · simp only
        omega
      · rw [hshift]
        exact congrArg Except.ok (Prod.ext (by simp) (by simp only; omega))

/-- The fields are those of the date and the time, with the month numbered from 0. -/
structure Time.Reads (t : Time) (u : DateTime) : Prop where
  year : t.year = u.date.year
  month : t.month.toNat + 1 = u.date.month
  mday : t.mday.toNat = u.date.day
  hour : t.hour.toNat = u.hour
  minute : t.minute.toNat = u.minute
  second : t.second.toNat = u.second

theorem exists_reads {now : SystemTime} (h : now.nanos.natAbs / 1000000000 < 2 ^ 62) :
    ∃ t, Time.from now = .ok t ∧ ∃ u : DateTime, t.Reads u ∧
      u.seconds = now.nanos / 1000000000 ∧ (t.nanos.toNat : ℤ) = now.nanos % 1000000000 := by
  obtain ⟨nanos, hsince, hnanos⟩ := sinceEpoch_ok h
  have hday : secsPerDay = 86400 := rfl
  have hepoch : leapoch = 86400 * 11017 := rfl
  have hsplit := Int.mul_ediv_add_emod (now.nanos / 1000000000 - leapoch) secsPerDay
  unfold Time.from
  rw [hsince, ok_bind]
  simp only
  rw [i64_ok (by omega) (by omega), ok_bind,
    floorDiv_eq (by omega) (by omega) (by omega) (by omega), ok_bind]
  rw [hday, hepoch] at *
  obtain ⟨years, remdays, hmarch, hyear⟩ :=
    @marchYear_ok ((now.nanos / 1000000000 - 86400 * 11017) / 86400) (by omega) (by omega)
  have hremdays := hyear.nonneg
  have hle := hyear.le_365
  obtain ⟨j, n, d, hloop, hj, hd, hdn, heq⟩ := monthLoop_ok daysInMonth 0 0 remdays (by decide)
    (by decide) hyear.nonneg (by omega) (Int.lt_of_le_of_lt hyear.le_365 (by decide))
  rw [Nat.zero_add] at hloop
  obtain ⟨date, hdate, hmday, hyear0, hyear1, hshift⟩ :=
    date_of_march (by omega) (by omega) hyear hj hd hdn heq
  simp only [hmarch, hloop, hshift, ok_bind]
  have hmonth := date.one_le_month
  have hmonth' := date.month_le
  have hday31 := date.day_le.trans (daysInMonth_le date.year date.month)
  have hdays := hyear.days_eq
  rw [Int.tdiv_eq_ediv_of_nonneg (by omega), Int.tdiv_eq_ediv_of_nonneg (by omega),
    Int.tmod_eq_emod_of_nonneg (by omega), Int.tmod_eq_emod_of_nonneg (by omega),
    i64_ok (by omega) (by omega), ok_bind, i8_ok (by omega) (by omega), ok_bind]
  obtain ⟨month, hu, hmonth⟩ := @u8_ok (date.month - 3 + 2) (by omega) (by omega)
  rw [hu, ok_bind, i64_ok (by omega) (by omega), ok_bind]
  obtain ⟨mday, hu, hmday⟩ := @u8_ok (d + 1) (by omega) (by omega)
  rw [hu, ok_bind]
  obtain ⟨hour, hu, hhour⟩ :=
    @u8_ok ((now.nanos / 1000000000 - 86400 * 11017) % 86400 / 3600) (by omega) (by omega)
  rw [hu, ok_bind]
  obtain ⟨minute, hu, hminute⟩ :=
    @u8_ok ((now.nanos / 1000000000 - 86400 * 11017) % 86400 / 60 % 60) (by omega) (by omega)
  rw [hu, ok_bind]
  obtain ⟨second, hu, hsecond⟩ :=
    @u8_ok ((now.nanos / 1000000000 - 86400 * 11017) % 86400 % 60) (by omega) (by omega)
  rw [hu, ok_bind]
  refine ⟨_, rfl, ⟨date, hour.toNat, minute.toNat, second.toNat, by omega, by omega, by omega⟩,
    ⟨?_, ?_, ?_, rfl, rfl, rfl⟩, ?_, hnanos⟩
  · simp
  · simp only
    omega
  · simp only
    omega
  · simp only [DateTime.seconds]
    omega

/-- Less than 2^62 seconds before or after the epoch the conversion overflows nowhere and loses no
bit.  Its fields, with the month numbered from 0, are in range and those of the date and time that
is the instant's whole seconds, rounded down, after the epoch; the nanoseconds are the rest. -/
theorem from_spec {now : SystemTime} (h : now.nanos.natAbs / 1000000000 < 2 ^ 62) :
    ∃ t, Time.from now = .ok t ∧ t.month.toNat ≤ 11 ∧ 1 ≤ t.mday.toNat ∧
      t.mday.toNat ≤ Calendar.daysInMonth t.year (t.month.toNat + 1) ∧ t.hour.toNat ≤ 23 ∧
      t.minute.toNat ≤ 59 ∧ t.second.toNat ≤ 59 ∧ t.nanos.toNat < 1000000000 ∧
      ∃ u : DateTime, t.Reads u ∧ u.seconds = now.nanos / 1000000000 ∧
        (t.nanos.toNat : ℤ) = now.nanos % 1000000000 := by
  obtain ⟨t, ht, u, hu, hsecs, hnanos⟩ := exists_reads h
  have hmonth := u.date.month_le
  have hhour := u.hour_lt
  have hminute := u.minute_lt
  have hsecond := u.second_lt
  rw [← hu.month] at hmonth
  rw [← hu.hour] at hhour
  rw [← hu.minute] at hminute
  rw [← hu.second] at hsecond
  refine ⟨t, ht, by omega, ?_, ?_, by omega, by omega, by omega, by omega, u, hu, hsecs, hnanos⟩
  · rw [hu.mday]
    exact u.date.one_le_day
  · rw [hu.mday, hu.year, hu.month]
    exact u.date.day_le

theorem from_spec_before_epoch : ∃ t, Time.from ⟨-1⟩ = .ok t ∧ t.nanos.toNat < 1000000000 ∧
    ∃ u : DateTime, t.Reads u ∧ u.seconds = -1 := by
  obtain ⟨t, ht, -, -, -, -, -, -, hlt, u, hu, hsecs, -⟩ := @from_spec ⟨-1⟩ (by decide)
  exact ⟨t, ht, hlt, u, hu, hsecs⟩

/-! ## The text -/

/-- A date and a time as they are written, down to the microsecond. -/
def timeText (year : ℤ) (month day hour minute second micros : ℕ) : String :=
  zeroPadded 4 year ++ "-" ++ zeroPadded 2 month ++ "-" ++ zeroPadded 2 day ++ "T" ++
    zeroPadded 2 hour ++ ":" ++ zeroPadded 2 minute ++ ":" ++ zeroPadded 2 second ++ "." ++
      zeroPadded 6 micros ++ "Z"

def dateText (u : DateTime) (micros : ℕ) : String :=
  timeText u.date.year u.date.month u.date.day u.hour u.minute u.second micros

/-- The text is that of the instant's date and time in the Gregorian calendar. -/
def ShowsDate (now : SystemTime) (text : String) : Prop :=
  ∃ u : DateTime, u.seconds = now.nanos / 1000000000 ∧
    text = dateText u (now.nanos % 1000000000 / 1000).toNat

theorem fmt_eq {t : Time} {u : DateTime} (h : t.Reads u) : t.fmt = timeText u.date.year
    (u.date.month - 1) u.date.day u.hour u.minute u.second (t.nanos.toNat / 1000) := by
  have hmonth : t.month.toNat = u.date.month - 1 := by
    have := h.month
    omega
  have hmicros : (t.nanos / 1000).toNat = t.nanos.toNat / 1000 := UInt32.toNat_div _ _
  unfold Time.fmt timeText
  rw [h.year, hmonth, h.mday, h.hour, h.minute, h.second, hmicros]

theorem timeText_month_ne (year : ℤ) {month : ℕ} (h1 : 1 ≤ month) (h12 : month ≤ 12)
    (day hour minute second micros : ℕ) :
    timeText year (month - 1) day hour minute second micros
      ≠ timeText year month day hour minute second micros := by
  intro h
  have hne : zeroPadded 2 (month - 1 : ℕ) ≠ zeroPadded 2 month := by
    interval_cases month <;> decide +kernel
  have hlen : (zeroPadded 2 (month - 1 : ℕ)).toList.length =
      (zeroPadded 2 month).toList.length := by
    interval_cases month <;> decide +kernel
  unfold timeText at h
  have hlist := congrArg String.toList h
  simp only [String.toList_append, List.append_assoc, List.append_cancel_left_eq] at hlist
  exact hne (String.toList_inj.1 (List.append_inj hlist hlen).1)

theorem not_showsDate_of_reads {now : SystemTime} {t : Time} {u : DateTime} (hu : t.Reads u)
    (hsecs : u.seconds = now.nanos / 1000000000)
    (hnanos : (t.nanos.toNat : ℤ) = now.nanos % 1000000000) : ¬ ShowsDate now t.fmt := by
  rintro ⟨u', hsecs', htext⟩
  obtain rfl : u = u' := DateTime.seconds_inj (hsecs.trans hsecs'.symm)
  have hmicros : (now.nanos % 1000000000 / 1000).toNat = t.nanos.toNat / 1000 := by omega
  rw [fmt_eq hu, dateText, hmicros] at htext
  exact timeText_month_ne u.date.year u.date.one_le_month u.date.month_le _ _ _ _ _ htext

/-- No text is that of the date: the month is one too low. -/
theorem not_showsDate {now : SystemTime} (h : now.nanos.natAbs / 1000000000 < 2 ^ 62) :
    ∃ t, Time.from now = .ok t ∧ ¬ ShowsDate now t.fmt := by
  obtain ⟨t, ht, u, hu, hsecs, hnanos⟩ := exists_reads h
  exact ⟨t, ht, not_showsDate_of_reads hu hsecs hnanos⟩

theorem not_showsDate_before_epoch : ∃ t, Time.from ⟨-1⟩ = .ok t ∧ ¬ ShowsDate ⟨-1⟩ t.fmt :=
  not_showsDate (by decide)

def epochDate : DateTime :=
  ⟨⟨1970, 1, 1, by decide, by decide, by decide, by decide⟩, 0, 0, 0, by decide, by decide,
    by decide⟩

/-- The text of the epoch has a month of number 0. -/
theorem fmt_epoch : ∃ t, Time.from ⟨0⟩ = .ok t ∧ t.fmt = "1970-00-01T00:00:00.000000Z" ∧
    ¬ ShowsDate ⟨0⟩ t.fmt := by
  have hreads : (Time.mk 1970 0 1 0 0 0 0).Reads epochDate := ⟨rfl, rfl, rfl, rfl, rfl, rfl⟩
  exact ⟨_, by decide +kernel, by decide +kernel,
    not_showsDate_of_reads hreads (by decide +kernel) (by decide)⟩

end AcmeChampion
