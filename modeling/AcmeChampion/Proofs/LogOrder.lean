import AcmeChampion.Lib.Numerals
import AcmeChampion.Logger
import AcmeChampion.Proofs.Timestamps

/-!
# The lines of a log sort by time

The text of a time has fields of fixed widths, the largest unit first, so texts sort as the times
do, down to the microsecond, though their months are numbered from 0; and a line begins with one
(`lines_sort`).
-/

namespace AcmeChampion

open Calendar Lines Numerals MachineInt Logger

/-! ## Dates in order -/

theorem lt_of_dayNumber_lt {d e : Date} (h : d.dayNumber < e.dayNumber) :
    d.year < e.year ∨
      d.year = e.year ∧ (d.month < e.month ∨ d.month = e.month ∧ d.day < e.day) := by
  rcases Int.lt_or_eq_of_le (Date.year_le h.le) with hyear | hyear
  · exact .inl hyear
  refine .inr ⟨hyear, ?_⟩
  rcases Nat.lt_or_eq_of_le (Date.month_le_of_year hyear h.le) with hmonth | hmonth
  · exact .inl hmonth
  refine .inr ⟨hmonth, ?_⟩
  have hd := d.one_le_day
  have he := e.one_le_day
  unfold Date.dayNumber at h
  rw [hyear, hmonth] at h
  omega

/-- The years from 1970 on that are written with four digits. -/
theorem year_bounds {u : DateTime} (hlo : 0 ≤ u.seconds) (hhi : u.seconds < 253402300800) :
    0 ≤ u.date.year ∧ u.date.year < 10000 := by
  have hhour := u.hour_lt
  have hminute := u.minute_lt
  have hsecond := u.second_lt
  have hbounds := u.date.dayNumber_bounds
  have hthrough := (daysThrough_strictMono u.date.year).monotone u.date.month_le
  unfold DateTime.seconds at hlo hhi
  constructor
  · by_contra hneg
    have hnext := @daysBeforeYear_mono (u.date.year + 1) 1970 (by omega)
    have h1970 : daysBeforeYear 1970 = 0 := by decide
    rw [daysBeforeYear_succ] at hnext
    omega
  · by_contra hlate
    have hyear := @daysBeforeYear_mono 10000 u.date.year (by omega)
    have h10000 : daysBeforeYear 10000 = 2932897 := by decide
    omega

/-! ## The fields -/

/-- The fields of a time's text. -/
def timeFields : List (ℕ × Char) :=
  [(4, '-'), (2, '-'), (2, 'T'), (2, ':'), (2, ':'), (2, '.'), (6, 'Z')]

/-- What is written in them. -/
def timeNumbers (u : DateTime) (micros : ℕ) : List ℕ :=
  [u.date.year.toNat, u.date.month - 1, u.date.day, u.hour, u.minute, u.second, micros]

theorem fits_timeNumbers {u : DateTime} (hyear : u.date.year < 10000) {micros : ℕ}
    (hmicros : micros < 1000000) : Fits timeFields (timeNumbers u micros) := by
  have hmonth := u.date.month_le
  have hday := u.date.day_le.trans (daysInMonth_le u.date.year u.date.month)
  have hhour := u.hour_lt
  have hminute := u.minute_lt
  have hsecond := u.second_lt
  unfold Fits timeFields timeNumbers
  simp only [List.forall₂_cons, List.Forall₂.nil, and_true, Nat.reducePow]
  omega

theorem toList_timeText {u : DateTime} (hyear0 : 0 ≤ u.date.year) (hyear : u.date.year < 10000)
    {micros : ℕ} (hmicros : micros < 1000000) :
    (timeText u.date.year (u.date.month - 1) u.date.day u.hour u.minute u.second micros).toList =
      layout timeFields (timeNumbers u micros) := by
  have hmonth := u.date.month_le
  have hday := u.date.day_le.trans (daysInMonth_le u.date.year u.date.month)
  have hhour := u.hour_lt
  have hminute := u.minute_lt
  have hsecond := u.second_lt
  have hnat : zeroPadded 4 u.date.year = zeroPadded 4 u.date.year.toNat := by
    rw [Int.toNat_of_nonneg hyear0]
  unfold timeText
  rw [hnat]
  simp only [String.toList_append, toList_zeroPadded (show 0 < 4 by decide)
    (show u.date.year.toNat < 10 ^ 4 by omega), toList_zeroPadded (show 0 < 2 by decide)
    (show u.date.month - 1 < 10 ^ 2 by omega), toList_zeroPadded (show 0 < 2 by decide)
    (show u.date.day < 10 ^ 2 by omega), toList_zeroPadded (show 0 < 2 by decide)
    (show u.hour < 10 ^ 2 by omega), toList_zeroPadded (show 0 < 2 by decide)
    (show u.minute < 10 ^ 2 by omega), toList_zeroPadded (show 0 < 2 by decide)
    (show u.second < 10 ^ 2 by omega), toList_zeroPadded (show 0 < 6 by decide)
    (show micros < 10 ^ 6 by omega), List.append_assoc]
  rfl

/-- Times sort as the numbers of their texts. -/
theorem timeNumbers_lt {u u' : DateTime} (hyear : 0 ≤ u.date.year) {micros micros' : ℕ}
    (h : u.seconds < u'.seconds ∨ u.seconds = u'.seconds ∧ micros < micros') :
    timeNumbers u micros < timeNumbers u' micros' := by
  unfold timeNumbers
  simp only [List.cons_lt_cons_iff]
  rcases h with h | ⟨h, hmicros⟩
  · have hminute := u.minute_lt
    have hminute' := u'.minute_lt
    have hhour := u.hour_lt
    have hhour' := u'.hour_lt
    have hsecond := u.second_lt
    have hsecond' := u'.second_lt
    have hmonth := u.date.one_le_month
    have hmonth' := u'.date.one_le_month
    unfold DateTime.seconds at h
    rcases Int.lt_or_le u.date.dayNumber u'.date.dayNumber with hday | hday
    · have hdate := lt_of_dayNumber_lt hday
      omega
    · have hdate : u.date = u'.date := Date.dayNumber_inj (by omega)
      rw [hdate] at h ⊢
      omega
  · rw [DateTime.seconds_inj h]
    simp [hmicros]

/-! ## The texts -/

/-- From the epoch to the end of the year 9999. -/
def Dated (now : SystemTime) : Prop := 0 ≤ now.nanos ∧ now.nanos < 253402300800 * 1000000000

/-- The text of a clock reading is its fields'. -/
theorem exists_layout {now : SystemTime} (h : Dated now) : ∃ t u, Time.from now = .ok t ∧
    u.seconds = now.nanos / 1000000000 ∧
    Fits timeFields (timeNumbers u (now.nanos % 1000000000 / 1000).toNat) ∧
    0 ≤ u.date.year ∧
    t.fmt.toList = layout timeFields (timeNumbers u (now.nanos % 1000000000 / 1000).toNat) := by
  obtain ⟨hlo, hhi⟩ := h
  obtain ⟨t, ht, u, hu, hsecs, hnanos⟩ := @exists_reads now (by omega)
  obtain ⟨hyear0, hyear⟩ := @year_bounds u (by omega) (by omega)
  have hmicros : t.nanos.toNat / 1000 = (now.nanos % 1000000000 / 1000).toNat := by omega
  have hlt : (now.nanos % 1000000000 / 1000).toNat < 1000000 := by omega
  refine ⟨t, u, ht, hsecs, fits_timeNumbers hyear hlt, hyear0, ?_⟩
  rw [fmt_eq hu, hmicros]
  exact toList_timeText hyear0 hyear hlt

/-- Texts with the first part in common, and then parts of one length, are ordered by these. -/
theorem append_lt_of_lt {start s t : String} (hlen : s.toList.length = t.toList.length) (h : s < t)
    (rest rest' : String) : start ++ (s ++ rest) < start ++ (t ++ rest') := by
  rw [String.lt_iff_toList_lt] at h ⊢
  simp only [String.toList_append]
  rw [append_lt_append_iff rfl, append_lt_append_iff hlen]
  exact .inr ⟨rfl, .inl h⟩

/-- Up to the end of the year 9999 the texts of two clock readings sort as the readings do, down to
the microsecond, and so do the lines that are logged then, whatever is logged in which format. -/
theorem lines_sort {now now' : SystemTime} (h : Dated now) (h' : Dated now') :
    ∃ t t', Time.from now = .ok t ∧ Time.from now' = .ok t' ∧
      (t.fmt < t'.fmt ↔ now.nanos / 1000 < now'.nanos / 1000) ∧
      (now.nanos / 1000 < now'.nanos / 1000 → ∀ format styles tables record record',
        formatRecord format styles tables t record <
          formatRecord format styles tables t' record') := by
  obtain ⟨t, u, ht, hsecs, hfits, hyear, htext⟩ := exists_layout h
  obtain ⟨t', u', ht', hsecs', hfits', hyear', htext'⟩ := exists_layout h'
  obtain ⟨hlo, -⟩ := h
  obtain ⟨hlo', -⟩ := h'
  have hlen : t.fmt.toList.length = t'.fmt.toList.length := by
    rw [htext, htext']
    exact length_layout hfits hfits'
  have horder : t.fmt < t'.fmt ↔ now.nanos / 1000 < now'.nanos / 1000 := by
    rw [String.lt_iff_toList_lt, htext, htext', layout_lt_iff hfits hfits']
    rcases lt_trichotomy (now.nanos / 1000) (now'.nanos / 1000) with hlt | heq | hgt
    · exact iff_of_true (timeNumbers_lt hyear (by omega)) hlt
    · have hu : u = u' := DateTime.seconds_inj (by omega)
      have hmicros : (now.nanos % 1000000000 / 1000).toNat =
          (now'.nanos % 1000000000 / 1000).toNat := by omega
      rw [hu, hmicros]
      exact iff_of_false (lt_irrefl _) (by omega)
    · exact iff_of_false (lt_asymm (timeNumbers_lt hyear' (by omega))) (by omega)
  refine ⟨t, t', ht, ht', horder, fun hlt format styles tables record record' => ?_⟩
  unfold formatRecord
  simp only [String.append_assoc]
  exact append_lt_of_lt hlen (horder.2 hlt) _ _

/-- A microsecond before 2000 and the beginning of 2000. -/
theorem lines_sort_millennium : ∃ t t', Time.from ⟨946684799999999000⟩ = .ok t ∧
    Time.from ⟨946684800000000000⟩ = .ok t' ∧ t.fmt < t'.fmt := by
  obtain ⟨t, t', ht, ht', horder, -⟩ :=
    @lines_sort ⟨946684799999999000⟩ ⟨946684800000000000⟩ (by unfold Dated; decide)
      (by unfold Dated; decide)
  exact ⟨t, t', ht, ht', horder.2 (by decide)⟩

end AcmeChampion
