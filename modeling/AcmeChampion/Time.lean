import AcmeChampion.Lib.Lines
import AcmeChampion.Lib.MachineInt

/-!
# Times in the log

`Time.from` splits the seconds since the epoch into years that begin on 1 March 2000, the months and
days of such a year, and the time of the day.  It is in `Exact`, so where it returns no sum has
overflowed and no cast has lost a bit.
-/

namespace AcmeChampion

open Lines MachineInt

structure Time where
  year : ℤ
  month : UInt8
  mday : UInt8
  hour : UInt8
  minute : UInt8
  second : UInt8
  nanos : UInt32
  deriving DecidableEq, Repr

/-- `Display::fmt` -/
def Time.fmt (t : Time) : String :=
  zeroPadded 4 t.year ++ "-" ++ zeroPadded 2 t.month.toNat ++ "-" ++ zeroPadded 2 t.mday.toNat ++
    "T" ++ zeroPadded 2 t.hour.toNat ++ ":" ++ zeroPadded 2 t.minute.toNat ++ ":" ++
    zeroPadded 2 t.second.toNat ++ "." ++ zeroPadded 6 (t.nanos / 1000).toNat ++ "Z"

theorem Time.inline_fmt (t : Time) : Inline t.fmt := by
  unfold fmt
  simp only [inline_append, inline_zeroPadded, true_and, and_true]
  decide

example : (Time.mk 987 6 5 4 3 2 10999).fmt = "0987-06-05T04:03:02.000010Z" := by decide +kernel

/-! ## The clock -/

/-- `std::time::Duration` -/
structure Duration where
  secs : ℕ
  subsecNanos : UInt32
  subsecNanos_lt : subsecNanos.toNat < 1000000000

def Duration.fromNanos (n : ℕ) : Duration where
  secs := n / 1000000000
  subsecNanos := UInt32.ofNat (n % 1000000000)
  subsecNanos_lt := by
    rw [UInt32.toNat_ofNat']
    omega

/-- `std::time::SystemTime`, the nanoseconds since the epoch. -/
structure SystemTime where
  nanos : ℤ

def unixEpoch : SystemTime := ⟨0⟩

/-- The error is of a time before `earlier`, with the duration up to it. -/
def SystemTime.durationSince (now earlier : SystemTime) : Except Duration Duration :=
  if earlier.nanos ≤ now.nanos then .ok (.fromNanos (now.nanos - earlier.nanos).toNat)
  else .error (.fromNanos (earlier.nanos - now.nanos).toNat)

def secsPerDay : ℤ := 24 * 60 * 60
def leapoch : ℤ := 946684800 + secsPerDay * (31 + 29)
def daysPer400Y : ℤ := 365 * 400 + 97
def daysPer100Y : ℤ := 365 * 100 + 24
def daysPer4Y : ℤ := 365 * 4 + 1

def daysInMonth : List ℤ := [31, 30, 31, 30, 31, 31, 30, 31, 30, 31, 31, 29]

/-- The whole seconds since the epoch and the nanoseconds after them. -/
def sinceEpoch (now : SystemTime) : Exact (ℤ × UInt32) :=
  match now.durationSince unixEpoch with
  | .ok duration => do
    let t ← i64 duration.secs
    return (t, duration.subsecNanos)
  | .error duration => do
    let t ← i64 duration.secs
    let t ← i64 (-t)
    if duration.subsecNanos > 0 then
      let t ← i64 (t - 1)
      let nanos ← u32 (1000000000 - duration.subsecNanos.toNat)
      return (t, nanos)
    return (t, 0)

/-- The years from March 2000 on that have passed, and the days after them. -/
def marchYear (days : ℤ) : Exact (ℤ × ℤ) := do
  let (qcCycles, remdays) ← floorDiv days daysPer400Y
  let (cCycles, remdays) ← clampedDiv remdays daysPer100Y 4
  let (qCycles, remdays) ← clampedDiv remdays daysPer4Y 25
  let (remyears, remdays) ← clampedDiv remdays 365 4
  let years ← i64 (remyears + (← i64 (4 * qCycles)))
  let years ← i64 (years + (← i64 (100 * cCycles)))
  let years ← i64 (years + (← i64 (400 * qcCycles)))
  return (years, remdays)

/-- The loop over the months and their numbers, of which it keeps the last one it comes to. -/
def monthLoop : List (ℤ × ℕ) → ℤ → ℤ → Exact (ℤ × ℤ)
  | [], months, remdays => return (months, remdays)
  | (daysInMonth, m) :: rest, _, remdays => do
    let months ← i8 m
    if daysInMonth > remdays then
      return (months, remdays)
    let remdays ← i64 (remdays - daysInMonth)
    monthLoop rest months remdays

/-- January and February belong to the next year. -/
def shiftYear (months years : ℤ) : Exact (ℤ × ℤ) := do
  if months ≥ 10 then
    let months ← i8 (months - 12)
    let years ← i64 (years + 1)
    return (months, years)
  return (months, years)

def Time.«from» (now : SystemTime) : Exact Time := do
  let (t, nanos) ← sinceEpoch now
  let secs ← i64 (t - leapoch)
  let (days, remsecs) ← floorDiv secs secsPerDay
  let (years, remdays) ← marchYear days
  let (months, remdays) ← monthLoop daysInMonth.zipIdx 0 remdays
  let (months, years) ← shiftYear months years
  let year ← i64 (years + 2000)
  let month ← u8 (← i8 (months + 2))
  let mday ← u8 (← i64 (remdays + 1))
  let hour ← u8 (remsecs.tdiv 3600)
  let minute ← u8 ((remsecs.tdiv 60).tmod 60)
  let second ← u8 (remsecs.tmod 60)
  return { year, month, mday, hour, minute, second, nanos }

end AcmeChampion
