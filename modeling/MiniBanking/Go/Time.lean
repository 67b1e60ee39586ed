import MiniBanking.Go.Text

/-!
# Clock readings

A reading of the wall clock is a number of nanoseconds since the Unix epoch that a 64-bit
nanosecond clock can show (the years 1678 to 2262).

## Main definitions

* `Instant`: a clock reading
* `Instant.startOfDay`: `UTC().Truncate(24 * time.Hour)`
* `Instant.rfc3339Nano`: `Format(time.RFC3339Nano)` of a UTC time
* `day`: the UTC day of a time

## Main results

* `Instant.startOfDay_eq`: the start of the day is a whole number of days after the epoch
* `le_day_iff`, `day_mono`: the order of days and of times
-/

namespace Go

/-- A reading of the wall clock, in nanoseconds since the Unix epoch. -/
structure Instant where
  ns : ℤ
  real : -2 ^ 63 ≤ ns ∧ ns < 2 ^ 63
  deriving DecidableEq

instance : LE Instant := ⟨fun t u => t.ns ≤ u.ns⟩

instance (t u : Instant) : Decidable (t ≤ u) := inferInstanceAs (Decidable (t.ns ≤ u.ns))

theorem Instant.le_refl (t : Instant) : t ≤ t := Int.le_refl t.ns

theorem Instant.le_trans {t u v : Instant} (h : t ≤ u) (h' : u ≤ v) : t ≤ v :=
  Int.le_trans h h'

/-- The nanoseconds of a second. -/
def second : ℤ := 1000000000

/-- The nanoseconds of a day. -/
def dayLength : ℤ := 86400 * second

/-- The UTC day a time lies in, counted from the epoch. -/
def day (ns : ℤ) : ℤ := ns / dayLength

/-- `UTC().Truncate(24 * time.Hour)`: midnight. Go counts from the year 1, which is a whole
number of days before the epoch. -/
def Instant.startOfDay (t : Instant) : ℤ := t.ns - t.ns % dayLength

theorem Instant.startOfDay_eq (t : Instant) : t.startOfDay = dayLength * day t.ns := by
  have h := Int.emod_add_mul_ediv t.ns dayLength
  unfold startOfDay day
  omega

theorem le_day_iff {d ns : ℤ} : d ≤ day ns ↔ dayLength * d ≤ ns := by
  have hpos : 0 < dayLength := by decide
  rw [day, Int.le_ediv_iff_mul_le hpos, Int.mul_comm]

theorem day_mono {ns ns' : ℤ} (h : ns ≤ ns') : day ns ≤ day ns' :=
  Int.ediv_le_ediv (by decide) h

theorem Instant.midnight_le (t : Instant) : dayLength * day t.ns ≤ t.ns :=
  le_day_iff.mp (Int.le_refl _)

theorem Instant.le_midnight (t : Instant) : t.ns ≤ dayLength * (day t.ns + 1) := by
  by_cases h : dayLength * (day t.ns + 1) ≤ t.ns
  · have := le_day_iff.mpr h
    omega
  · exact Int.le_of_lt (Int.not_le.mp h)

/-! ## Text -/

/-- The year, month and day of month of the `n`-th day after the epoch, in the Gregorian
calendar. -/
def civil (n : ℤ) : ℤ × ℤ × ℤ :=
  -- eras of 400 years that start on 1 March
  let z := n + 719468
  let era := z / 146097
  let doe := z % 146097
  let yoe := (doe - doe / 1460 + doe / 36524 - doe / 146096) / 365
  let doy := doe - (365 * yoe + yoe / 4 - yoe / 100)
  let mp := (5 * doy + 2) / 153
  let month := if mp < 10 then mp + 3 else mp - 9
  let year := yoe + era * 400 + if month ≤ 2 then 1 else 0
  (year, month, doy - (153 * mp + 2) / 5 + 1)

/-- The fraction of a second, without trailing zeros, and without the point when it is zero. -/
def fraction (ns : ℕ) : String :=
  if ns = 0 then "" else
    "." ++ String.ofList ((padded 9 ns).toList.reverse.dropWhile (· = '0')).reverse

/-- `Format(time.RFC3339Nano)` of a UTC time. -/
def Instant.rfc3339Nano (t : Instant) : String :=
  let (year, month, dayOfMonth) := civil (day t.ns)
  let s := (t.ns % dayLength / second).toNat
  padded 4 year.toNat ++ "-" ++ padded 2 month.toNat ++ "-" ++ padded 2 dayOfMonth.toNat ++
    "T" ++ padded 2 (s / 3600) ++ ":" ++ padded 2 (s / 60 % 60) ++ ":" ++ padded 2 (s % 60) ++
    fraction (t.ns % second).toNat ++ "Z"

example : Instant.rfc3339Nano ⟨1709210096000120000, by decide⟩ =
    "2024-02-29T12:34:56.00012Z" := by decide

end Go
