import MiniBanking.Go.Time
import Mathlib.Data.Int.Order.Basic
import Mathlib.Tactic.Linarith

/-!
# Time arithmetic

`time.Time` counts seconds since the year 1 in 64 bits and `time.Duration` nanoseconds in 64
bits. `time.Unix` wraps, `Sub` saturates at the least and the greatest duration, and the
negation of the least duration is itself.

## Main definitions

* `Time`, `Time.unix`, `Instant.time`: times, the time of a Unix timestamp and of a clock reading
* `Time.before`, `Time.after`, `Time.equal`, `Time.add`, `Time.sub`: the methods of the same names
* `Time.ns`: a time in nanoseconds since the year 1, exactly

## Main results

* `Time.after_iff`, `Time.equal_iff`: comparisons are exact
* `Time.toInt_sub`: `Sub` from a clock reading is the exact difference, cut to 64 bits
-/

namespace Go

/-- `time.Duration`, in nanoseconds. -/
abbrev Duration := Int64

/-- `time.Time` without a reading of the monotonic clock. -/
structure Time where
  sec : Int64
  nsec : ℤ
  nsec_range : 0 ≤ nsec ∧ nsec < second
  deriving DecidableEq

/-- The seconds from the year 1 to the Unix epoch. -/
def unixToInternal : Int64 := 62135596800

/-- `time.Unix(s, 0)`. -/
def Time.unix (s : Int64) : Time := ⟨s + unixToInternal, 0, by decide⟩

/-- `t.Unix()`. -/
def Time.toUnix (t : Time) : Int64 := t.sec - unixToInternal

/-- What `time.Now()` returns when the clock shows `t`. -/
def Instant.time (t : Instant) : Time :=
  ⟨.ofInt (t.ns / second) + unixToInternal, t.ns % second,
    Int.emod_nonneg _ (by decide), Int.emod_lt_of_pos _ (by decide)⟩

theorem rem_second (d : Int64) :
    -second < (d % 1000000000).toInt ∧ (d % 1000000000).toInt < second := by
  rw [Int64.toInt_mod]
  exact ⟨Int.lt_tmod_of_pos _ (by decide), Int.tmod_lt_of_pos _ (by decide)⟩

namespace Time

/-- `t.Before(u)`. -/
def before (t u : Time) : Bool := t.sec < u.sec || (t.sec == u.sec && t.nsec < u.nsec)

/-- `t.After(u)`. -/
def after (t u : Time) : Bool := u.sec < t.sec || (t.sec == u.sec && u.nsec < t.nsec)

/-- `t.Equal(u)`. -/
def equal (t u : Time) : Bool := t.sec == u.sec && t.nsec == u.nsec

/-- `addSec`: the sum, or the greatest number of seconds in its direction. -/
def addSec (sec d : Int64) : Int64 :=
  if (decide (sec < sec + d)) = decide (0 < d) then sec + d
  else if 0 < d then Int64.maxValue
  else -Int64.maxValue

/-- `t.Add(d)`. -/
def add (t : Time) (d : Duration) : Time :=
  let dsec := d / 1000000000
  let nsec := t.nsec + (d % 1000000000).toInt
  have hrange := t.nsec_range
  have hrem := rem_second d
  if h : second ≤ nsec then ⟨addSec t.sec (dsec + 1), nsec - second, by omega⟩
  else if h' : nsec < 0 then ⟨addSec t.sec (dsec - 1), nsec + second, by omega⟩
  else ⟨addSec t.sec dsec, nsec, by omega⟩

/-- `minDuration`. -/
def minDuration : Duration := Int64.minValue

/-- `maxDuration`. -/
def maxDuration : Duration := Int64.maxValue

/-- `t.Sub(u)`. -/
def sub (t u : Time) : Duration :=
  let d := (t.sec - u.sec) * 1000000000 + .ofInt (t.nsec - u.nsec)
  if (u.add d).equal t then d
  else if t.before u then minDuration
  else maxDuration

/-- A time in nanoseconds since the year 1, exactly. -/
def ns (t : Time) : ℤ := t.sec.toInt * second + t.nsec

/-! ## Comparisons -/

theorem before_iff {t u : Time} : t.before u ↔ t.ns < u.ns := by
  obtain ⟨ht, ht'⟩ := t.nsec_range
  obtain ⟨hu, hu'⟩ := u.nsec_range
  simp only [before, ns, Bool.or_eq_true, Bool.and_eq_true, decide_eq_true_eq, beq_iff_eq,
    Int64.lt_iff_toInt_lt, ← Int64.toInt_inj, second] at *
  omega

theorem after_iff {t u : Time} : t.after u ↔ u.ns < t.ns := by
  rw [← before_iff]
  simp only [after, before, Bool.or_eq_true, Bool.and_eq_true, beq_iff_eq, @eq_comm _ u.sec]

theorem equal_iff {t u : Time} : t.equal u ↔ t.ns = u.ns := by
  obtain ⟨ht, ht'⟩ := t.nsec_range
  obtain ⟨hu, hu'⟩ := u.nsec_range
  simp only [equal, ns, Bool.and_eq_true, beq_iff_eq, ← Int64.toInt_inj, second] at *
  omega

/-! ## Sums -/

/-- The sum of two 64-bit integers is exact, or off by all of them. -/
theorem toInt_add_cases (a b : Int64) :
    ((a + b).toInt = a.toInt + b.toInt ∧ -2 ^ 63 ≤ a.toInt + b.toInt ∧
      a.toInt + b.toInt < 2 ^ 63) ∨
    ((a + b).toInt = a.toInt + b.toInt - 2 ^ 64 ∧ 2 ^ 63 ≤ a.toInt + b.toInt) ∨
    ((a + b).toInt = a.toInt + b.toInt + 2 ^ 64 ∧ a.toInt + b.toInt < -2 ^ 63) := by
  have ha := a.le_toInt
  have ha' := a.toInt_lt
  have hb := b.le_toInt
  have hb' := b.toInt_lt
  rw [Int64.toInt_add, Int.bmod_def]
  split <;> omega

/-- `addSec` is the exact sum when it fits, and as far out as can be otherwise. -/
theorem toInt_addSec (sec d : Int64) :
    (addSec sec d).toInt = sec.toInt + d.toInt ∨
    (¬ (-2 ^ 63 ≤ sec.toInt + d.toInt ∧ sec.toInt + d.toInt < 2 ^ 63) ∧
      ((addSec sec d).toInt = 2 ^ 63 - 1 ∨ (addSec sec d).toInt = -(2 ^ 63 - 1))) := by
  have hd := d.le_toInt
  have hd' := d.toInt_lt
  have hs := sec.le_toInt
  have hs' := sec.toInt_lt
  have hpos : 0 < d ↔ 0 < d.toInt := Int64.lt_iff_toInt_lt
  have hup : sec < sec + d ↔ sec.toInt < (sec + d).toInt := Int64.lt_iff_toInt_lt
  unfold addSec
  obtain ⟨heq, hle, hlt⟩ | ⟨heq, hle⟩ | ⟨heq, hlt⟩ := toInt_add_cases sec d
  · rw [if_pos (by rw [decide_eq_decide, hup, hpos, heq]; omega)]
    exact .inl heq
  · rw [if_neg (by rw [decide_eq_decide, hup, hpos, heq]; omega), if_pos (hpos.mpr (by omega))]
    exact .inr ⟨by omega, .inl (by decide)⟩
  · rw [if_neg (by rw [decide_eq_decide, hup, hpos, heq]; omega),
      if_neg (fun h => by have := hpos.mp h; omega)]
    exact .inr ⟨by omega, .inr (by decide)⟩

theorem toInt_div_second (d : Duration) :
    (d / 1000000000).toInt * second + (d % 1000000000).toInt = d.toInt := by
  rw [Int64.toInt_div_of_ne_right _ _ (by decide), Int64.toInt_mod]
  exact Int.tdiv_mul_add_tmod d.toInt second

/-- The exact time after a duration, unless it is so far out that its seconds are cut. -/
theorem add_cases (u : Time) (d : Duration) :
    (u.add d).ns = u.ns + d.toInt ∨
    (¬ (-2 ^ 63 * second ≤ u.ns + d.toInt ∧ u.ns + d.toInt < 2 ^ 63 * second) ∧
      ((u.add d).sec.toInt = 2 ^ 63 - 1 ∨ (u.add d).sec.toInt = -(2 ^ 63 - 1))) := by
  have hrange : 0 ≤ u.nsec ∧ u.nsec < 1000000000 := u.nsec_range
  have hrem : -1000000000 < (d % 1000000000).toInt ∧ (d % 1000000000).toInt < 1000000000 :=
    rem_second d
  have hdiv : (d / 1000000000).toInt * 1000000000 + (d % 1000000000).toInt = d.toInt :=
    toInt_div_second d
  have hd := d.le_toInt
  have hd' := d.toInt_lt
  have hone : (1 : Int64).toInt = 1 := by decide
  have hsucc : (d / 1000000000 + 1).toInt = (d / 1000000000).toInt + 1 := by
    rw [Int64.toInt_add, hone]
    exact Int.bmod_eq_of_le (by omega) (by omega)
  have hpred : (d / 1000000000 - 1).toInt = (d / 1000000000).toInt - 1 := by
    rw [Int64.toInt_sub, hone]
    exact Int.bmod_eq_of_le (by omega) (by omega)
  by_cases h : second ≤ u.nsec + (d % 1000000000).toInt
  · rw [show u.add d = ⟨addSec u.sec (d / 1000000000 + 1),
      u.nsec + (d % 1000000000).toInt - second, _⟩ from dif_pos h]
    have hsec := toInt_addSec u.sec (d / 1000000000 + 1)
    simp only [ns, second] at h ⊢
    omega
  by_cases h' : u.nsec + (d % 1000000000).toInt < 0
  · rw [show u.add d = ⟨addSec u.sec (d / 1000000000 - 1),
      u.nsec + (d % 1000000000).toInt + second, _⟩ from (dif_neg h).trans (dif_pos h')]
    have hsec := toInt_addSec u.sec (d / 1000000000 - 1)
    simp only [ns, second]
    omega
  · rw [show u.add d = ⟨addSec u.sec (d / 1000000000), u.nsec + (d % 1000000000).toInt, _⟩ from
      (dif_neg h).trans (dif_neg h')]
    have hsec := toInt_addSec u.sec (d / 1000000000)
    simp only [ns, second] at h ⊢
    omega

/-! ## Differences -/

/-- A time that a clock can show, far from where seconds are cut. -/
def Near (t : Time) : Prop := -2 ^ 62 < t.sec.toInt ∧ t.sec.toInt < 2 ^ 62

/-- **`Sub` is the exact difference, cut to 64 bits.** -/
theorem toInt_sub {t : Time} (ht : t.Near) (u : Time) :
    (t.sub u).toInt = max (-2 ^ 63) (min (t.ns - u.ns) (2 ^ 63 - 1)) := by
  obtain ⟨hlow, hhigh⟩ := ht
  have hrange := t.nsec_range
  have hrange' := u.nsec_range
  set d : Int64 := (t.sec - u.sec) * 1000000000 + .ofInt (t.nsec - u.nsec) with hd
  -- the difference in 64 bits is the exact one up to multiples of 2 ^ 64
  have hmod : d.toInt = (t.ns - u.ns).bmod (2 ^ 64) := by
    have hexact : (t.sec.toInt - u.sec.toInt) * 1000000000 + (t.nsec - u.nsec) = t.ns - u.ns := by
      simp only [ns, second]
      ring
    rw [hd, Int64.toInt_add, Int64.toInt_mul, Int64.toInt_sub, Int64.toInt_ofInt,
      show Int64.toInt 1000000000 = 1000000000 by decide, show Int64.size = 2 ^ 64 from rfl,
      Int.bmod_mul_bmod, ← Int.add_bmod, hexact]
  have hle := d.le_toInt
  have hlt := d.toInt_lt
  have hsub : t.sub u = if (u.add d).equal t then d else if t.before u then minDuration
    else maxDuration := rfl
  rw [hsub]
  by_cases heq : (u.add d).ns = t.ns
  · rw [if_pos (equal_iff.mpr heq)]
    have hexact : (u.add d).ns = u.ns + d.toInt := by
      obtain h | ⟨-, h⟩ := add_cases u d
      · exact h
      · have hrange'' := (u.add d).nsec_range
        simp only [ns, second] at *
        omega
    omega
  · rw [if_neg fun h => heq (equal_iff.mp h)]
    -- an exact difference that fits would have been found
    have hfits : ¬ (-2 ^ 63 ≤ t.ns - u.ns ∧ t.ns - u.ns < 2 ^ 63) := by
      intro ⟨h, h'⟩
      rw [Int.bmod_eq_of_le (by omega) (by omega)] at hmod
      obtain h | ⟨h, -⟩ := add_cases u d
      · omega
      · simp only [ns, second] at *
        omega
    by_cases hb : t.ns < u.ns
    · rw [if_pos (before_iff.mpr hb), show minDuration.toInt = -2 ^ 63 by decide]
      omega
    · rw [if_neg fun h => hb (before_iff.mp h), show maxDuration.toInt = 2 ^ 63 - 1 by decide]
      omega

end Time

end Go
