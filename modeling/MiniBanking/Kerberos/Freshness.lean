import MiniBanking.Go.Duration

/-!
# Freshness checks

The bank checks the timestamp of an authenticator, and the KDC the timestamp of a request, by the
absolute value of a duration. The difference saturates at the least duration, whose absolute
value overflows back to itself, so a timestamp far enough in the future is within any window.

## Main definitions

* `absDuration`, `stale`: the check of the bank
* `timestampWithinWindow`: the check of the KDC
* `Fresh`: the exact distance is within the window
* `Misjudged`: the timestamps on which the checks are wrong

## Main results

* `timestampWithinWindow_iff`, `stale_iff`: what the checks compute
* `freshness_exact`: they are exact on all timestamps but the misjudged ones
-/

namespace Kerberos

open Go

/-! ## The checks -/

/-- `freshnessWindow` of the bank: five minutes. -/
def freshnessWindow : Duration := 300000000000

/-- `absDuration`. -/
def absDuration (d : Duration) : Duration := if d < 0 then -d else d

/-- The bank rejects an authenticator with this timestamp as a stale request. -/
def stale (now : Time) (timestamp : Int64) : Bool :=
  freshnessWindow < absDuration (now.sub (.unix timestamp))

/-- `timestampWithinWindow`: a Unix timestamp is within a window of now. -/
def timestampWithinWindow (now : Time) (unixTs : Int64) (window : Duration) : Bool :=
  let delta := now.sub (.unix unixTs)
  let delta := if delta < 0 then -delta else delta
  delta ≤ window

/-! ## What they should say -/

/-- The exact distance from the timestamp to now is at most the window. -/
def Fresh (now : Instant) (timestamp : Int64) (window : Duration) : Prop :=
  |now.ns - timestamp.toInt * second| ≤ window.toInt

/-- The timestamp is so far in the future that the difference saturates, and not so far that
`time.Unix` wraps it into the past; or every difference is within the window. -/
def Misjudged (now : Instant) (timestamp : Int64) (window : Duration) : Prop :=
  (2 ^ 63 ≤ timestamp.toInt * second - now.ns ∧ timestamp.toInt < 2 ^ 63 - 62135596800) ∨
    (window = Time.maxDuration ∧ 2 ^ 63 ≤ |now.ns - timestamp.toInt * second|)

/-! ## Clock readings and timestamps -/

theorem toInt_internal : unixToInternal.toInt = 62135596800 := by decide

/-- A clock reading in seconds and nanoseconds is exact. -/
theorem sec_time (now : Instant) : now.time.sec.toInt = now.ns / second + 62135596800 := by
  obtain ⟨hle, hlt⟩ := now.real
  have hdiv : -2 ^ 63 ≤ now.ns / second ∧ now.ns / second < 2 ^ 62 := by
    rw [second]
    omega
  rw [Instant.time, Int64.toInt_add, Int64.toInt_ofInt_of_le hdiv.1 (by omega), toInt_internal]
  exact Int.bmod_eq_of_le (by omega) (by omega)

theorem ns_time (now : Instant) : now.time.ns = now.ns + 62135596800 * second := by
  have hdiv := Int.emod_add_mul_ediv now.ns second
  rw [Time.ns, sec_time, Instant.time]
  simp only [second] at hdiv ⊢
  omega

theorem near_time (now : Instant) : now.time.Near := by
  obtain ⟨hle, hlt⟩ := now.real
  rw [Time.Near, sec_time, second]
  omega

/-- The time of a timestamp is exact, or was wrapped into the past. -/
theorem ns_unix_cases (timestamp : Int64) :
    (timestamp.toInt < 2 ^ 63 - 62135596800 ∧
      (Time.unix timestamp).ns = (timestamp.toInt + 62135596800) * second) ∨
    (2 ^ 63 - 62135596800 ≤ timestamp.toInt ∧
      (Time.unix timestamp).ns = (timestamp.toInt + 62135596800 - 2 ^ 64) * second) := by
  have hle := timestamp.le_toInt
  obtain ⟨heq, -, hlt⟩ | ⟨heq, hge⟩ | ⟨heq, hlt⟩ :=
    Time.toInt_add_cases timestamp unixToInternal <;> rw [toInt_internal] at *
  · exact .inl ⟨by omega, by rw [Time.ns, Time.unix, heq, add_zero]⟩
  · exact .inr ⟨by omega, by rw [Time.ns, Time.unix, heq, add_zero]⟩
  · omega

/-- **The difference the checks look at** is the exact one, the least duration for timestamps too
far in the future, and the greatest one for timestamps too far in the past or wrapped there. -/
theorem sub_unix_cases (now : Instant) (timestamp : Int64) :
    let d := now.ns - timestamp.toInt * second
    let delta := (now.time.sub (.unix timestamp)).toInt
    (-2 ^ 63 < d ∧ d < 2 ^ 63 ∧ delta = d) ∨
    (d ≤ -2 ^ 63 ∧ timestamp.toInt < 2 ^ 63 - 62135596800 ∧ delta = -2 ^ 63) ∨
    ((2 ^ 63 ≤ d ∨ (d ≤ -2 ^ 63 ∧ 2 ^ 63 - 62135596800 ≤ timestamp.toInt)) ∧
      delta = 2 ^ 63 - 1) := by
  intro d delta
  obtain ⟨hle, hlt⟩ := now.real
  have hts := timestamp.toInt_lt
  have hsub : delta = _ := Time.toInt_sub (near_time now) (.unix timestamp)
  rw [ns_time] at hsub
  obtain ⟨hwrap, hunix⟩ | ⟨hwrap, hunix⟩ := ns_unix_cases timestamp
  · rw [hunix] at hsub
    simp only [second, d] at hsub ⊢
    omega
  · rw [hunix] at hsub
    simp only [second, d] at hsub ⊢
    omega

/-! ## The checks are exact where they do not overflow -/

theorem toInt_abs_cases (d : Duration) :
    (d.toInt = -2 ^ 63 ∧ (if d < 0 then -d else d).toInt = -2 ^ 63) ∨
    (-2 ^ 63 < d.toInt ∧ (if d < 0 then -d else d).toInt = |d.toInt|) := by
  have hle := d.le_toInt
  have hlt := d.toInt_lt
  have hneg : d < 0 ↔ d.toInt < 0 := Int64.lt_iff_toInt_lt
  split
  · next h =>
    rw [Int64.toInt_neg]
    by_cases hmin : d.toInt = -2 ^ 63
    · exact .inl ⟨hmin, by rw [hmin]; decide⟩
    · have hlow : -2 ^ 63 < d.toInt := by omega
      have hexact : (-d.toInt).bmod (2 ^ 64) = -d.toInt :=
        Int.bmod_eq_of_le (by omega) (by have := hneg.mp h; omega)
      exact .inr ⟨hlow, by rw [hexact, abs_of_neg (hneg.mp h)]⟩
  · next h =>
    have hnonneg : 0 ≤ d.toInt := Int.not_lt.mp fun h' => h (hneg.mpr h')
    exact .inr ⟨by omega, (abs_of_nonneg hnonneg).symm⟩

/-- The check of the KDC passes exactly on fresh timestamps and on misjudged ones. -/
theorem timestampWithinWindow_iff (now : Instant) (timestamp : Int64) (window : Duration) :
    timestampWithinWindow now.time timestamp window ↔
      Fresh now timestamp window ∨ Misjudged now timestamp window := by
  have hle := window.le_toInt
  have hlt := window.toInt_lt
  have hmax : window = Time.maxDuration ↔ window.toInt = 2 ^ 63 - 1 := by
    rw [← Int64.toInt_inj, show Time.maxDuration.toInt = 2 ^ 63 - 1 by decide]
  rw [timestampWithinWindow, decide_eq_true_eq, Int64.le_iff_toInt_le, Fresh, Misjudged, hmax]
  have hneg := neg_sub now.ns (timestamp.toInt * second)
  generalize timestamp.toInt * second - now.ns = e at hneg ⊢
  obtain ⟨hmin, habs⟩ | ⟨hmin, habs⟩ := toInt_abs_cases (now.time.sub (.unix timestamp)) <;>
    rw [habs]
  · obtain ⟨h, h', hd⟩ | ⟨h, h', -⟩ | ⟨-, hd⟩ := sub_unix_cases now timestamp
    · omega
    · exact iff_of_true hle (.inr (.inl ⟨by omega, h'⟩))
    · omega
  · obtain ⟨h, h', hd⟩ | ⟨h, h', hd⟩ | ⟨h, hd⟩ := sub_unix_cases now timestamp
    · rw [hd]
      have := abs_lt.mpr ⟨h, h'⟩
      omega
    · omega
    · rw [hd, show |(2 : ℤ) ^ 63 - 1| = 2 ^ 63 - 1 by decide]
      have : 2 ^ 63 ≤ |now.ns - timestamp.toInt * second| := le_abs.mpr (by omega)
      omega

/-- A misjudged timestamp is not fresh. -/
theorem Misjudged.not_fresh {now : Instant} {timestamp : Int64} {window : Duration}
    (h : Misjudged now timestamp window) : ¬ Fresh now timestamp window := by
  have hlt := window.toInt_lt
  rw [Fresh]
  obtain ⟨h, -⟩ | ⟨-, h⟩ := h
  · rw [abs_sub_comm]
    have := le_abs_self (timestamp.toInt * second - now.ns)
    omega
  · omega

/-- The check of the bank is that of the KDC with the bank's window. -/
theorem stale_iff (now : Instant) (timestamp : Int64) :
    stale now.time timestamp = false ↔
      timestampWithinWindow now.time timestamp freshnessWindow := by
  rw [stale, decide_eq_false_iff_not, Int64.not_lt, timestampWithinWindow, decide_eq_true_eq,
    absDuration]

/-- **Freshness is exact on all timestamps but the misjudged ones.** For every clock reading,
every timestamp and every window, the check of the KDC passes if and only if the exact distance
is within the window, exactly when the timestamp is not misjudged; and so does the check of the
bank with its own window. -/
theorem freshness_exact (now : Instant) (timestamp : Int64) (window : Duration) :
    ((timestampWithinWindow now.time timestamp window ↔ Fresh now timestamp window) ↔
      ¬ Misjudged now timestamp window) ∧
    ((stale now.time timestamp = false ↔ Fresh now timestamp freshnessWindow) ↔
      ¬ Misjudged now timestamp freshnessWindow) := by
  have hexact : ∀ w, (timestampWithinWindow now.time timestamp w ↔ Fresh now timestamp w) ↔
      ¬ Misjudged now timestamp w := by
    intro w
    rw [timestampWithinWindow_iff]
    constructor
    · intro h hbad
      exact hbad.not_fresh (h.mp (.inr hbad))
    · intro h
      exact or_iff_left h
  exact ⟨hexact window, by rw [stale_iff]; exact hexact freshnessWindow⟩

/-- An authenticator of the year 2603 passes both checks in 2023. -/
theorem freshness_exact_of_2603 :
    ¬ ∀ (now : Instant) (timestamp : Int64),
      (timestampWithinWindow now.time timestamp freshnessWindow ↔
        Fresh now timestamp freshnessWindow) ∧
      (stale now.time timestamp = false ↔ Fresh now timestamp freshnessWindow) := by
  intro h
  have hpasses : stale (Instant.time ⟨1700000000000000000, by decide⟩) 20000000000 = false := by
    decide
  have hfresh := (h ⟨1700000000000000000, by decide⟩ 20000000000).2.mp hpasses
  exact absurd hfresh (by rw [Fresh]; decide)

end Kerberos
