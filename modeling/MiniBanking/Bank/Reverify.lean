import MiniBanking.Bank.DailyLimit
import MiniBanking.Bank.Ledger
import MiniBanking.Go.Rfc3339
import MiniBanking.Kerberos.Freshness

/-!
# Rows that verify themselves

The hash of a transaction covers the time its clock reading shows, down to the nanosecond. The
column keeps whole microseconds, and the text of what it keeps is another one unless the reading
was a whole number of them.

## Main definitions

* `Go.Time.ofMicros`: what is read back from a `timestamptz` column
* `columnInput`: the text that a reader of the row takes the hash of

## Main results

* `rfc3339Nano_toMicros`: when the time that is read back has the text of the clock reading
* `row_reverifies`: a row has the hash of its columns exactly if its clock reading was a whole
  number of microseconds
-/

/-! ## Times that are read back -/

namespace Go

open Kerberos Postgres

theorem nanoseconds_range (micros : ℤ) :
    0 ≤ micros % 1000000 * 1000 ∧ micros % 1000000 * 1000 < second := by
  rw [second]
  omega

/-- The time, in UTC, of so many microseconds since the epoch. -/
def Time.ofMicros (micros : ℤ) : Time :=
  ⟨.ofInt (micros / 1000000) + unixToInternal, micros % 1000000 * 1000, nanoseconds_range micros⟩

/-- The microseconds that a clock reading is rounded to are one of the two next to it. -/
theorem toMicros_bounds (rounding : Rounding) (ns : ℤ) :
    ns / 1000 ≤ rounding.toMicros ns ∧ rounding.toMicros ns ≤ ns / 1000 + 1 := by
  have hlow := rounding.mono (show 1000 * (ns / 1000) ≤ ns by omega)
  have hhigh := rounding.mono (show ns ≤ 1000 * (ns / 1000 + 1) by omega)
  rw [rounding.whole] at hlow hhigh
  exact ⟨hlow, hhigh⟩

theorem sec_ofMicros {micros : ℤ} (h : -2 ^ 62 ≤ micros ∧ micros < 2 ^ 62) :
    (Time.ofMicros micros).sec.toInt = micros / 1000000 + 62135596800 := by
  rw [Time.ofMicros, Int64.toInt_add, Int64.toInt_ofInt_of_le (by omega) (by omega),
    toInt_internal]
  exact Int.bmod_eq_of_le (by omega) (by omega)

/-- The text of a clock reading is the text of its time. -/
theorem Instant.rfc3339Nano_eq (t : Instant) : t.rfc3339Nano = t.time.rfc3339Nano := by
  have hsec : t.time.sec.toInt - unixToInternal.toInt = t.ns / second := by
    rw [sec_time, toInt_internal, add_sub_cancel_right]
  have hday : t.time.unixDay = day t.ns := by
    rw [Time.unixDay, hsec, day, dayLength, second]
    omega
  have hsecs : t.time.secOfDay = (t.ns % dayLength / second).toNat := by
    rw [Time.secOfDay, hsec, dayLength, second]
    refine congrArg Int.toNat ?_
    omega
  rw [Instant.rfc3339Nano, Time.rfc3339Nano, hday, hsecs]
  rfl

/-- The days around the epoch are in years of four digits. -/
theorem year_bounds {n : ℤ} (h : -200000 ≤ n ∧ n ≤ 200000) :
    0 ≤ (civil n).1 ∧ (civil n).1 ≤ 9999 := by
  obtain ⟨era, c, f, y, doy, mp, ⟨hc, hf, hy, hdoy, -, -⟩, hn, hmp, heq⟩ := civil_eq n
  rw [heq]
  dsimp only
  split_ifs <;> omega

/-- The text shows a time of our days. -/
theorem eq_of_rfc3339Nano {t u : Time}
    (ht : -200000 ≤ t.unixDay ∧ t.unixDay ≤ 200000)
    (hu : -200000 ≤ u.unixDay ∧ u.unixDay ≤ 200000) (h : t.rfc3339Nano = u.rfc3339Nano) :
    t = u := by
  have hparse := parseRFC3339_rfc3339Nano (year_bounds ht)
  rw [h, parseRFC3339_rfc3339Nano (year_bounds hu)] at hparse
  exact (Option.some.inj hparse).symm

/-- **What is read back has the text of the clock reading** exactly if no part of the reading was
rounded. -/
theorem rfc3339Nano_toMicros (rounding : Rounding) (t : Instant) :
    (Time.ofMicros (rounding.toMicros t.ns)).rfc3339Nano = t.rfc3339Nano ↔ t.ns % 1000 = 0 := by
  obtain ⟨hle, hlt⟩ := t.real
  obtain ⟨hlow, hhigh⟩ := toMicros_bounds rounding t.ns
  have hsec := @sec_ofMicros (rounding.toMicros t.ns) (by omega)
  rw [Instant.rfc3339Nano_eq]
  constructor
  · intro h
    have hours : -200000 ≤ t.time.unixDay ∧ t.time.unixDay ≤ 200000 := by
      rw [Time.unixDay, sec_time, toInt_internal, second]
      omega
    have hread : -200000 ≤ (Time.ofMicros (rounding.toMicros t.ns)).unixDay ∧
        (Time.ofMicros (rounding.toMicros t.ns)).unixDay ≤ 200000 := by
      rw [Time.unixDay, hsec, toInt_internal]
      omega
    -- the times are the same, so the nanoseconds of the reading are whole microseconds
    have hnsec := congrArg Time.nsec (eq_of_rfc3339Nano hread hours h)
    have hnsec : rounding.toMicros t.ns % 1000000 * 1000 = t.ns % 1000000000 := hnsec
    omega
  · intro h
    have hwhole : rounding.toMicros t.ns = t.ns / 1000 := by
      have hns := rounding.whole (t.ns / 1000)
      rwa [Int.mul_ediv_cancel' (Int.dvd_of_emod_eq_zero h)] at hns
    refine congrArg Time.rfc3339Nano (Time.eq_of ?_ ?_)
    · rw [← Int64.toInt_inj, hsec, sec_time, hwhole, second]
      omega
    · show rounding.toMicros t.ns % 1000000 * 1000 = t.ns % 1000000000
      omega

end Go

namespace Bank

open Concurrency Go Postgres

/-! ## Rows -/

/-- The text that a reader of the row takes the hash of, from its columns alone. -/
def columnInput (t : Transaction) : String :=
  t.previousHash ++ t.payloadHash ++ t.clientSignature ++ t.id.text ++
    (Time.ofMicros t.createdAt).rfc3339Nano

/-- The hash of the columns is the one in the row. -/
def Reverifies (svc : Service) (t : Transaction) : Prop :=
  svc.hexHash (utf8 (columnInput t)) = t.currentHash

instance (svc : Service) (t : Transaction) : Decidable (Reverifies svc t) :=
  inferInstanceAs (Decidable (_ = _))

/-- The columns have the text that was hashed exactly if no part of the clock reading was
rounded. -/
theorem columnInput_eq_iff {rounding : Rounding} {t : Transaction}
    (hcreated : t.createdAt = rounding.toMicros t.sentAt.ns) :
    columnInput t = hashInput t ↔ t.sentAt.ns % 1000 = 0 := by
  rw [← rfc3339Nano_toMicros rounding, ← hcreated, columnInput, hashInput]
  constructor
  · intro h
    have hlists := congrArg String.toList h
    simp only [String.toList_append] at hlists
    exact String.toList_inj.mp (List.append_cancel_left hlists)
  · intro h
    rw [h]

/-- **A row can be verified from its columns exactly if its clock reading was a whole number of
microseconds**, if SHA-256 has no collision between the two texts. -/
theorem row_reverifies (svc : Service) (rounding : Rounding) (clock : Instant)
    (s : State (serviceMachine svc rounding)) (h : Reachable (Env.initial clock) s)
    (t : Transaction) (ht : t ∈ s.env.db.transactions)
    (hfree : svc.sha256 (utf8 (columnInput t)) = svc.sha256 (utf8 (hashInput t)) →
      columnInput t = hashInput t) :
    Reverifies svc t ↔ t.sentAt.ns % 1000 = 0 := by
  have hhistory := (service_kept svc rounding).history h
  have hhash := hhistory.chained.2 t ht
  have hcreated := hhistory.limited.created t ht
  rw [← columnInput_eq_iff hcreated, Reverifies, hhash]
  constructor
  · intro heq
    exact hfree (Vector.toList_inj.mp (hex_injective heq))
  · intro heq
    rw [heq]

/-- The row of the sample payment, at a whole number of seconds, can be verified. -/
theorem row_reverifies_of_samplePaid : ∃ s : State (serviceMachine sampleService .cut),
    s.env.db.transactions.map (·.amount) = [250] ∧
      ∀ t ∈ s.env.db.transactions, Reverifies sampleService t := by
  have hruns : (runAll sampleStart samplePaid).map
      (fun s => (s.env.db.transactions.map (·.amount), s.env.db.transactions.map (·.sentAt.ns),
        s.env.db.transactions.map fun t => decide (columnInput t = hashInput t))) =
      some ([250], [1700000000000000000], [true]) := by decide +kernel
  obtain ⟨s, hs, hview⟩ := steps_of_view hruns
  obtain ⟨hamounts, hview⟩ := Prod.mk.inj hview
  obtain ⟨hclocks, hinputs⟩ := Prod.mk.inj hview
  refine ⟨s, hamounts, fun t ht => ?_⟩
  have hclock : t.sentAt.ns = 1700000000000000000 :=
    List.mem_singleton.mp (hclocks ▸ List.mem_map_of_mem ht)
  have hinput : decide (columnInput t = hashInput t) = true :=
    List.mem_singleton.mp (hinputs ▸ List.mem_map_of_mem ht)
  exact (row_reverifies sampleService .cut sampleClock s ⟨_, hs⟩ t ht
    fun _ => of_decide_eq_true hinput).mpr (by rw [hclock]; rfl)

/-- A nanosecond later, it cannot. -/
theorem row_not_reverified : ¬ ∀ (svc : Service) (rounding : Rounding) (clock : Instant)
    (s : State (serviceMachine svc rounding)), Reachable (Env.initial clock) s →
      ∀ t ∈ s.env.db.transactions, Reverifies svc t := by
  intro hall
  have hruns : (runAll sampleStart (.tick ⟨1700000000000000001, by decide⟩ :: samplePaid)).map
      (fun s => s.env.db.transactions.map fun t => decide (Reverifies sampleService t)) =
      some [false] := by decide +kernel
  obtain ⟨s, hs, hview⟩ := steps_of_view hruns
  obtain ⟨t, hrow, hfails⟩ := List.map_eq_singleton_iff.mp hview
  have hmem : t ∈ s.env.db.transactions := hrow ▸ List.mem_singleton_self t
  exact of_decide_eq_false hfails (hall sampleService .cut sampleClock s ⟨_, hs⟩ t hmem)

end Bank
