import MiniBanking.Go.Duration
import MiniBanking.Go.JsonText
import Mathlib.Data.List.TakeWhile

/-!
# Times in JSON

`encoding/json` writes a `time.Time` as its RFC 3339 text with up to nine digits of a fraction,
and refuses a year of more than four digits. Reading the text of a time gives the time back.

## Main definitions

* `days`: the number of a day of the Gregorian calendar, the inverse of `civil`
* `Time.rfc3339Nano`: `Format(time.RFC3339Nano)` of a UTC time
* `parseRFC3339`: the strict parser of `UnmarshalJSON`
* `Time.encodable`, `Time.json`, `Json.intoTime`: a time into JSON and from it

## Main results

* `days_civil`, `dayOfMonth_bounds`: `civil` gives a date of the calendar, and the right one
* `intoTime_json`: a time is read back from its JSON
-/

namespace Go

/-! ## The calendar -/

/-- The year has a 29th of February. -/
def isLeap (year : ℤ) : Bool := year % 4 = 0 && (year % 100 ≠ 0 || year % 400 = 0)

/-- The number of days of a month. -/
def daysIn (year month : ℤ) : ℤ :=
  if month = 2 then (if isLeap year then 29 else 28)
  else if month = 4 ∨ month = 6 ∨ month = 9 ∨ month = 11 then 30
  else 31

/-- The number of a date, counted in days from the epoch. -/
def days (year month dayOfMonth : ℤ) : ℤ :=
  -- years that start on 1 March
  let y := if month ≤ 2 then year - 1 else year
  let mp := if month ≤ 2 then month + 9 else month - 3
  let yoe := y % 400
  let doy := (153 * mp + 2) / 5 + dayOfMonth - 1
  y / 400 * 146097 + (365 * yoe + yoe / 4 - yoe / 100 + doy) - 719468

/-- A day of an era of 400 years: its century, cycle of four years, year, and day of the year. -/
structure DayOfEra (doe c f y doy : ℤ) : Prop where
  century : 0 ≤ c ∧ c ≤ 3
  cycle : 0 ≤ f ∧ f ≤ 24
  year : 0 ≤ y ∧ y ≤ 3
  doy_bounds : 0 ≤ doy ∧ doy ≤ 365
  /-- Only a leap year has a last day. -/
  last : doy = 365 → y = 3 ∧ (f < 24 ∨ c = 3)
  sum : doe = 36524 * c + 1461 * f + 365 * y + doy

theorem exists_dayOfEra {doe : ℤ} (h : 0 ≤ doe) (h' : doe < 146097) :
    ∃ c f y doy, DayOfEra doe c f y doy := by
  -- the last century of an era has one day more
  obtain ⟨c, r, hc, hr, hdoe⟩ : ∃ c r, (0 ≤ c ∧ c ≤ 3) ∧ (0 ≤ r ∧ r ≤ 36524 ∧ (r = 36524 → c = 3)) ∧
      doe = 36524 * c + r := by
    by_cases hlast : doe = 146096
    · exact ⟨3, 36524, by omega, by omega, by omega⟩
    · exact ⟨doe / 36524, doe % 36524, by omega, by omega, by omega⟩
  obtain ⟨f, s, hf, hs, hr'⟩ : ∃ f s, (0 ≤ f ∧ f ≤ 24) ∧ (0 ≤ s ∧ s ≤ 1460) ∧
      r = 1461 * f + s := ⟨r / 1461, r % 1461, by omega, by omega, by omega⟩
  by_cases hleap : s = 1460
  · exact ⟨c, f, 3, 365, ⟨hc, hf, by omega, by omega, by omega, by omega⟩⟩
  · refine ⟨c, f, s / 365, s % 365, ⟨hc, hf, by omega, by omega, by omega, by omega⟩⟩

/-- The year of an era that `civil` computes. -/
theorem DayOfEra.yoe {doe c f y doy : ℤ} (h : DayOfEra doe c f y doy) :
    (doe - doe / 1460 + doe / 36524 - doe / 146096) / 365 = 100 * c + 4 * f + y := by
  obtain ⟨hc, hf, hy, hdoy, hlast, hsum⟩ := h
  have h₁ : doe / 146096 = if c = 3 ∧ f = 24 ∧ y = 3 ∧ doy = 365 then 1 else 0 := by
    split_ifs <;> omega
  have h₂ : doe / 36524 = if c = 3 ∧ f = 24 ∧ y = 3 ∧ doy = 365 then 4 else c := by
    split_ifs <;> omega
  split_ifs at h₁ h₂
  · omega
  rw [h₁, h₂]
  -- the days before a cycle of four years are not quite 1460 for each
  have h₃ : doe / 1460 = 25 * c + f ∨ doe / 1460 = 25 * c + f + 1 := by omega
  rcases h₃ with h₃ | h₃
  · omega
  · omega

/-- The day of the year that `civil` computes. -/
theorem DayOfEra.doy {doe c f y doy : ℤ} (h : DayOfEra doe c f y doy) :
    doe - (365 * (100 * c + 4 * f + y) + (100 * c + 4 * f + y) / 4 -
      (100 * c + 4 * f + y) / 100) = doy := by
  obtain ⟨hc, hf, hy, -, -, hsum⟩ := h
  have h₁ : (100 * c + 4 * f + y) / 4 = 25 * c + f := by omega
  have h₂ : (100 * c + 4 * f + y) / 100 = c := by omega
  rw [h₁, h₂]
  omega

/-- A day as `civil` takes it apart. -/
theorem civil_eq (n : ℤ) : ∃ era c f y doy mp, DayOfEra ((n + 719468) % 146097) c f y doy ∧
    n + 719468 = era * 146097 + (36524 * c + 1461 * f + 365 * y + doy) ∧
    mp = (5 * doy + 2) / 153 ∧
    civil n = (100 * c + 4 * f + y + era * 400 + if mp < 10 then 0 else 1,
      if mp < 10 then mp + 3 else mp - 9, doy - (153 * mp + 2) / 5 + 1) := by
  obtain ⟨c, f, y, doy, hday⟩ := exists_dayOfEra
    (Int.emod_nonneg (n + 719468) (by decide : (146097 : ℤ) ≠ 0))
    (Int.emod_lt_of_pos (n + 719468) (by decide : (0 : ℤ) < 146097))
  refine ⟨(n + 719468) / 146097, c, f, y, doy, (5 * doy + 2) / 153, hday, ?_, rfl, ?_⟩
  · rw [← hday.sum, Int.ediv_mul_add_emod]
  have hyoe := hday.yoe
  have hdoy := hday.doy
  have hmonth : (if (if (5 * doy + 2) / 153 < 10 then (5 * doy + 2) / 153 + 3
      else (5 * doy + 2) / 153 - 9) ≤ 2 then (1 : ℤ) else 0) =
      if (5 * doy + 2) / 153 < 10 then 0 else 1 := by
    have := hday.doy_bounds
    split_ifs <;> omega
  simp only [civil, hyoe, hdoy, hmonth]

/-- **The calendar is right**: the date of a day has its number. -/
theorem days_civil (n : ℤ) : days (civil n).1 (civil n).2.1 (civil n).2.2 = n := by
  obtain ⟨era, c, f, y, doy, mp, ⟨hc, hf, hy, hdoy, -, -⟩, hn, hmp, heq⟩ := civil_eq n
  rw [heq]
  have hyoe : (100 * c + 4 * f + y + era * 400) % 400 = 100 * c + 4 * f + y := by omega
  have hera : (100 * c + 4 * f + y + era * 400) / 400 = era := by omega
  have h₁ : (100 * c + 4 * f + y) / 4 = 25 * c + f := by omega
  have h₂ : (100 * c + 4 * f + y) / 100 = c := by omega
  have hmp' : 0 ≤ mp ∧ mp ≤ 11 := by omega
  simp only [days]
  by_cases hm : mp < 10
  · rw [if_pos hm, if_pos hm, if_neg (by omega), if_neg (by omega), add_zero, hyoe, hera, h₁, h₂]
    omega
  · rw [if_neg hm, if_neg hm, if_pos (by omega), if_pos (by omega), add_sub_cancel_right, hyoe,
      hera, h₁, h₂]
    omega

theorem month_bounds (n : ℤ) : 1 ≤ (civil n).2.1 ∧ (civil n).2.1 ≤ 12 := by
  obtain ⟨era, c, f, y, doy, mp, ⟨-, -, -, hdoy, -, -⟩, -, hmp, heq⟩ := civil_eq n
  rw [heq]
  dsimp only
  split_ifs <;> omega

theorem isLeap_iff {year : ℤ} :
    isLeap year = true ↔ year % 4 = 0 ∧ (year % 100 ≠ 0 ∨ year % 400 = 0) := by
  simp [isLeap]

/-- **A date is in its month.** -/
theorem dayOfMonth_bounds (n : ℤ) :
    1 ≤ (civil n).2.2 ∧ (civil n).2.2 ≤ daysIn (civil n).1 (civil n).2.1 := by
  obtain ⟨era, c, f, y, doy, mp, ⟨hc, hf, hy, hdoy, hlast, -⟩, hn, hmp, heq⟩ := civil_eq n
  rw [heq]
  dsimp only
  refine ⟨by omega, ?_⟩
  unfold daysIn
  by_cases hfeb : mp = 11
  · -- February is the last month of such a year
    subst hfeb
    simp only [show ¬ (11 : ℤ) < 10 by decide, if_false]
    rw [if_pos (by decide)]
    by_cases hleap : doy = 365
    · rw [if_pos (isLeap_iff.mpr (by omega))]
      omega
    · split_ifs <;> omega
  · clear hn hlast hc hf hy
    split_ifs <;> omega

/-! ## Decimal numbers of a fixed width -/

/-- Reads a number of so many digits. -/
def readDigits : ℕ → ℕ → List Char → Option (ℕ × List Char)
  | 0, n, cs => some (n, cs)
  | width + 1, n, c :: cs =>
    if c.isDigit then readDigits width (10 * n + (c.toNat - '0'.toNat)) cs else none
  | _ + 1, _, [] => none

/-- As many digits are read as there are. -/
theorem readDigits_append {cs : List Char} (h : ∀ c ∈ cs, c.isDigit = true) (n : ℕ)
    (ds : List Char) :
    readDigits cs.length n (cs ++ ds) = some (Nat.ofDigitChars 10 cs n, ds) := by
  induction cs generalizing n with
  | nil => rfl
  | cons c cs ih =>
    rw [List.length_cons, List.cons_append, readDigits, if_pos (h c List.mem_cons_self),
      ih (fun c hc => h c (List.mem_cons_of_mem _ hc)), Nat.ofDigitChars_cons]

theorem length_padded {width n : ℕ} (hpos : 0 < width) (h : n < 10 ^ width) :
    (padded width n).toList.length = width := by
  have hlen := (Nat.length_toDigits_le_iff (by decide) hpos).mpr h
  simp only [padded, String.toList_ofList, List.length_append, List.length_replicate]
  omega

theorem isDigit_padded {width n : ℕ} {c : Char} (h : c ∈ (padded width n).toList) :
    c.isDigit = true := by
  rw [padded, String.toList_ofList, List.mem_append] at h
  rcases h with h | h
  · rw [(List.mem_replicate.mp h).2]
    decide
  · exact Nat.isDigit_of_mem_toDigits (by decide) (by decide) h

theorem ofDigitChars_padded (width n : ℕ) :
    Nat.ofDigitChars 10 (padded width n).toList 0 = n := by
  rw [padded, String.toList_ofList, Nat.ofDigitChars_append, Nat.ofDigitChars_replicate_zero,
    Nat.mul_zero, Nat.ofDigitChars_ten_toDigits]

/-- **A number of a fixed width is read back.** -/
theorem readDigits_padded {width n : ℕ} (hpos : 0 < width) (h : n < 10 ^ width) (cs : List Char) :
    readDigits width 0 ((padded width n).toList ++ cs) = some (n, cs) := by
  have hdigits : ∀ c ∈ (padded width n).toList, c.isDigit = true := fun c hc => isDigit_padded hc
  have hread := readDigits_append hdigits 0 cs
  rwa [length_padded hpos h, ofDigitChars_padded] at hread

/-! ## Texts of times -/

namespace Time

theorem eq_of {t u : Time} (hsec : t.sec = u.sec) (hnsec : t.nsec = u.nsec) : t = u := by
  cases t
  cases u
  congr

/-- The number of the UTC day, counted from the epoch. -/
def unixDay (t : Time) : ℤ := (t.sec.toInt - unixToInternal.toInt) / 86400

/-- The seconds of the UTC day. -/
def secOfDay (t : Time) : ℕ := ((t.sec.toInt - unixToInternal.toInt) % 86400).toNat

/-- `Format(time.RFC3339Nano)` of a UTC time. -/
def rfc3339Nano (t : Time) : String :=
  let (year, month, dayOfMonth) := civil t.unixDay
  let s := t.secOfDay
  padded 4 year.toNat ++ "-" ++ padded 2 month.toNat ++ "-" ++ padded 2 dayOfMonth.toNat ++
    "T" ++ padded 2 (s / 3600) ++ ":" ++ padded 2 (s / 60 % 60) ++ ":" ++ padded 2 (s % 60) ++
    fraction t.nsec.toNat ++ "Z"

end Time

/-- Reads one character. -/
def expect (c : Char) : List Char → Option (List Char)
  | c' :: cs => if c = c' then some cs else none
  | [] => none

/-- Reads a number of two digits that is at most `most`. -/
def readTwo (most : ℕ) (cs : List Char) : Option (ℕ × List Char) := do
  let (n, cs) ← readDigits 2 0 cs
  if n ≤ most then some (n, cs) else none

/-- `parseNanoseconds`: the fraction of a second, which may be missing, to nine digits. -/
def readFraction : List Char → Option (ℕ × List Char)
  | '.' :: cs =>
    match cs.span Char.isDigit with
    | ([], _) => none
    | (ds, cs) =>
      let ds := ds.take 9
      some (Nat.ofDigitChars 10 ds 0 * 10 ^ (9 - ds.length), cs)
  | cs => some (0, cs)

/-- The offset of a time zone in seconds, at the end of a text. -/
def readZone : List Char → Option ℤ
  | ['Z'] => some 0
  | sign :: cs => do
    let unit : ℤ ← if sign = '+' then some 1 else if sign = '-' then some (-1) else none
    let (h, cs) ← readTwo 23 cs
    let cs ← expect ':' cs
    let (m, cs) ← readTwo 59 cs
    if cs = [] then some (unit * (3600 * h + 60 * m)) else none
  | [] => none

/-- `parseStrictRFC3339`. -/
def parseRFC3339 (s : String) : Option Time := do
  let (year, cs) ← readDigits 4 0 s.toList
  let cs ← expect '-' cs
  let (month, cs) ← readTwo 12 cs
  let cs ← expect '-' cs
  let (dayOfMonth, cs) ← readTwo (daysIn year month).toNat cs
  let cs ← expect 'T' cs
  let (hour, cs) ← readTwo 23 cs
  let cs ← expect ':' cs
  let (minute, cs) ← readTwo 59 cs
  let cs ← expect ':' cs
  let (sec, cs) ← readTwo 59 cs
  let (nsec, cs) ← readFraction cs
  let offset ← readZone cs
  if h : month ≠ 0 ∧ dayOfMonth ≠ 0 ∧ (nsec : ℤ) < second then
    return {
      sec := .ofInt (86400 * days year month dayOfMonth + 3600 * hour + 60 * minute + sec - offset +
        unixToInternal.toInt)
      nsec := nsec
      nsec_range := ⟨Int.natCast_nonneg _, h.2.2⟩ }
  else none

/-- The year of a time has four digits. -/
def Time.encodable (t : Time) : Bool :=
  let year := (civil t.unixDay).1
  0 ≤ year && year ≤ 9999

/-- The JSON of a time. -/
def Time.json (t : Time) : Json := .string t.rfc3339Nano

/-- `UnmarshalJSON` of a value into a time. -/
def Json.intoTime (v : Json) (old : Time) : Option Time :=
  match v with
  | .null => some old
  | .string s => parseRFC3339 s
  | _ => none

/-! ## The text of a time is read back -/

theorem readTwo_padded {most n : ℕ} (hmost : most < 100) (h : n ≤ most) (cs : List Char) :
    readTwo most ((padded 2 n).toList ++ cs) = some (n, cs) := by
  rw [readTwo, readDigits_padded (by decide) (by omega)]
  exact if_pos h

/-- What is left of some digits without the zeros at their end, and these zeros. -/
theorem exists_trailing (cs : List Char) :
    ∃ k, cs = (cs.reverse.dropWhile (· = '0')).reverse ++ List.replicate k '0' := by
  have hzeros : ∀ c ∈ (cs.reverse.takeWhile (· = '0')).reverse, c = '0' := by
    intro c hc
    simpa using List.mem_takeWhile_imp (List.mem_reverse.mp hc)
  refine ⟨(cs.reverse.takeWhile (· = '0')).reverse.length, ?_⟩
  rw [← List.eq_replicate_of_mem hzeros, ← List.reverse_append, List.takeWhile_append_dropWhile,
    List.reverse_reverse]

/-- **A fraction is read back.** -/
theorem readFraction_fraction {ns : ℕ} (h : ns < 10 ^ 9) :
    readFraction ((fraction ns).toList ++ ['Z']) = some (ns, ['Z']) := by
  by_cases hzero : ns = 0
  · rw [hzero]
    decide
  have hlen := length_padded (by decide) h
  have hval := ofDigitChars_padded 9 ns
  have hdigit : ∀ c ∈ (padded 9 ns).toList, c.isDigit = true := fun c hc => isDigit_padded hc
  obtain ⟨k, hk⟩ := exists_trailing (padded 9 ns).toList
  rw [fraction, if_neg hzero]
  simp only [String.toList_append, String.toList_ofList]
  generalize ((padded 9 ns).toList.reverse.dropWhile (· = '0')).reverse = ds at hk ⊢
  rw [hk] at hlen hval hdigit
  rw [List.length_append, List.length_replicate] at hlen
  rw [Nat.ofDigitChars_append, Nat.ofDigitChars_replicate_zero] at hval
  have hds : ∀ c ∈ ds, c.isDigit = true := fun c hc => hdigit c (List.mem_append_left _ hc)
  have hspan : (ds ++ ['Z']).span Char.isDigit = (ds, ['Z']) := by
    rw [List.span_eq_takeWhile_dropWhile, List.takeWhile_append_of_pos hds,
      List.dropWhile_append_of_pos hds]
    simp [List.takeWhile, List.dropWhile]
  cases hds' : ds with
  | nil =>
    -- no digit is left of a number that is not zero
    rw [hds', Nat.ofDigitChars_nil, Nat.mul_zero] at hval
    exact absurd hval.symm hzero
  | cons d ds₀ =>
    rw [← hds']
    have htake : ds.take 9 = ds := List.take_of_length_le (by omega)
    have hk' : 9 - ds.length = k := by omega
    rw [show ".".toList = ['.'] from rfl, List.append_assoc, List.singleton_append, readFraction,
      hspan]
    rw [hds'] at htake hk' hval ⊢
    simp only [htake, hk', Nat.mul_comm _ (10 ^ k), hval]

/-- **A time is read back from its text.** -/
theorem parseRFC3339_rfc3339Nano {t : Time}
    (h : 0 ≤ (civil t.unixDay).1 ∧ (civil t.unixDay).1 ≤ 9999) :
    parseRFC3339 t.rfc3339Nano = some t := by
  have hmonth := month_bounds t.unixDay
  have hday := dayOfMonth_bounds t.unixDay
  have hdays := days_civil t.unixDay
  have hdaysIn : daysIn (civil t.unixDay).1 (civil t.unixDay).2.1 ≤ 31 := by
    unfold daysIn
    split_ifs <;> decide
  obtain ⟨hns, hns'⟩ := t.nsec_range
  have hns' : t.nsec < 1000000000 := hns'
  have hsec : t.secOfDay < 86400 := by
    have := Int.emod_lt_of_pos (t.sec.toInt - unixToInternal.toInt) (by decide : (0 : ℤ) < 86400)
    unfold Time.secOfDay
    omega
  rw [parseRFC3339, Time.rfc3339Nano]
  generalize hcivil : civil t.unixDay = date at *
  obtain ⟨year, month, dayOfMonth⟩ := date
  obtain ⟨year, rfl⟩ := Int.eq_ofNat_of_zero_le h.1
  dsimp only at *
  obtain ⟨month, rfl⟩ := Int.eq_ofNat_of_zero_le (le_trans (by decide) hmonth.1)
  obtain ⟨dayOfMonth, rfl⟩ := Int.eq_ofNat_of_zero_le (le_trans (by decide) hday.1)
  -- the parts of the text, each with what follows it
  have hyear := fun cs => @readDigits_padded 4 year (by decide) (by omega) cs
  have hmon := fun cs => @readTwo_padded 12 month (by decide) (by omega) cs
  have hdom := fun cs => @readTwo_padded (daysIn year month).toNat dayOfMonth
    (by omega) (by omega) cs
  have hhour := fun cs => @readTwo_padded 23 (t.secOfDay / 3600) (by decide)
    (by omega) cs
  have hmin := fun cs => @readTwo_padded 59 (t.secOfDay / 60 % 60) (by decide)
    (by omega) cs
  have hsecs := fun cs => @readTwo_padded 59 (t.secOfDay % 60) (by decide)
    (by omega) cs
  have hfrac : readFraction ((fraction t.nsec.toNat).toList ++ ['Z']) =
      some (t.nsec.toNat, ['Z']) := readFraction_fraction (by omega)
  have htext : ∀ c cs, expect c (c :: cs) = some cs := fun c cs => if_pos rfl
  have hzone : readZone ['Z'] = some 0 := rfl
  simp only [String.toList_append, Int.toNat_natCast, List.append_assoc,
    show "-".toList = ['-'] from rfl, show "T".toList = ['T'] from rfl,
    show ":".toList = [':'] from rfl, show "Z".toList = ['Z'] from rfl, List.singleton_append]
  -- each part is read in its turn
  refine Option.bind_eq_some_iff.mpr ⟨_, hyear _, ?_⟩
  refine Option.bind_eq_some_iff.mpr ⟨_, htext _ _, ?_⟩
  refine Option.bind_eq_some_iff.mpr ⟨_, hmon _, ?_⟩
  refine Option.bind_eq_some_iff.mpr ⟨_, htext _ _, ?_⟩
  refine Option.bind_eq_some_iff.mpr ⟨_, hdom _, ?_⟩
  refine Option.bind_eq_some_iff.mpr ⟨_, htext _ _, ?_⟩
  refine Option.bind_eq_some_iff.mpr ⟨_, hhour _, ?_⟩
  refine Option.bind_eq_some_iff.mpr ⟨_, htext _ _, ?_⟩
  refine Option.bind_eq_some_iff.mpr ⟨_, hmin _, ?_⟩
  refine Option.bind_eq_some_iff.mpr ⟨_, htext _ _, ?_⟩
  refine Option.bind_eq_some_iff.mpr ⟨_, hsecs _, ?_⟩
  refine Option.bind_eq_some_iff.mpr ⟨_, hfrac, ?_⟩
  refine Option.bind_eq_some_iff.mpr ⟨_, hzone, ?_⟩
  rw [dif_pos ⟨by omega, by omega, by unfold second; omega⟩]
  have hsum : 86400 * t.unixDay + t.secOfDay = t.sec.toInt - unixToInternal.toInt := by
    have := Int.emod_add_mul_ediv (t.sec.toInt - unixToInternal.toInt) 86400
    have := Int.emod_nonneg (t.sec.toInt - unixToInternal.toInt) (by decide : (86400 : ℤ) ≠ 0)
    unfold Time.unixDay Time.secOfDay
    omega
  refine congrArg some (Time.eq_of ?_ (Int.toNat_of_nonneg hns))
  dsimp only
  have hparts : 86400 * days year month dayOfMonth + 3600 * ((t.secOfDay / 3600 : ℕ) : ℤ) +
      60 * ((t.secOfDay / 60 % 60 : ℕ) : ℤ) + ((t.secOfDay % 60 : ℕ) : ℤ) - 0 +
        unixToInternal.toInt = t.sec.toInt := by
    rw [hdays]
    omega
  rw [hparts, Int64.ofInt_toInt]

/-- **A time is read back from its JSON.** -/
theorem intoTime_json {t : Time} (h : t.encodable = true) (old : Time) :
    t.json.intoTime old = some t := by
  simp only [Time.encodable, Bool.and_eq_true, decide_eq_true_eq] at h
  exact parseRFC3339_rfc3339Nano h

end Go
