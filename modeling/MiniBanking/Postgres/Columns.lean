import MiniBanking.Go.Text

/-!
# Column types

What Postgres makes of a parameter that is stored in, or compared with, a column.

## Main definitions

* `textIn`, `varcharIn`, `bigintIn`: the input of `text`, `varchar(n)` and `bigint`
* `Text`, `Varchar`: what such columns hold
* `nullif`, `coalesce`: a column that is `NULL` where a text is empty
* `Uuid`, `uuidIn`, `Uuid.text`: the type `uuid`, its input and its output
* `Rounding`: how a `timestamptz` keeps a time that is finer than a microsecond

## Main results

* `varcharIn_eq`, `length_of_varcharIn`: what a `varchar(n)` column stores
* `coalesce_nullif`: what is read back is what was written, if the column keeps it
* `uuidIn_text`: the text of a `uuid` is read back as that `uuid`
-/

namespace Postgres

open Go

/-- `text` refuses the character NUL. -/
def textIn (s : String) : Option String := if s.toList.contains '\x00' then none else some s

/-- `varchar(n)`: a value of more than `n` characters is refused, unless the rest is blank. -/
def varcharIn (n : ℕ) (s : String) : Option String :=
  (textIn s).bind fun s =>
    if s.toList.length ≤ n then some s
    else if (s.toList.drop n).all (· = ' ') then some (String.ofList (s.toList.take n))
    else none

theorem textIn_eq {s t : String} (h : textIn s = some t) : t = s := by
  unfold textIn at h
  split at h
  · cases h
  · exact (Option.some.inj h).symm

/-- What a `varchar(n)` column stores fits it. -/
theorem length_of_varcharIn {n : ℕ} {s t : String} (h : varcharIn n s = some t) :
    t.toList.length ≤ n := by
  obtain ⟨s', -, h⟩ := Option.bind_eq_some_iff.mp h
  split at h
  · next hlen => exact Option.some.inj h ▸ hlen
  split at h
  · cases h
    simp
  · cases h

/-- A value that fits is stored as it is. -/
theorem varcharIn_eq {n : ℕ} {s t : String} (h : varcharIn n s = some t)
    (hlen : s.toList.length ≤ n) : t = s := by
  obtain ⟨s', hs, h'⟩ := Option.bind_eq_some_iff.mp h
  rw [textIn_eq hs, if_pos hlen] at h'
  exact (Option.some.inj h').symm

/-- What a `varchar(n)` column stores it would store again. -/
theorem varcharIn_idem {n : ℕ} {s t : String} (h : varcharIn n s = some t) :
    varcharIn n t = some t := by
  have hlen := length_of_varcharIn h
  obtain ⟨s', hs, h'⟩ := Option.bind_eq_some_iff.mp h
  have hnul : '\x00' ∉ s.toList := by
    intro hmem
    simp [textIn, hmem] at hs
  have ht : textIn t = some t := by
    have hsub : ∀ c ∈ t.toList, c ∈ s.toList := by
      rw [textIn_eq hs] at h'
      split at h'
      · rw [Option.some.inj h']
        exact fun c hc => hc
      split at h'
      · rw [← Option.some.inj h', String.toList_ofList]
        exact fun c hc => List.mem_of_mem_take hc
      · cases h'
    have hnul' : '\x00' ∉ t.toList := fun hmem => hnul (hsub _ hmem)
    simp [textIn, hnul']
  rw [varcharIn, ht, Option.bind_some, if_pos hlen]

/-! ## What a column holds -/

/-- A value of a `text` column. -/
def Text := { s : String // textIn s = some s }

/-- A value of a `varchar(n)` column. -/
def Varchar (n : ℕ) := { s : String // varcharIn n s = some s }

/-- A value of a `varchar(n)` column with a check that it is one of some texts. -/
def Checked (n : ℕ) (values : List String) := { s : String // varcharIn n s = some s ∧ s ∈ values }

instance : DecidableEq Text := inferInstanceAs (DecidableEq { s : String // textIn s = some s })

instance (n : ℕ) : DecidableEq (Varchar n) :=
  inferInstanceAs (DecidableEq { s : String // varcharIn n s = some s })

instance (n : ℕ) (values : List String) : DecidableEq (Checked n values) :=
  inferInstanceAs (DecidableEq { s : String // varcharIn n s = some s ∧ s ∈ values })

/-- A parameter into a `text` column. -/
def Text.of (s : String) : Option Text :=
  if h : textIn s = some s then some ⟨s, h⟩ else none

/-- A parameter into a `varchar(n)` column. -/
def Varchar.of (n : ℕ) (s : String) : Option (Varchar n) :=
  match h : varcharIn n s with
  | some t => some ⟨t, varcharIn_idem h⟩
  | none => none

/-- A parameter into a `varchar(n)` column with a check. -/
def Checked.of (n : ℕ) (values : List String) (s : String) : Option (Checked n values) :=
  (Varchar.of n s).bind fun t => if h : t.1 ∈ values then some ⟨t.1, t.2, h⟩ else none

theorem Text.of_eq {s : String} {t : Text} (h : Text.of s = some t) : t.1 = s := by
  unfold Text.of at h
  split at h
  · rw [← Option.some.inj h]
  · cases h

theorem Varchar.of_eq {n : ℕ} {s : String} {t : Varchar n} (h : Varchar.of n s = some t) :
    varcharIn n s = some t.1 := by
  unfold Varchar.of at h
  split at h
  · next u hu => rw [hu, ← Option.some.inj h]
  · cases h

theorem Checked.of_eq {n : ℕ} {values : List String} {s : String} {t : Checked n values}
    (h : Checked.of n values s = some t) : varcharIn n s = some t.1 := by
  obtain ⟨u, hu, h'⟩ := Option.bind_eq_some_iff.mp h
  split at h'
  · rw [← Option.some.inj h']
    exact Varchar.of_eq hu
  · cases h'

/-- `NULLIF($n, '')` into a column. -/
def nullif {α : Type} (column : String → Option α) (s : String) : Option (Option α) :=
  if s = "" then some none else (column s).map some

/-- `COALESCE(column, '')` of a column with its text. -/
def coalesce {α : Type} (text : α → String) : Option α → String
  | some a => text a
  | none => ""

/-- What is read back is empty, or what the column made of the parameter. -/
theorem coalesce_nullif {α : Type} {column : String → Option α} {text : α → String} {s : String}
    {a : Option α} (h : nullif column s = some a) :
    (s = "" ∧ coalesce text a = "") ∨
      (s ≠ "" ∧ ∃ b, column s = some b ∧ coalesce text a = text b) := by
  unfold nullif at h
  split at h
  · next hs =>
    rw [← Option.some.inj h]
    exact .inl ⟨hs, rfl⟩
  · next hs =>
    obtain ⟨b, hb, rfl⟩ := Option.map_eq_some_iff.mp h
    exact .inr ⟨hs, b, hb, rfl⟩

/-- `bigint`: the result of an arithmetic operation must be in range. -/
def bigintIn (x : ℤ) : Option Int64 :=
  if -2 ^ 63 ≤ x ∧ x < 2 ^ 63 then some (Int64.ofInt x) else none

theorem toInt_of_bigintIn {x : ℤ} {n : Int64} (h : bigintIn x = some n) : n.toInt = x := by
  unfold bigintIn at h
  split at h
  · next hx =>
    cases h
    exact Int64.toInt_ofInt_of_le hx.1 hx.2
  · cases h

/-! ## Universally unique identifiers -/

/-- A `uuid`. -/
abbrev Uuid := Vector UInt8 16

/-- Reads the bytes from number `i` on while `n` are left. After every second byte but the last
one a hyphen may stand. -/
def bytesIn : (n i : ℕ) → List Char → Option (List UInt8 × List Char)
  | 0, _, s => some ([], s)
  | n + 1, i, c :: d :: s => do
    let hi ← hexValue c
    let lo ← hexValue d
    let s := if i % 2 = 1 ∧ n ≠ 0 then (match s with | '-' :: s => s | s => s) else s
    let (bytes, s) ← bytesIn n (i + 1) s
    return (UInt8.ofNat (16 * hi + lo) :: bytes, s)
  | _ + 1, _, _ => none

/-- The characters of the bytes from number `i` on: a hyphen after bytes 3, 5, 7 and 9. -/
def bytesText : (i : ℕ) → List UInt8 → List Char
  | _, [] => []
  | i, b :: bytes =>
    hexByte b ++ (if i ∈ [3, 5, 7, 9] then ['-'] else []) ++ bytesText (i + 1) bytes

/-- The input of `uuid`: sixteen bytes, in braces or not. -/
def uuidIn (s : String) : Option Uuid :=
  let (close, body) := match s.toList with
    | '{' :: body => (['}'], body)
    | body => ([], body)
  match bytesIn 16 0 body with
  | some (bytes, rest) =>
    if h : bytes.length = 16 ∧ rest = close then some ⟨bytes.toArray, by simpa using h.1⟩
    else none
  | none => none

/-- The output of `uuid`. -/
def Uuid.text (u : Uuid) : String := String.ofList (bytesText 0 u.toList)

example : (uuidIn "{A0EEBC99-9c0b4ef8-bb6d-6bb9bd380a11}").map Uuid.text =
    some "a0eebc99-9c0b-4ef8-bb6d-6bb9bd380a11" := by decide

theorem hexValue_hexDigit : ∀ n < 16, hexValue (hexDigit n) = some n := by decide

theorem hexDigit_ne_hyphen : ∀ n < 16, hexDigit n ≠ '-' := by decide

theorem hexDigit_ne_brace : ∀ n < 16, hexDigit n ≠ '{' := by decide

theorem byte_eq (b : UInt8) : UInt8.ofNat (16 * (b.toNat / 16) + b.toNat % 16) = b := by
  rw [Nat.div_add_mod, UInt8.ofNat_toNat]

/-- Text of bytes does not start with a hyphen. -/
theorem bytesText_match (i : ℕ) (b : UInt8) (bytes : List UInt8) :
    (match bytesText i (b :: bytes) with | '-' :: s => s | s => s) =
      bytesText i (b :: bytes) := by
  have hb := b.toNat_lt
  have hne := hexDigit_ne_hyphen (b.toNat / 16) (by omega)
  simp only [bytesText, hexByte, List.cons_append]
  split
  · next heq => exact absurd (List.cons.inj heq).1 hne
  · rfl

/-- Bytes are read back from their text. -/
theorem bytesIn_bytesText (bytes : List UInt8) (i : ℕ) (h : i + bytes.length = 16) :
    bytesIn bytes.length i (bytesText i bytes) = some (bytes, []) := by
  induction bytes generalizing i with
  | nil => rfl
  | cons b bytes ih =>
    have hb := b.toNat_lt
    have hhi := hexValue_hexDigit (b.toNat / 16) (by omega)
    have hlo := hexValue_hexDigit (b.toNat % 16) (by omega)
    rw [List.length_cons] at h
    have hrest : (if i % 2 = 1 ∧ bytes.length ≠ 0 then
        (match (if i ∈ [3, 5, 7, 9] then ['-'] else []) ++ bytesText (i + 1) bytes with
          | '-' :: s => s | s => s)
        else (if i ∈ [3, 5, 7, 9] then ['-'] else []) ++ bytesText (i + 1) bytes) =
        bytesText (i + 1) bytes := by
      by_cases hi : i ∈ [3, 5, 7, 9]
      · have hodd : i % 2 = 1 ∧ bytes.length ≠ 0 := by
          simp only [List.mem_cons, List.not_mem_nil, or_false] at hi
          omega
        rw [if_pos hodd, if_pos hi]
        rfl
      · rw [if_neg hi, List.nil_append]
        split
        · next hodd =>
          cases bytes with
          | nil => exact absurd rfl hodd.2
          | cons b' bytes => exact bytesText_match (i + 1) b' bytes
        · rfl
    simp only [bytesText, List.length_cons, hexByte, List.cons_append, List.nil_append, bytesIn,
      hhi, hlo, Option.bind_eq_bind, Option.bind_some, hrest, ih (i + 1) (by omega),
      Option.pure_def, byte_eq]

/-- **A `uuid` survives being printed and read.** -/
@[simp] theorem uuidIn_text (u : Uuid) : uuidIn u.text = some u := by
  obtain ⟨⟨bytes⟩, hsize⟩ := u
  have hlen : bytes.length = 16 := by simpa using hsize
  have hread := bytesIn_bytesText bytes 0 (by omega)
  rw [hlen] at hread
  have hbody : (match bytesText 0 bytes with
      | '{' :: body => (['}'], body) | body => ([], body)) =
      (([] : List Char), bytesText 0 bytes) := by
    cases bytes with
    | nil => rfl
    | cons b bytes =>
      have hb := b.toNat_lt
      have hne := hexDigit_ne_brace (b.toNat / 16) (by omega)
      simp only [bytesText, hexByte, List.cons_append]
      split
      · next heq => exact absurd (List.cons.inj heq).1 hne
      · rfl
  simp only [uuidIn, Uuid.text, Vector.toList, String.toList_ofList, hbody, hread]
  simp [hlen]

theorem Uuid.text_injective : Function.Injective Uuid.text := by
  intro u v h
  have := uuidIn_text u
  rw [h, uuidIn_text] at this
  exact (Option.some.inj this).symm

/-- The text of a `uuid` is never empty. -/
theorem Uuid.text_ne_empty (u : Uuid) : u.text ≠ "" := by
  intro h
  have := uuidIn_text u
  rw [h] at this
  exact absurd this (by rw [show uuidIn "" = none from by decide]; simp)

/-! ## Time -/

/-- How a time in nanoseconds is kept as microseconds: in order, and exactly when it is a whole
number of microseconds. -/
structure Rounding where
  toMicros : ℤ → ℤ
  mono : ∀ {t u}, t ≤ u → toMicros t ≤ toMicros u
  whole : ∀ μ, toMicros (1000 * μ) = μ

/-- The rest below a microsecond is cut off. -/
def Rounding.cut : Rounding where
  toMicros t := t / 1000
  mono h := Int.ediv_le_ediv (by decide) h
  whole μ := by omega

/-- The nearest microsecond, the later one from the middle. -/
def Rounding.nearest : Rounding where
  toMicros t := (t + 500) / 1000
  mono h := Int.ediv_le_ediv (by decide) (by omega)
  whole μ := by omega

end Postgres
