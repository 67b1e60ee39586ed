import Mathlib.Data.List.Basic
import Mathlib.Data.List.DropRight
import Mathlib.Data.String.Basic
import Mathlib.Data.Nat.Digits.Defs

/-!
# Strings and bytes of the Go standard library

## Main definitions

* `utf8`, `encode`: the bytes of a string and of its characters
* `hex`, `decodeHex`: `encoding/hex`
* `base64`, `decodeBase64`: the standard padded alphabet of `encoding/base64`
* `padded`: a number in decimal, padded with zeros (`%0Nd`)
* `trimSpace`: `strings.TrimSpace`

## Main results

* `utf8_injective`: the bytes determine the string
* `hex_length`, `isHexDigit_of_mem_hex`: what hexadecimal text looks like
* `hex_injective`: hexadecimal text determines the bytes
* `utf8EncodeChar_cases`: the bytes of a character
* `decodeBase64_base64`: bytes are read back from base64
* `trimSpace_trimSpace`: a trimmed text is not trimmed again
-/

namespace Go

/-- The bytes of a string. -/
def utf8 (s : String) : List UInt8 := s.toByteArray.data.toList

theorem utf8_injective : Function.Injective utf8 := by
  intro s t h
  have hdata : s.toByteArray.data = t.toByteArray.data := Array.toList_inj.mp h
  exact String.toByteArray_inj.mp (ByteArray.ext hdata)

/-- The bytes of characters. -/
def encode (cs : List Char) : List UInt8 := cs.flatMap String.utf8EncodeChar

theorem utf8_ofList (cs : List Char) : utf8 (String.ofList cs) = encode cs := by
  simp [utf8, encode, String.toByteArray_ofList, List.utf8Encode, List.data_toByteArray]

theorem encode_injective : Function.Injective encode := by
  intro cs ds h
  rw [← utf8_ofList, ← utf8_ofList] at h
  exact String.ofList_injective (utf8_injective h)

@[simp] theorem encode_nil : encode [] = [] := rfl

@[simp] theorem encode_cons (c : Char) (cs : List Char) :
    encode (c :: cs) = String.utf8EncodeChar c ++ encode cs := rfl

@[simp] theorem encode_append (cs ds : List Char) : encode (cs ++ ds) = encode cs ++ encode ds :=
  List.flatMap_append ..

theorem toNat_byte {n : ℕ} (h : n < 256) : (UInt8.ofNat n).toNat = n := by
  simp only [UInt8.toNat_ofNat']
  omega

/-- A character is not half of a surrogate pair. -/
theorem toNat_char (c : Char) : c.toNat < 0xD800 ∨ (0xDFFF < c.toNat ∧ c.toNat < 0x110000) :=
  c.valid

/-- The bytes of a character, by their numbers. -/
theorem utf8EncodeChar_cases (c : Char) :
    (c.toNat < 0x80 ∧ ∃ b, String.utf8EncodeChar c = [b] ∧ b.toNat = c.toNat) ∨
    (0x80 ≤ c.toNat ∧ c.toNat < 0x800 ∧ ∃ b b₁, String.utf8EncodeChar c = [b, b₁] ∧
      b.toNat = 0xC0 + c.toNat / 64 ∧ b₁.toNat = 0x80 + c.toNat % 64) ∨
    (0x800 ≤ c.toNat ∧ c.toNat < 0x10000 ∧ ∃ b b₁ b₂, String.utf8EncodeChar c = [b, b₁, b₂] ∧
      b.toNat = 0xE0 + c.toNat / 4096 ∧ b₁.toNat = 0x80 + c.toNat / 64 % 64 ∧
      b₂.toNat = 0x80 + c.toNat % 64) ∨
    (0x10000 ≤ c.toNat ∧ ∃ b b₁ b₂ b₃, String.utf8EncodeChar c = [b, b₁, b₂, b₃] ∧
      b.toNat = 0xF0 + c.toNat / 262144 ∧ b₁.toNat = 0x80 + c.toNat / 4096 % 64 ∧
      b₂.toNat = 0x80 + c.toNat / 64 % 64 ∧ b₃.toNat = 0x80 + c.toNat % 64) := by
  have hvalid := toNat_char c
  unfold String.utf8EncodeChar
  simp only [← Char.toNat_val] at hvalid ⊢
  generalize c.val.toNat = n at *
  split
  · refine .inl ⟨by omega, _, rfl, toNat_byte (by omega)⟩
  split
  · refine .inr (.inl ⟨by omega, by omega, _, _, rfl, ?_, ?_⟩) <;>
      rw [toNat_byte (by omega)] <;> omega
  split
  · refine .inr (.inr (.inl ⟨by omega, by omega, _, _, _, rfl, ?_, ?_, ?_⟩)) <;>
      rw [toNat_byte (by omega)] <;> omega
  · refine .inr (.inr (.inr ⟨by omega, _, _, _, _, rfl, ?_, ?_, ?_, ?_⟩)) <;>
      rw [toNat_byte (by omega)] <;> omega

theorem encode_ascii {c : Char} (h : c.toNat < 0x80) :
    String.utf8EncodeChar c = [.ofNat c.toNat] := by
  unfold String.utf8EncodeChar
  exact if_pos (Nat.le_of_lt_succ h)

/-! ## Hexadecimal -/

/-- The lower-case digit for `n < 16`. -/
def hexDigit (n : ℕ) : Char := Char.ofNat (if n < 10 then 48 + n else 87 + n)

/-- A lower-case hexadecimal digit. -/
def isHexDigit (c : Char) : Bool := ('0' ≤ c && c ≤ '9') || ('a' ≤ c && c ≤ 'f')

/-- The two digits of a byte. -/
def hexByte (b : UInt8) : List Char := [hexDigit (b.toNat / 16), hexDigit (b.toNat % 16)]

/-- `hex.EncodeToString`. -/
def hex (bytes : List UInt8) : String := String.ofList (bytes.flatMap hexByte)

theorem isHexDigit_hexDigit : ∀ n < 16, isHexDigit (hexDigit n) = true := by decide

theorem hex_length (bytes : List UInt8) : (hex bytes).toList.length = 2 * bytes.length := by
  induction bytes with
  | nil => rfl
  | cons b bytes ih =>
    simp only [hex, String.toList_ofList] at ih ⊢
    rw [List.flatMap_cons, List.length_append, ih, List.length_cons]
    simp only [hexByte, List.length_cons, List.length_nil]
    omega

theorem isHexDigit_of_mem_hex {bytes : List UInt8} {c : Char} (h : c ∈ (hex bytes).toList) :
    isHexDigit c = true := by
  simp only [hex, String.toList_ofList, List.mem_flatMap, hexByte, List.mem_cons,
    List.not_mem_nil, or_false] at h
  obtain ⟨b, -, rfl | rfl⟩ := h
  · exact isHexDigit_hexDigit _ (by have := b.toNat_lt; omega)
  · exact isHexDigit_hexDigit _ (by omega)

theorem hexDigit_injective : ∀ m < 16, ∀ n < 16, hexDigit m = hexDigit n → m = n := by decide

/-- The bytes are determined by their text. -/
theorem hex_injective : Function.Injective hex := by
  intro as bs h
  replace h : as.flatMap hexByte = bs.flatMap hexByte := String.ofList_injective h
  induction as generalizing bs with
  | nil =>
    cases bs with
    | nil => rfl
    | cons b bs => simp [hexByte] at h
  | cons a as ih =>
    cases bs with
    | nil => simp [hexByte] at h
    | cons b bs =>
      simp only [List.flatMap_cons, hexByte, List.cons_append, List.nil_append,
        List.cons.injEq] at h
      have ha := a.toNat_lt
      have hb := b.toNat_lt
      have hhi := hexDigit_injective _ (by omega) _ (by omega) h.1
      have hlo := hexDigit_injective _ (by omega) _ (by omega) h.2.1
      have hab : a = b := UInt8.toNat_inj.mp (by omega)
      rw [hab, ih h.2.2]

/-! ## Base64 -/

/-- The character for `n < 64` in the standard alphabet. -/
def base64Digit (n : ℕ) : Char :=
  Char.ofNat (if n < 26 then 65 + n else if n < 52 then 71 + n else if n < 62 then n - 4
    else if n = 62 then 43 else 47)

/-- The characters of `base64.StdEncoding.EncodeToString`: four for three bytes, with padding. -/
def base64Chars : List UInt8 → List Char
  | [] => []
  | [a] => [base64Digit (a.toNat / 4), base64Digit (a.toNat % 4 * 16), '=', '=']
  | [a, b] => [base64Digit (a.toNat / 4), base64Digit (a.toNat % 4 * 16 + b.toNat / 16),
      base64Digit (b.toNat % 16 * 4), '=']
  | a :: b :: c :: rest =>
      base64Digit (a.toNat / 4) :: base64Digit (a.toNat % 4 * 16 + b.toNat / 16) ::
      base64Digit (b.toNat % 16 * 4 + c.toNat / 64) :: base64Digit (c.toNat % 64) ::
      base64Chars rest

/-- `base64.StdEncoding.EncodeToString`. -/
def base64 (bytes : List UInt8) : String := String.ofList (base64Chars bytes)

example : base64 (utf8 "any carnal pleas") = "YW55IGNhcm5hbCBwbGVhcw==" := by decide

/-- The number of a character of the standard alphabet. -/
def base64Value (c : Char) : Option ℕ :=
  if 'A' ≤ c && c ≤ 'Z' then some (c.toNat - 65)
  else if 'a' ≤ c && c ≤ 'z' then some (c.toNat - 71)
  else if '0' ≤ c && c ≤ '9' then some (c.toNat + 4)
  else if c = '+' then some 62
  else if c = '/' then some 63
  else none

/-- The bytes of base64 characters in groups of four. The bits that no byte takes may be
anything. -/
def base64Bytes : List Char → Option (List UInt8)
  | [] => some []
  | [a, b, '=', '='] => do
    let (a, b) := (← base64Value a, ← base64Value b)
    return [.ofNat (a * 4 + b / 16)]
  | [a, b, c, '='] => do
    let (a, b, c) := (← base64Value a, ← base64Value b, ← base64Value c)
    return [.ofNat (a * 4 + b / 16), .ofNat (b % 16 * 16 + c / 4)]
  | a :: b :: c :: d :: rest => do
    let (a, b, c, d) := (← base64Value a, ← base64Value b, ← base64Value c, ← base64Value d)
    return .ofNat (a * 4 + b / 16) :: .ofNat (b % 16 * 16 + c / 4) :: .ofNat (c % 4 * 64 + d) ::
      (← base64Bytes rest)
  | _ => none

/-- `base64.StdEncoding.DecodeString`, which ignores line breaks. -/
def decodeBase64 (s : String) : Option (List UInt8) :=
  base64Bytes (s.toList.filter fun c => c != '\n' && c != '\r')

example : decodeBase64 "YW55IGNhcm5hbCBwbGVhcw==" = some (utf8 "any carnal pleas") := by decide

theorem base64Value_digit : ∀ n < 64, base64Value (base64Digit n) = some n := by decide

theorem base64Digit_ne : ∀ n < 64, base64Digit n ≠ '=' ∧ base64Digit n ≠ '\n' ∧
    base64Digit n ≠ '\r' := by decide

/-- Bytes are read back from their characters. -/
theorem base64Bytes_base64Chars (bs : List UInt8) : base64Bytes (base64Chars bs) = some bs := by
  have hbyte : ∀ (b : UInt8) n, n = b.toNat → UInt8.ofNat n = b := by
    rintro b _ rfl
    exact UInt8.ofNat_toNat
  induction bs using base64Chars.induct with
  | case1 => rfl
  | case2 a =>
    have ha := a.toNat_lt
    simp only [base64Chars, base64Bytes, base64Value_digit _ (show a.toNat / 4 < 64 by omega),
      base64Value_digit _ (show a.toNat % 4 * 16 < 64 by omega), Option.bind_eq_bind,
      Option.bind_some, Option.pure_def]
    rw [hbyte a _ (by omega)]
  | case3 a b =>
    have ha := a.toNat_lt
    have hb := b.toNat_lt
    have hc := (base64Digit_ne (b.toNat % 16 * 4) (by omega)).1
    rw [base64Chars, base64Bytes]
    · simp only [base64Value_digit _ (show a.toNat / 4 < 64 by omega),
        base64Value_digit _ (show a.toNat % 4 * 16 + b.toNat / 16 < 64 by omega),
        base64Value_digit _ (show b.toNat % 16 * 4 < 64 by omega), Option.bind_eq_bind,
        Option.bind_some, Option.pure_def]
      rw [hbyte a _ (by omega), hbyte b _ (by omega)]
    · exact fun h => hc h
  | case4 a b c rest ih =>
    have ha := a.toNat_lt
    have hb := b.toNat_lt
    have hc := c.toNat_lt
    have hd := (base64Digit_ne (c.toNat % 64) (by omega)).1
    rw [base64Chars, base64Bytes]
    · simp only [base64Value_digit _ (show a.toNat / 4 < 64 by omega),
        base64Value_digit _ (show a.toNat % 4 * 16 + b.toNat / 16 < 64 by omega),
        base64Value_digit _ (show b.toNat % 16 * 4 + c.toNat / 64 < 64 by omega),
        base64Value_digit _ (show c.toNat % 64 < 64 by omega), ih, Option.bind_eq_bind,
        Option.bind_some, Option.pure_def]
      rw [hbyte a _ (by omega), hbyte b _ (by omega), hbyte c _ (by omega)]
    · exact fun _ h => absurd h hd
    · exact fun h => absurd h hd

theorem mem_base64Chars {bs : List UInt8} {c : Char} (h : c ∈ base64Chars bs) :
    c = '=' ∨ ∃ n < 64, c = base64Digit n := by
  induction bs using base64Chars.induct with
  | case1 => cases h
  | case2 a =>
    have ha := a.toNat_lt
    simp only [base64Chars, List.mem_cons, List.not_mem_nil, or_false] at h
    rcases h with rfl | rfl | rfl | rfl
    · exact .inr ⟨_, by omega, rfl⟩
    · exact .inr ⟨_, by omega, rfl⟩
    · exact .inl rfl
    · exact .inl rfl
  | case3 a b =>
    have ha := a.toNat_lt
    have hb := b.toNat_lt
    simp only [base64Chars, List.mem_cons, List.not_mem_nil, or_false] at h
    rcases h with rfl | rfl | rfl | rfl
    · exact .inr ⟨_, by omega, rfl⟩
    · exact .inr ⟨_, by omega, rfl⟩
    · exact .inr ⟨_, by omega, rfl⟩
    · exact .inl rfl
  | case4 a b d rest ih =>
    have ha := a.toNat_lt
    have hb := b.toNat_lt
    have hd := d.toNat_lt
    simp only [base64Chars, List.mem_cons] at h
    rcases h with rfl | rfl | rfl | rfl | h
    · exact .inr ⟨_, by omega, rfl⟩
    · exact .inr ⟨_, by omega, rfl⟩
    · exact .inr ⟨_, by omega, rfl⟩
    · exact .inr ⟨_, by omega, rfl⟩
    · exact ih h

/-- **Bytes are read back from base64.** -/
theorem decodeBase64_base64 (bs : List UInt8) : decodeBase64 (base64 bs) = some bs := by
  have hkeep : ∀ c ∈ base64Chars bs, (c != '\n' && c != '\r') = true := by
    intro c hc
    obtain rfl | ⟨n, hn, rfl⟩ := mem_base64Chars hc
    · rfl
    · obtain ⟨-, hne, hne'⟩ := base64Digit_ne n hn
      simp [hne, hne']
  rw [decodeBase64, base64, String.toList_ofList, List.filter_eq_self.mpr hkeep,
    base64Bytes_base64Chars]

/-- The number of a hexadecimal digit, in either case. -/
def hexValue (c : Char) : Option ℕ :=
  if '0' ≤ c ∧ c ≤ '9' then some (c.toNat - 48)
  else if 'a' ≤ c ∧ c ≤ 'f' then some (c.toNat - 87)
  else if 'A' ≤ c ∧ c ≤ 'F' then some (c.toNat - 55)
  else none

/-- The bytes of hexadecimal characters. -/
def hexBytes : List Char → Option (List UInt8)
  | [] => some []
  | a :: b :: rest => do
    return .ofNat ((← hexValue a) * 16 + (← hexValue b)) :: (← hexBytes rest)
  | _ => none

/-- `hex.DecodeString`. -/
def decodeHex (s : String) : Option (List UInt8) := hexBytes s.toList

/-! ## Decimal -/

/-- `n` in decimal, padded with zeros to at least `width` digits. -/
def padded (width n : ℕ) : String :=
  String.ofList (List.replicate (width - (Nat.toDigits 10 n).length) '0' ++ Nat.toDigits 10 n)

example : padded 4 37 = "0037" := by decide

/-! ## Space -/

/-- `unicode.IsSpace`. -/
def isSpace (c : Char) : Bool :=
  let n := c.toNat
  (9 ≤ n && n ≤ 13) || n = 0x20 || n = 0x85 || n = 0xA0 || n = 0x1680 ||
    (0x2000 ≤ n && n ≤ 0x200A) || n = 0x2028 || n = 0x2029 || n = 0x202F || n = 0x205F ||
    n = 0x3000

/-- `strings.TrimSpace`. -/
def trimSpace (s : String) : String :=
  String.ofList ((s.toList.dropWhile isSpace).reverse.dropWhile isSpace).reverse

example : trimSpace " a b\n" = "a b" := by decide

/-- The last character of a trimmed text is no space. -/
theorem getLast?_trimSpace {s : String} {c : Char} (h : (trimSpace s).toList.getLast? = some c) :
    isSpace c = false := by
  rw [trimSpace, String.toList_ofList, List.getLast?_reverse] at h
  have := List.head?_dropWhile_not isSpace (s.toList.dropWhile isSpace).reverse
  rw [h] at this
  exact this

theorem trimSpace_trimSpace (s : String) : trimSpace (trimSpace s) = trimSpace s := by
  have htrim : ∀ s, trimSpace s =
      String.ofList ((s.toList.dropWhile isSpace).rdropWhile isSpace) := fun _ => rfl
  rw [htrim, htrim, String.toList_ofList]
  -- what is left begins as the text begins after its spaces
  have hhead : ((s.toList.dropWhile isSpace).rdropWhile isSpace).dropWhile isSpace =
      (s.toList.dropWhile isSpace).rdropWhile isSpace := by
    refine List.dropWhile_eq_self_iff.mpr fun hpos => ?_
    have hle := List.rdropWhile_prefix isSpace (s.toList.dropWhile isSpace)
    rw [hle.getElem hpos]
    have := List.dropWhile_get_zero_not isSpace s.toList (hpos.trans_le hle.length_le)
    simpa using this
  rw [hhead, List.rdropWhile_idempotent]

end Go
