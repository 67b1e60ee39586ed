import MiniBanking.Go.Text

/-!
# Texts in JavaScript

What JavaScript makes of texts and bytes: blanks, `TextDecoder`, `atob` and numbers.

## Main definitions

* `toLowerCase`, `trim`, `orElse`: parts of a text
* `textDecode`: `TextDecoder.decode`, which replaces what is no UTF-8
* `atob`: the bytes of a base64 text
* `roundNat`, `numberText`: natural numbers as numbers of 53 bits, and their texts

## Main results

* `atob_base64Chars`: bytes are read back from base64
-/

namespace Js

open Go hiding isSpace

/-! ## Parts of a text -/

/-- `toLowerCase`, of a text whose capital letters are in ASCII. -/
def toLowerCase (s : String) : String := String.ofList (s.toList.map Char.toLower)

/-- The characters that `trim` removes. -/
def isSpace (c : Char) : Bool :=
  let n := c.toNat
  (9 ≤ n && n ≤ 13) || n = 0x20 || n = 0xA0 || n = 0x1680 || (0x2000 ≤ n && n ≤ 0x200A) ||
    n = 0x2028 || n = 0x2029 || n = 0x202F || n = 0x205F || n = 0x3000 || n = 0xFEFF

/-- `trim` -/
def trim (s : String) : String :=
  String.ofList ((s.toList.dropWhile isSpace).reverse.dropWhile isSpace).reverse

/-- `a || b` of texts. -/
def orElse (a b : String) : String := if a = "" then b else a

/-! ## UTF-8 -/

/-- What the decoder of UTF-8 has read of a character: how many bytes are missing, the bits so far,
and between which bounds the next byte must be. -/
structure Pending where
  missing : ℕ := 0
  bits : ℕ := 0
  lower : ℕ := 0x80
  upper : ℕ := 0xBF

/-- The first byte of a character. -/
def Pending.first (b : ℕ) : List Char × Pending :=
  if b ≤ 0x7F then ([.ofNat b], {})
  else if 0xC2 ≤ b ∧ b ≤ 0xDF then ([], { missing := 1, bits := b % 32 })
  else if 0xE0 ≤ b ∧ b ≤ 0xEF then
    ([], { missing := 2, bits := b % 16, lower := if b = 0xE0 then 0xA0 else 0x80,
           upper := if b = 0xED then 0x9F else 0xBF })
  else if 0xF0 ≤ b ∧ b ≤ 0xF4 then
    ([], { missing := 3, bits := b % 8, lower := if b = 0xF0 then 0x90 else 0x80,
           upper := if b = 0xF4 then 0x8F else 0xBF })
  else (['\uFFFD'], {})

/-- One more byte, and the characters that are complete. -/
def Pending.read (p : Pending) (b : ℕ) : List Char × Pending :=
  if p.missing = 0 then first b
  else if p.lower ≤ b ∧ b ≤ p.upper then
    let bits := p.bits * 64 + b % 64
    if p.missing = 1 then ([.ofNat bits], {})
    else ([], { missing := p.missing - 1, bits })
  else
    -- a byte that does not belong here begins a character
    let (cs, q) := first b
    ('\uFFFD' :: cs, q)

/-- The characters of some bytes, with a replacement for what is no UTF-8. -/
def Pending.decode (p : Pending) : List UInt8 → List Char
  | [] => if p.missing = 0 then [] else ['\uFFFD']
  | b :: bytes =>
    let (cs, q) := p.read b.toNat
    cs ++ q.decode bytes

/-- `new TextDecoder().decode(bytes)`, which drops a byte order mark. -/
def textDecode (bytes : List UInt8) : String :=
  match Pending.decode {} bytes with
  | '\uFEFF' :: cs => String.ofList cs
  | cs => String.ofList cs

example : textDecode (utf8 "Đỗ 😀" ++ [0xE1, 0xBB, 0x41]) = "Đỗ 😀\uFFFDA" := by decide

theorem decode_encode_of_ascii {cs : List Char} (h : ∀ c ∈ cs, c.toNat < 128) :
    Pending.decode {} (encode cs) = cs := by
  induction cs with
  | nil => rfl
  | cons c cs ih =>
    obtain ⟨hc, hcs⟩ := List.forall_mem_cons.mp h
    have hbyte : (UInt8.ofNat c.toNat).toNat = c.toNat := toNat_byte (by omega)
    have hread : Pending.read {} c.toNat = ([c], {}) := by
      have hfirst : Pending.first c.toNat = ([.ofNat c.toNat], {}) := if_pos (by omega)
      rw [Char.ofNat_toNat] at hfirst
      exact (if_pos rfl).trans hfirst
    rw [encode_cons, encode_ascii hc, List.singleton_append, Pending.decode, hbyte, hread]
    exact congrArg (c :: ·) (ih hcs)

/-- **A text of ASCII characters is read back.** -/
theorem textDecode_encode {cs : List Char} (h : ∀ c ∈ cs, c.toNat < 128) :
    textDecode (encode cs) = String.ofList cs := by
  rw [textDecode, decode_encode_of_ascii h]
  split
  · next rest =>
    -- a byte order mark is no such character
    have hmark := h '\uFEFF' List.mem_cons_self
    exact absurd hmark (by decide)
  · rfl

/-! ## Base64 -/

/-- The bytes of the values of base64 characters. Of what is left over, the bits that fill no byte
are dropped. -/
def sextetBytes : List ℕ → Option (List UInt8)
  | [] => some []
  | [_] => none
  | [a, b] => some [.ofNat (a * 4 + b / 16)]
  | [a, b, c] => some [.ofNat (a * 4 + b / 16), .ofNat (b % 16 * 16 + c / 4)]
  | a :: b :: c :: d :: rest => do
    return .ofNat (a * 4 + b / 16) :: .ofNat (b % 16 * 16 + c / 4) :: .ofNat (c % 4 * 64 + d) ::
      (← sextetBytes rest)

/-- The characters without their padding: of a text whose length is a multiple of four, one or two
signs at the end. -/
def dropPadding (cs : List Char) : List Char :=
  if cs.length % 4 = 0 then
    match cs.reverse with
    | '=' :: '=' :: rest => rest.reverse
    | '=' :: rest => rest.reverse
    | _ => cs
  else cs

/-- `atob` of a text without blanks; `none` if it throws. -/
def atob (cs : List Char) : Option (List UInt8) := do
  sextetBytes (← (dropPadding cs).mapM base64Value)

example : atob "aGVsbG8".toList = some (utf8 "hello") := by decide

/-- The values of the base64 characters of some bytes. -/
def sextets : List UInt8 → List ℕ
  | [] => []
  | [a] => [a.toNat / 4, a.toNat % 4 * 16]
  | [a, b] => [a.toNat / 4, a.toNat % 4 * 16 + b.toNat / 16, b.toNat % 16 * 4]
  | a :: b :: c :: rest => a.toNat / 4 :: (a.toNat % 4 * 16 + b.toNat / 16) ::
      (b.toNat % 16 * 4 + c.toNat / 64) :: c.toNat % 64 :: sextets rest

theorem length_base64Chars (bs : List UInt8) : (base64Chars bs).length % 4 = 0 := by
  induction bs using base64Chars.induct with
  | case1 => rfl
  | case2 | case3 => simp [base64Chars]
  | case4 a b c rest ih =>
    simp only [base64Chars, List.length_cons]
    omega

/-- Four characters that are no padding stay before what is left of the others. -/
theorem dropPadding_cons {w x y z : Char} {cs : List Char} (hz : z ≠ '=')
    (hlen : cs.length % 4 = 0) :
    dropPadding (w :: x :: y :: z :: cs) = w :: x :: y :: z :: dropPadding cs := by
  have hlen' : (w :: x :: y :: z :: cs).length % 4 = 0 := by
    simp only [List.length_cons]
    omega
  have hrev : (w :: x :: y :: z :: cs).reverse = cs.reverse ++ [z, y, x, w] := by simp
  rw [dropPadding, dropPadding, if_pos hlen, if_pos hlen', hrev]
  rcases hcs : cs.reverse with _ | ⟨p, _ | ⟨q, r⟩⟩
  · obtain rfl : cs = [] := List.reverse_eq_nil_iff.mp hcs
    simp [hz]
  · have hone := congrArg List.length hcs
    simp at hone
    omega
  · by_cases hp : p = '='
    · by_cases hq : q = '='
      · simp [hp, hq]
      · simp [hp, hq]
    · simp [hp]

theorem dropPadding_base64Chars (bs : List UInt8) :
    dropPadding (base64Chars bs) = (sextets bs).map base64Digit := by
  induction bs using base64Chars.induct with
  | case1 => rfl
  | case2 a => simp [base64Chars, dropPadding, sextets]
  | case3 a b =>
    have hb := (base64Digit_ne (b.toNat % 16 * 4) (by omega)).1
    simp [base64Chars, dropPadding, sextets, hb]
  | case4 a b c rest ih =>
    have hc := (base64Digit_ne (c.toNat % 64) (by omega)).1
    rw [base64Chars, dropPadding_cons hc (length_base64Chars rest), ih]
    rfl

theorem mapM_base64Value (bs : List UInt8) :
    ((sextets bs).map base64Digit).mapM base64Value = some (sextets bs) := by
  induction bs using sextets.induct with
  | case1 => rfl
  | case2 a =>
    have ha := a.toNat_lt
    simp [sextets, base64Value_digit _ (show a.toNat / 4 < 64 by omega),
      base64Value_digit _ (show a.toNat % 4 * 16 < 64 by omega)]
  | case3 a b =>
    have ha := a.toNat_lt
    have hb := b.toNat_lt
    simp [sextets, base64Value_digit _ (show a.toNat / 4 < 64 by omega),
      base64Value_digit _ (show a.toNat % 4 * 16 + b.toNat / 16 < 64 by omega),
      base64Value_digit _ (show b.toNat % 16 * 4 < 64 by omega)]
  | case4 a b c rest ih =>
    have ha := a.toNat_lt
    have hb := b.toNat_lt
    have hc := c.toNat_lt
    simp [sextets, base64Value_digit _ (show a.toNat / 4 < 64 by omega),
      base64Value_digit _ (show a.toNat % 4 * 16 + b.toNat / 16 < 64 by omega),
      base64Value_digit _ (show b.toNat % 16 * 4 + c.toNat / 64 < 64 by omega),
      base64Value_digit _ (show c.toNat % 64 < 64 by omega), ih]

theorem sextetBytes_sextets (bs : List UInt8) : sextetBytes (sextets bs) = some bs := by
  have hbyte : ∀ (b : UInt8) n, n = b.toNat → UInt8.ofNat n = b := by
    rintro b _ rfl
    exact UInt8.ofNat_toNat
  induction bs using sextets.induct with
  | case1 => rfl
  | case2 a =>
    rw [sextets, sextetBytes, hbyte a _ (by omega)]
  | case3 a b =>
    have hb := b.toNat_lt
    rw [sextets, sextetBytes, hbyte a _ (by omega), hbyte b _ (by omega)]
  | case4 a b c rest ih =>
    have hb := b.toNat_lt
    have hc := c.toNat_lt
    rw [sextets, sextetBytes, ih, hbyte a _ (by omega), hbyte b _ (by omega), hbyte c _ (by omega)]
    rfl

/-- **Bytes are read back from base64.** -/
theorem atob_base64Chars (bs : List UInt8) : atob (base64Chars bs) = some bs := by
  rw [atob, dropPadding_base64Chars, mapM_base64Value]
  exact sextetBytes_sextets bs

/-! ## Numbers -/

/-- `Infinity`, as a natural number that no finite number reaches. -/
def infinity : ℕ := 2 ^ 1024

/-- The number of 53 bits next to a natural number, the even one of two. -/
def roundNat (n : ℕ) : ℕ :=
  if n < 2 ^ 53 then n
  else
    let unit := 2 ^ (n.log2 - 52)
    let q := n / unit
    let up := unit < n % unit * 2 || n % unit * 2 = unit && q % 2 = 1
    min ((if up then q + 1 else q) * unit) infinity

/-- The text of a number, where `large` writes those from `10 ^ 21` on. -/
def numberText (large : ℕ → String) (n : ℕ) : String :=
  if n < 10 ^ 21 then toString n
  else if n < infinity then large n
  else "Infinity"

example : roundNat (2 ^ 60 + 129) = 2 ^ 60 + 256 := by decide +kernel

end Js
