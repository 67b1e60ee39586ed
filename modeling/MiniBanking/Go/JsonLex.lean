import MiniBanking.Go.Json
import Mathlib.Data.List.TakeDrop

/-!
# Strings and numbers of JSON

What a string or a number may look like in a text, and that it is read as what it stands for. A
string stands for its characters: those that are written as they are, the escapes, and the
replacement character for a byte that is no character and for half of a surrogate pair alone. A
number stands for its own text.

## Main definitions

* `Chars`: bytes between quotes and the characters they stand for
* `Numeral`: the characters of a number
* `Stops`: a text does not go on with a number

## Main results

* `stringBody_chars`: a string is read as its characters
* `chars_flatMap_quoteChar`: the text that is written for a string stands for it
* `numberText_encode`: a number is read as it is written
* `numeral_int`: the text of an integer is a number
-/

namespace Go

namespace Json

/-! ## Characters -/

/-- The bytes of a character are read as that character. -/
theorem decodeRune_encode (c : Char) (rest : List UInt8) :
    ∃ b tail, String.utf8EncodeChar c = b :: tail ∧ decodeRune b (tail ++ rest) = (c, rest) ∧
      (b.toNat < 0x80 → b.toNat = c.toNat) := by
  have hvalid := toNat_char c
  have hchar : ∀ n, n = c.toNat → Char.ofNat n = c := fun n hn => hn ▸ Char.ofNat_toNat c
  obtain ⟨hlt, b, heq, hb⟩ | ⟨hle, hlt, b, b₁, heq, hb, hb₁⟩ |
    ⟨hle, hlt, b, b₁, b₂, heq, hb, hb₁, hb₂⟩ | ⟨hle, b, b₁, b₂, b₃, heq, hb, hb₁, hb₂, hb₃⟩ :=
      utf8EncodeChar_cases c
  · refine ⟨b, [], heq, ?_, fun _ => hb⟩
    unfold decodeRune
    rw [if_pos (UInt8.lt_iff_toNat_lt.mpr (by simpa [hb] using hlt)), hchar _ hb, List.nil_append]
  · refine ⟨b, [b₁], heq, ?_, fun h => by omega⟩
    have h₀ : ¬ b < 0x80 := fun h => by simp [UInt8.lt_iff_toNat_lt] at h; omega
    have h₁ : (0xC2 ≤ b && b ≤ 0xDF) = true := by
      simp [UInt8.le_iff_toNat_le]; omega
    have h₂ : isTail b₁ = true := by simp [isTail, UInt8.le_iff_toNat_le]; omega
    simp only [decodeRune, if_neg h₀, List.cons_append, List.nil_append, h₁, h₂, if_true]
    rw [hchar _ (by omega)]
  · refine ⟨b, [b₁, b₂], heq, ?_, fun h => by omega⟩
    have h₀ : ¬ b < 0x80 := fun h => by simp [UInt8.lt_iff_toNat_lt] at h; omega
    have h₁ : (0xC2 ≤ b && b ≤ 0xDF) = false := by
      simp [UInt8.le_iff_toNat_le]; omega
    have h₁' : (0xE0 ≤ b && b ≤ 0xEF) = true := by
      simp [UInt8.le_iff_toNat_le]; omega
    have h₂ : (isTail b₁ && isTail b₂ && (b != 0xE0 || 0xA0 ≤ b₁) && (b != 0xED || b₁ ≤ 0x9F)) =
        true := by
      simp [isTail, UInt8.le_iff_toNat_le, ← UInt8.toNat_inj]; omega
    simp only [decodeRune, if_neg h₀, List.cons_append, List.nil_append, h₁, h₁', h₂, if_true,
      Bool.false_eq_true, if_false]
    rw [hchar _ (by omega)]
  · refine ⟨b, [b₁, b₂, b₃], heq, ?_, fun h => by omega⟩
    have h₀ : ¬ b < 0x80 := fun h => by simp [UInt8.lt_iff_toNat_lt] at h; omega
    have h₁ : (0xC2 ≤ b && b ≤ 0xDF) = false := by
      simp [UInt8.le_iff_toNat_le]; omega
    have h₁' : (0xE0 ≤ b && b ≤ 0xEF) = false := by
      simp [UInt8.le_iff_toNat_le]; omega
    have h₂ : (0xF0 ≤ b && b ≤ 0xF4 && isTail b₁ && isTail b₂ && isTail b₃ &&
            (b != 0xF0 || 0x90 ≤ b₁) && (b != 0xF4 || b₁ ≤ 0x8F)) =
        true := by
      simp [isTail, UInt8.le_iff_toNat_le, ← UInt8.toNat_inj]; omega
    simp only [decodeRune, if_neg h₀, List.cons_append, List.nil_append, h₁, h₁', h₂, if_true,
      Bool.false_eq_true, if_false]
    rw [hchar _ (by omega)]

section Converse

variable {b b₁ b₂ b₃ : UInt8}

theorem toNat_ofNat {n : ℕ} (h : n.isValidChar) : (Char.ofNat n).toNat = n := by
  rw [Char.ofNat, dif_pos h]
  rfl

/-- Two bytes that are read together are those of the character. -/
theorem encode_two (h : 0xC2 ≤ b.toNat ∧ b.toNat ≤ 0xDF) (h₁ : 0x80 ≤ b₁.toNat ∧ b₁.toNat ≤ 0xBF) :
    String.utf8EncodeChar (Char.ofNat ((b.toNat % 32) * 64 + b₁.toNat % 64)) = [b, b₁] := by
  have hn := toNat_ofNat (n := (b.toNat % 32) * 64 + b₁.toNat % 64) (by
    unfold Nat.isValidChar
    omega)
  obtain ⟨hlt, -⟩ | ⟨-, -, c, c₁, heq, hc, hc₁⟩ | ⟨hle, -⟩ | ⟨hle, -⟩ :=
    utf8EncodeChar_cases (Char.ofNat ((b.toNat % 32) * 64 + b₁.toNat % 64))
  · omega
  · rw [heq, UInt8.toNat_inj.mp (show c.toNat = b.toNat by omega),
      UInt8.toNat_inj.mp (show c₁.toNat = b₁.toNat by omega)]
  · omega
  · omega

/-- Three bytes that are read together are those of the character. -/
theorem encode_three (h : 0xE0 ≤ b.toNat ∧ b.toNat ≤ 0xEF)
    (h₁ : 0x80 ≤ b₁.toNat ∧ b₁.toNat ≤ 0xBF) (h₂ : 0x80 ≤ b₂.toNat ∧ b₂.toNat ≤ 0xBF)
    (hlong : b.toNat = 0xE0 → 0xA0 ≤ b₁.toNat) (hsurrogate : b.toNat = 0xED → b₁.toNat ≤ 0x9F) :
    String.utf8EncodeChar (Char.ofNat
      ((b.toNat % 16) * 4096 + (b₁.toNat % 64) * 64 + b₂.toNat % 64)) = [b, b₁, b₂] := by
  have hn := toNat_ofNat (n := (b.toNat % 16) * 4096 + (b₁.toNat % 64) * 64 + b₂.toNat % 64) (by
    unfold Nat.isValidChar
    omega)
  obtain ⟨hlt, -⟩ | ⟨-, hlt, -⟩ | ⟨-, -, c, c₁, c₂, heq, hc, hc₁, hc₂⟩ | ⟨hle, -⟩ :=
    utf8EncodeChar_cases (Char.ofNat
      ((b.toNat % 16) * 4096 + (b₁.toNat % 64) * 64 + b₂.toNat % 64))
  · omega
  · omega
  · rw [heq, UInt8.toNat_inj.mp (show c.toNat = b.toNat by omega),
      UInt8.toNat_inj.mp (show c₁.toNat = b₁.toNat by omega),
      UInt8.toNat_inj.mp (show c₂.toNat = b₂.toNat by omega)]
  · omega

/-- Four bytes that are read together are those of the character. -/
theorem encode_four (h : 0xF0 ≤ b.toNat ∧ b.toNat ≤ 0xF4)
    (h₁ : 0x80 ≤ b₁.toNat ∧ b₁.toNat ≤ 0xBF) (h₂ : 0x80 ≤ b₂.toNat ∧ b₂.toNat ≤ 0xBF)
    (h₃ : 0x80 ≤ b₃.toNat ∧ b₃.toNat ≤ 0xBF) (hlong : b.toNat = 0xF0 → 0x90 ≤ b₁.toNat)
    (hlarge : b.toNat = 0xF4 → b₁.toNat ≤ 0x8F) :
    String.utf8EncodeChar (Char.ofNat ((b.toNat % 8) * 262144 + (b₁.toNat % 64) * 4096 +
      (b₂.toNat % 64) * 64 + b₃.toNat % 64)) = [b, b₁, b₂, b₃] := by
  have hn := toNat_ofNat (n := (b.toNat % 8) * 262144 + (b₁.toNat % 64) * 4096 +
    (b₂.toNat % 64) * 64 + b₃.toNat % 64) (by
      unfold Nat.isValidChar
      omega)
  obtain ⟨hlt, -⟩ | ⟨-, hlt, -⟩ | ⟨-, hlt, -⟩ | ⟨-, c, c₁, c₂, c₃, heq, hc, hc₁, hc₂, hc₃⟩ :=
    utf8EncodeChar_cases (Char.ofNat ((b.toNat % 8) * 262144 + (b₁.toNat % 64) * 4096 +
      (b₂.toNat % 64) * 64 + b₃.toNat % 64))
  · omega
  · omega
  · omega
  · rw [heq, UInt8.toNat_inj.mp (show c.toNat = b.toNat by omega),
      UInt8.toNat_inj.mp (show c₁.toNat = b₁.toNat by omega),
      UInt8.toNat_inj.mp (show c₂.toNat = b₂.toNat by omega),
      UInt8.toNat_inj.mp (show c₃.toNat = b₃.toNat by omega)]

theorem isTail_iff : isTail b = true ↔ 0x80 ≤ b.toNat ∧ b.toNat ≤ 0xBF := by
  simp [isTail, UInt8.le_iff_toNat_le]

/-- Bytes that begin with no character are read as the replacement character, one at a time. -/
theorem decodeRune_invalid {rest : List UInt8}
    (h : ∀ c, ¬ String.utf8EncodeChar c <+: b :: rest) :
    decodeRune b rest = (replacement, rest) := by
  have hnone : ∀ c tail, b :: rest ≠ String.utf8EncodeChar c ++ tail := fun c tail heq =>
    h c ⟨tail, heq.symm⟩
  unfold decodeRune
  split
  · next hlt =>
    -- a byte in ASCII is a character
    rw [UInt8.lt_iff_toNat_lt] at hlt
    have hn := toNat_ofNat (n := b.toNat) (by
      left
      exact Nat.lt_trans hlt (by decide))
    refine absurd ?_ (hnone (Char.ofNat b.toNat) rest)
    rw [encode_ascii (by rwa [hn]), hn, UInt8.ofNat_toNat]
    rfl
  split
  swap
  · rfl
  next b₁ rest₁ =>
  split
  · next hb =>
    split
    swap
    · rfl
    next h₁ =>
    simp only [Bool.and_eq_true, decide_eq_true_eq, UInt8.le_iff_toNat_le] at hb
    exact absurd (congrArg (· ++ rest₁) (encode_two hb (isTail_iff.mp h₁)).symm) (hnone _ rest₁)
  split
  swap
  · rfl
  next b₂ rest₂ =>
  split
  · next hb =>
    split
    swap
    · rfl
    next hall =>
    simp only [Bool.and_eq_true, Bool.or_eq_true, decide_eq_true_eq, bne_iff_ne, isTail_iff,
      UInt8.le_iff_toNat_le] at hb hall
    obtain ⟨⟨⟨h₁, h₂⟩, hlong⟩, hsurrogate⟩ := hall
    have hchar := encode_three hb h₁ h₂
      (fun heq => hlong.resolve_left (not_not_intro (UInt8.toNat_inj.mp heq)))
      (fun heq => hsurrogate.resolve_left (not_not_intro (UInt8.toNat_inj.mp heq)))
    exact absurd (congrArg (· ++ rest₂) hchar.symm) (hnone _ rest₂)
  split
  swap
  · rfl
  next b₃ rest₃ =>
  split
  swap
  · rfl
  next hall =>
  simp only [Bool.and_eq_true, Bool.or_eq_true, decide_eq_true_eq, bne_iff_ne, isTail_iff,
    UInt8.le_iff_toNat_le] at hall
  obtain ⟨⟨⟨⟨⟨hb, h₁⟩, h₂⟩, h₃⟩, hlong⟩, hlarge⟩ := hall
  have hchar := encode_four hb h₁ h₂ h₃
    (fun heq => hlong.resolve_left (not_not_intro (UInt8.toNat_inj.mp heq)))
    (fun heq => hlarge.resolve_left (not_not_intro (UInt8.toNat_inj.mp heq)))
  exact absurd (congrArg (· ++ rest₃) hchar.symm) (hnone _ rest₃)

end Converse

/-! ## Strings -/

/-- Four hexadecimal digits make a number. -/
def Hex4 (ds : List UInt8) (u : ℕ) : Prop := hex4 ds = some (u, [])

/-- The number is half of a surrogate pair. -/
def Surrogate (u : ℕ) : Prop := 0xD800 ≤ u ∧ u ≤ 0xDFFF

/-- The escapes of one letter, and the characters they stand for. -/
def shortEscapes : List (UInt8 × Char) :=
  [(34, '"'), (92, '\\'), (47, '/'), (98, Char.ofNat 8), (102, Char.ofNat 12), (110, '\n'),
    (114, '\r'), (116, '\t')]

/-- Bytes between quotes and the characters they stand for. -/
inductive Chars : List UInt8 → List Char → Prop where
  | nil : Chars [] []
  /-- A character as it is. -/
  | rune {c : Char} {t : List UInt8} {cs : List Char} : 0x20 ≤ c.toNat → c ≠ '"' → c ≠ '\\' →
      Chars t cs → Chars (String.utf8EncodeChar c ++ t) (c :: cs)
  /-- A byte that no character begins with here. -/
  | invalid {b : UInt8} {t : List UInt8} {cs : List Char} :
      (∀ c, ¬ String.utf8EncodeChar c <+: b :: t) → Chars t cs → Chars (b :: t) (replacement :: cs)
  | short {b : UInt8} {c : Char} {t : List UInt8} {cs : List Char} : (b, c) ∈ shortEscapes →
      Chars t cs → Chars (92 :: b :: t) (c :: cs)
  | unit {ds : List UInt8} {u : ℕ} {t : List UInt8} {cs : List Char} : Hex4 ds u → ¬ Surrogate u →
      Chars t cs → Chars (92 :: 117 :: (ds ++ t)) (Char.ofNat u :: cs)
  | pair {ds es : List UInt8} {u v : ℕ} {t : List UInt8} {cs : List Char} : Hex4 ds u →
      0xD800 ≤ u → u < 0xDC00 → Hex4 es v → 0xDC00 ≤ v → v ≤ 0xDFFF → Chars t cs →
      Chars (92 :: 117 :: (ds ++ 92 :: 117 :: (es ++ t)))
        (Char.ofNat (0x10000 + (u - 0xD800) * 1024 + (v - 0xDC00)) :: cs)
  /-- Half of a pair without the other half. -/
  | lone {ds : List UInt8} {u : ℕ} {t : List UInt8} {cs : List Char} : Hex4 ds u → Surrogate u →
      (u < 0xDC00 → ∀ es v, Hex4 es v → 0xDC00 ≤ v → v ≤ 0xDFFF → ¬ 92 :: 117 :: es <+: t) →
      Chars t cs → Chars (92 :: 117 :: (ds ++ t)) (replacement :: cs)

section Strings

variable {fuel u v : ℕ} {c : Char} {b : UInt8} {bytes ds p rest t : List UInt8} {cs : List Char}

/-- The digits come first, and are read without what follows. -/
theorem exists_hex4 (h : hex4 bytes = some (u, rest)) :
    ∃ ds, Hex4 ds u ∧ bytes = ds ++ rest ∧ 34 ∉ ds := by
  obtain ⟨a, b, c, d, tail, rfl⟩ : ∃ a b c d tail, bytes = a :: b :: c :: d :: tail := by
    rcases bytes with _ | ⟨a, _ | ⟨b, _ | ⟨c, _ | ⟨d, tail⟩⟩⟩⟩
    iterate 4 cases h
    exact ⟨a, b, c, d, tail, rfl⟩
  simp only [hex4, Option.bind_eq_bind, Option.bind_eq_some_iff, Option.pure_def, Option.some.injEq,
    Prod.mk.injEq] at h
  obtain ⟨i, hi, j, hj, k, hk, l, hl, rfl, rfl⟩ := h
  have hquote : hexValue (Char.ofNat (34 : UInt8).toNat) = none := by decide
  refine ⟨[a, b, c, d], ?_, rfl, ?_⟩
  · simp only [Hex4, hex4, hi, hj, hk, hl]
    rfl
  · intro hmem
    simp only [List.mem_cons, List.not_mem_nil, or_false] at hmem
    rcases hmem with rfl | rfl | rfl | rfl
    · rw [hquote] at hi
      cases hi
    · rw [hquote] at hj
      cases hj
    · rw [hquote] at hk
      cases hk
    · rw [hquote] at hl
      cases hl

theorem Hex4.append (h : Hex4 ds u) (rest : List UInt8) : hex4 (ds ++ rest) = some (u, rest) := by
  rcases ds with _ | ⟨a, _ | ⟨b, _ | ⟨c, _ | ⟨d, tail⟩⟩⟩⟩
  iterate 4 cases h
  simp only [Hex4, hex4, Option.bind_eq_bind, Option.bind_eq_some_iff, Option.pure_def,
    Option.some.injEq, Prod.mk.injEq] at h
  obtain ⟨i, hi, j, hj, k, hk, l, hl, rfl, rfl⟩ := h
  simp only [List.cons_append, List.nil_append, hex4, hi, hj, hk, hl]
  rfl

/-- What has no quote in it does not go beyond a quote. -/
theorem prefix_of_quote (hp : 34 ∉ p) (h : p <+: t ++ 34 :: rest) : p <+: t := by
  rcases List.prefix_or_prefix_of_prefix h (List.prefix_append t _) with hshort | ⟨q, rfl⟩
  · exact hshort
  rcases q with - | ⟨b, q⟩
  · simp
  · obtain ⟨rfl, -⟩ := List.cons_prefix_cons.mp ((List.prefix_append_right_inj t).mp h)
    exact absurd (List.mem_append_right _ List.mem_cons_self) hp

/-- Only a quote has the byte of a quote. -/
theorem quote_not_mem (hc : c ≠ '"') : 34 ∉ String.utf8EncodeChar c := by
  have hne : c.toNat ≠ 34 := fun h => hc (Char.toNat_inj.mp h)
  have hbyte : ∀ b : UInt8, b.toNat ≠ 34 → 34 ≠ b := by
    rintro b hb rfl
    exact hb rfl
  obtain ⟨hlt, b, heq, hb⟩ | ⟨hle, hlt, b, b₁, heq, hb, hb₁⟩ |
    ⟨hle, hlt, b, b₁, b₂, heq, hb, hb₁, hb₂⟩ | ⟨hle, b, b₁, b₂, b₃, heq, hb, hb₁, hb₂, hb₃⟩ :=
      utf8EncodeChar_cases c
  all_goals
    rw [heq]
    simp only [List.mem_cons, List.not_mem_nil, or_false, not_or]
  · exact hbyte b (by omega)
  · exact ⟨hbyte b (by omega), hbyte b₁ (by omega)⟩
  · exact ⟨hbyte b (by omega), hbyte b₁ (by omega), hbyte b₂ (by omega)⟩
  · exact ⟨hbyte b (by omega), hbyte b₁ (by omega), hbyte b₂ (by omega), hbyte b₃ (by omega)⟩

/-- An escape is read as its character. -/
theorem stringBody_escape (h : escape bytes = some (c, rest)) :
    stringBody (fuel + 1) (92 :: bytes) =
      (stringBody fuel rest).map fun (cs, rest) => (c :: cs, rest) := by
  rw [stringBody, if_neg (by decide), if_pos rfl, h, Option.map_eq_bind]
  rfl

theorem stringBody_rune (h : decodeRune b bytes = (c, rest)) (hb : 0x20 ≤ b.toNat)
    (hquote : b.toNat ≠ 34) (hescape : b.toNat ≠ 92) :
    stringBody (fuel + 1) (b :: bytes) =
      (stringBody fuel rest).map fun (cs, rest) => (c :: cs, rest) := by
  have h₁ : b ≠ 34 := fun h => hquote (h ▸ rfl)
  have h₂ : b ≠ 92 := fun h => hescape (h ▸ rfl)
  have h₃ : ¬ b < 0x20 := by
    rw [UInt8.lt_iff_toNat_lt]
    exact Nat.not_lt.mpr hb
  rw [stringBody, if_neg h₁, if_neg h₂, if_neg h₃, h, Option.map_eq_bind]
  rfl

theorem escape_short (h : (b, c) ∈ shortEscapes) : escape (b :: rest) = some (c, rest) := by
  simp only [shortEscapes, List.mem_cons, List.not_mem_nil, or_false, Prod.mk.injEq] at h
  rcases h with ⟨rfl, rfl⟩ | ⟨rfl, rfl⟩ | ⟨rfl, rfl⟩ | ⟨rfl, rfl⟩ | ⟨rfl, rfl⟩ | ⟨rfl, rfl⟩ |
    ⟨rfl, rfl⟩ | ⟨rfl, rfl⟩ <;> rfl

theorem escape_hex4 (h : Hex4 ds u) (rest : List UInt8) :
    escape (117 :: (ds ++ rest)) = some (codeUnit u rest) := by
  rw [escape, h.append]
  rfl

theorem codeUnit_unit (h : ¬ Surrogate u) (rest : List UInt8) :
    codeUnit u rest = (Char.ofNat u, rest) := by
  have hu : (u < 0xD800 || 0xDFFF < u) = true := by
    simp only [Surrogate, Bool.or_eq_true, decide_eq_true_eq] at h ⊢
    omega
  rw [codeUnit.eq_def, if_pos hu]

theorem codeUnit_pair {es : List UInt8} (hle : 0xD800 ≤ u) (hlt : u < 0xDC00) (hes : Hex4 es v)
    (hvle : 0xDC00 ≤ v) (hvlt : v ≤ 0xDFFF) (rest : List UInt8) :
    codeUnit u (92 :: 117 :: (es ++ rest)) =
      (Char.ofNat (0x10000 + (u - 0xD800) * 1024 + (v - 0xDC00)), rest) := by
  have hu : ¬ (u < 0xD800 || 0xDFFF < u) = true := by
    simp only [Bool.or_eq_true, decide_eq_true_eq]
    omega
  have hv : (u < 0xDC00 && 0xDC00 ≤ v && v ≤ 0xDFFF) = true := by
    simp only [Bool.and_eq_true, decide_eq_true_eq]
    omega
  rw [codeUnit.eq_def, if_neg hu]
  simp only [hes.append, hv, if_true]

theorem codeUnit_lone (hu : Surrogate u)
    (h : u < 0xDC00 → ∀ es v, Hex4 es v → 0xDC00 ≤ v → v ≤ 0xDFFF → ¬ 92 :: 117 :: es <+: t)
    (rest : List UInt8) :
    codeUnit u (t ++ 34 :: rest) = (replacement, t ++ 34 :: rest) := by
  have hu' : ¬ (u < 0xD800 || 0xDFFF < u) = true := by
    simp only [Surrogate, Bool.or_eq_true, decide_eq_true_eq] at hu ⊢
    omega
  rw [codeUnit.eq_def, if_neg hu']
  split
  · next rest' heq =>
    split
    · next v rest'' hhex =>
      refine if_neg fun hpair => ?_
      simp only [Bool.and_eq_true, decide_eq_true_eq] at hpair
      -- the other half would have to be within the string
      obtain ⟨es, hes, rfl, hquote⟩ := exists_hex4 hhex
      refine h hpair.1.1 es v hes hpair.1.2 hpair.2 (@prefix_of_quote _ rest _ ?_ ?_)
      · simp [hquote]
      · rw [heq]
        exact ⟨rest'', rfl⟩
    · rfl
  · rfl

/-- **A string is read as its characters.** -/
theorem stringBody_chars (h : Chars t cs) (hfuel : cs.length < fuel) (rest : List UInt8) :
    stringBody fuel (t ++ 34 :: rest) = some (cs, rest) := by
  induction h generalizing fuel with
  | nil =>
    obtain ⟨fuel, rfl⟩ := Nat.exists_eq_add_one.mpr hfuel
    rfl
  | @rune c t cs hle hquote hescape _ ih =>
    obtain ⟨fuel, rfl⟩ := Nat.exists_eq_add_one_of_ne_zero (Nat.ne_zero_of_lt hfuel)
    obtain ⟨b, tail, heq, hread, hb⟩ := decodeRune_encode c (t ++ 34 :: rest)
    have hne : ∀ d : Char, c ≠ d → d.toNat < 0x80 → b.toNat ≠ d.toNat := by
      intro d hd hlt heq
      exact hd (Char.toNat_inj.mp ((hb (heq ▸ hlt)).symm.trans heq))
    rw [heq, List.cons_append, List.cons_append, List.append_assoc, stringBody_rune hread,
      ih (Nat.lt_of_succ_lt_succ hfuel)]
    · rfl
    · by_cases hlt : b.toNat < 0x80
      · exact (hb hlt).symm ▸ hle
      · omega
    · exact hne '"' hquote (by decide)
    · exact hne '\\' hescape (by decide)
  | @invalid b t cs hnone _ ih =>
    obtain ⟨fuel, rfl⟩ := Nat.exists_eq_add_one_of_ne_zero (Nat.ne_zero_of_lt hfuel)
    have hread : decodeRune b (t ++ 34 :: rest) = (replacement, t ++ 34 :: rest) := by
      refine decodeRune_invalid fun c hc => ?_
      by_cases hquote : c = '"'
      · subst hquote
        obtain ⟨hb, -⟩ := List.cons_prefix_cons.mp hc
        exact hnone '"' (List.cons_prefix_cons.mpr ⟨hb, List.nil_prefix⟩)
      · exact hnone c (prefix_of_quote (quote_not_mem hquote) hc)
    have hascii : 0x80 ≤ b.toNat := by
      by_contra hlt
      have hn := toNat_ofNat (n := b.toNat) (.inl (by omega))
      refine hnone (Char.ofNat b.toNat) ?_
      rw [encode_ascii (by omega), hn, UInt8.ofNat_toNat]
      exact ⟨t, rfl⟩
    rw [List.cons_append, stringBody_rune hread (by omega) (by omega) (by omega),
      ih (Nat.lt_of_succ_lt_succ hfuel)]
    rfl
  | short hmem _ ih =>
    obtain ⟨fuel, rfl⟩ := Nat.exists_eq_add_one_of_ne_zero (Nat.ne_zero_of_lt hfuel)
    rw [List.cons_append, List.cons_append, stringBody_escape (escape_short hmem),
      ih (Nat.lt_of_succ_lt_succ hfuel)]
    rfl
  | unit hds hu _ ih =>
    obtain ⟨fuel, rfl⟩ := Nat.exists_eq_add_one_of_ne_zero (Nat.ne_zero_of_lt hfuel)
    rw [List.cons_append, List.cons_append, List.append_assoc,
      stringBody_escape ((escape_hex4 hds _).trans (congrArg some (codeUnit_unit hu _))),
      ih (Nat.lt_of_succ_lt_succ hfuel)]
    rfl
  | pair hds hle hlt hes hvle hvlt _ ih =>
    obtain ⟨fuel, rfl⟩ := Nat.exists_eq_add_one_of_ne_zero (Nat.ne_zero_of_lt hfuel)
    rw [List.cons_append, List.cons_append, List.append_assoc, List.cons_append, List.cons_append,
      List.append_assoc, stringBody_escape ((escape_hex4 hds _).trans
        (congrArg some (codeUnit_pair hle hlt hes hvle hvlt _))),
      ih (Nat.lt_of_succ_lt_succ hfuel)]
    rfl
  | lone hds hu hnone _ ih =>
    obtain ⟨fuel, rfl⟩ := Nat.exists_eq_add_one_of_ne_zero (Nat.ne_zero_of_lt hfuel)
    rw [List.cons_append, List.cons_append, List.append_assoc, stringBody_escape
        ((escape_hex4 hds _).trans (congrArg some (codeUnit_lone hu hnone rest))),
      ih (Nat.lt_of_succ_lt_succ hfuel)]
    rfl

/-- A character stands for itself at most, so that the bytes are enough as fuel. -/
theorem Chars.length_le (h : Chars t cs) : cs.length ≤ t.length := by
  induction h with
  | nil => exact Nat.le_refl _
  | @rune c t cs _ _ _ _ ih =>
    obtain ⟨b, tail, heq, -⟩ := decodeRune_encode c []
    rw [heq]
    simp only [List.length_cons, List.length_append]
    omega
  | invalid _ _ ih => exact Nat.succ_le_succ ih
  | short _ _ ih | unit _ _ _ ih | pair _ _ _ _ _ _ _ ih | lone _ _ _ _ ih =>
    simp only [List.length_cons, List.length_append]
    omega

/-! ## The text of a string -/

theorem toNat_hexDigit : ∀ m < 16, (hexDigit m).toNat < 0x80 := by decide

theorem hexValue_byte : ∀ m < 16,
    hexValue (Char.ofNat (UInt8.ofNat (hexDigit m).toNat).toNat) = some m := by decide

theorem hex4_encode {i j k l : ℕ} (hi : i < 16) (hj : j < 16) (hk : k < 16) (hl : l < 16) :
    Hex4 (encode [hexDigit i, hexDigit j, hexDigit k, hexDigit l])
      (i * 4096 + j * 256 + k * 16 + l) := by
  simp only [Hex4, encode_cons, encode_nil, encode_ascii (toNat_hexDigit _ hi),
    encode_ascii (toNat_hexDigit _ hj), encode_ascii (toNat_hexDigit _ hk),
    encode_ascii (toNat_hexDigit _ hl), List.cons_append, List.nil_append, hex4,
    hexValue_byte _ hi, hexValue_byte _ hj, hexValue_byte _ hk, hexValue_byte _ hl]
  rfl

/-- An escape of four digits stands for its character. -/
theorem Chars.escaped {i j k l : ℕ} (h : Chars t cs) (hi : i < 16) (hj : j < 16) (hk : k < 16)
    (hl : l < 16) (hc : c.toNat = i * 4096 + j * 256 + k * 16 + l) :
    Chars (encode ['\\', 'u', hexDigit i, hexDigit j, hexDigit k, hexDigit l] ++ t) (c :: cs) := by
  have hvalid := toNat_char c
  have hu : ¬ Surrogate (i * 4096 + j * 256 + k * 16 + l) := by
    unfold Surrogate
    omega
  have hunit := h.unit (hex4_encode hi hj hk hl) hu
  rw [← hc, Char.ofNat_toNat] at hunit
  rw [encode_cons, encode_cons, encode_ascii (by decide), encode_ascii (by decide)]
  exact hunit

/-- The text of a character stands for it. -/
theorem Chars.quoteChar (h : Chars t cs) (c : Char) :
    Chars (encode (quoteChar c) ++ t) (c :: cs) := by
  have hshort : ∀ d, d.toNat < 0x80 → (UInt8.ofNat d.toNat, c) ∈ shortEscapes →
      Chars (encode ['\\', d] ++ t) (c :: cs) := by
    intro d hd hmem
    rw [encode_cons, encode_cons, encode_ascii (by decide), encode_ascii hd]
    exact h.short hmem
  have hchar : ∀ d, c.toNat = d.toNat → c = d := fun d h => Char.toNat_inj.mp h
  unfold Json.quoteChar
  extract_lets n
  simp only [Bool.or_eq_true, decide_eq_true_eq]
  split
  · next h =>
    rcases h with rfl | rfl
    · exact hshort '"' (by decide) (by decide)
    · exact hshort '\\' (by decide) (by decide)
  next hplain =>
  rw [not_or] at hplain
  split
  · next h => rw [hchar (Char.ofNat 8) h] at hshort ⊢; exact hshort 'b' (by decide) (by decide)
  split
  · next h => rw [hchar (Char.ofNat 12) h] at hshort ⊢; exact hshort 'f' (by decide) (by decide)
  split
  · next h => rw [hchar '\n' h] at hshort ⊢; exact hshort 'n' (by decide) (by decide)
  split
  · next h => rw [hchar '\r' h] at hshort ⊢; exact hshort 'r' (by decide) (by decide)
  split
  · next h => rw [hchar '\t' h] at hshort ⊢; exact hshort 't' (by decide) (by decide)
  split
  · next hcontrol =>
    have hlt : n < 0x40 := by
      rcases hcontrol with ((h | rfl) | rfl) | rfl
      · omega
      all_goals decide
    exact h.escaped (i := 0) (j := 0) (by decide) (by decide) (by omega) (by omega) (by omega)
  next hcontrol =>
  split
  · next hseparator =>
    exact h.escaped (i := 2) (j := 0) (k := 2) (by decide) (by decide) (by decide) (by omega)
      (by omega)
  · rw [encode_cons, encode_nil, List.append_nil]
    refine h.rune ?_ hplain.1 hplain.2
    by_contra hlt
    exact hcontrol (.inl (.inl (.inl (Nat.lt_of_not_le hlt))))

/-- The text of characters stands for them. -/
theorem chars_flatMap_quoteChar (cs : List Char) :
    Chars (encode (cs.flatMap Json.quoteChar)) cs := by
  induction cs with
  | nil => exact .nil
  | cons c cs ih =>
    rw [List.flatMap_cons, encode_append]
    exact ih.quoteChar c

end Strings

/-! ## Numbers -/

/-- Decimal digits, one at least. -/
def Digits (ds : List Char) : Prop := ds ≠ [] ∧ ∀ c ∈ ds, c.isDigit = true

/-- The fraction of a number, if it has one. -/
def Fraction (cs : List Char) : Prop := cs = [] ∨ ∃ ds, cs = '.' :: ds ∧ Digits ds

/-- The exponent of a number, if it has one. -/
def Exponent (cs : List Char) : Prop :=
  cs = [] ∨ ∃ e sign ds, cs = e :: (sign ++ ds) ∧ (e = 'e' ∨ e = 'E') ∧
    (sign = [] ∨ sign = ['+'] ∨ sign = ['-']) ∧ Digits ds

/-- The characters of a number. -/
def Numeral (cs : List Char) : Prop :=
  ∃ sign int frac exp, cs = sign ++ (int ++ (frac ++ exp)) ∧ (sign = [] ∨ sign = ['-']) ∧
    (int = ['0'] ∨ Digits int ∧ int.head? ≠ some '0') ∧ Fraction frac ∧ Exponent exp

/-- A text does not go on with a number. -/
def Stops (rest : List UInt8) : Prop :=
  ∀ b ∈ rest.head?, isDigit b = false ∧ b ≠ 46 ∧ b ≠ 101 ∧ b ≠ 69

section Numbers

variable {c : Char} {ds cs : List Char} {rest : List UInt8}

theorem toNat_of_isDigit (h : c.isDigit = true) : 48 ≤ c.toNat ∧ c.toNat ≤ 57 := by
  simp only [Char.isDigit, Bool.and_eq_true, decide_eq_true_eq, ge_iff_le, UInt32.le_iff_toNat_le,
    Char.toNat_val] at h
  exact h

theorem encode_digit (h : c.isDigit = true) (cs : List Char) :
    encode (c :: cs) = .ofNat c.toNat :: encode cs := by
  rw [encode_cons, encode_ascii (Nat.lt_of_le_of_lt (toNat_of_isDigit h).2 (by decide))]
  rfl

theorem isDigit_byte (h : c.isDigit = true) : isDigit (.ofNat c.toNat) = true := by
  have := toNat_of_isDigit h
  simp only [isDigit, Bool.and_eq_true, decide_eq_true_eq, UInt8.le_iff_toNat_le]
  rw [toNat_byte (by omega)]
  exact this

/-- The characters of a number are in ASCII. -/
theorem chars_encode (h : ∀ c ∈ cs, c.toNat < 0x80) :
    (encode cs).map (fun b => Char.ofNat b.toNat) = cs := by
  induction cs with
  | nil => rfl
  | cons c cs ih =>
    have hc := h c List.mem_cons_self
    rw [encode_cons, encode_ascii hc, List.singleton_append, List.map_cons, toNat_byte (by omega),
      Char.ofNat_toNat, ih fun c hc => h c (List.mem_cons_of_mem _ hc)]

/-- The digits are read as far as they go. -/
theorem digits_encode (h : Digits ds) (hrest : ∀ b ∈ rest.head?, isDigit b = false) :
    digits (encode ds ++ rest) = some (encode ds, rest) := by
  have hall : ∀ b ∈ encode ds, isDigit b = true := by
    obtain ⟨-, hdigits⟩ := h
    induction ds with
    | nil => simp
    | cons c ds ih =>
      rw [encode_digit (hdigits c List.mem_cons_self)]
      intro b hb
      rcases List.mem_cons.mp hb with rfl | hb
      · exact isDigit_byte (hdigits c List.mem_cons_self)
      · exact ih (fun c hc => hdigits c (List.mem_cons_of_mem _ hc)) b hb
  have hstop : rest.takeWhile isDigit = [] ∧ rest.dropWhile isDigit = rest := by
    cases rest with
    | nil => exact ⟨rfl, rfl⟩
    | cons b rest => simp [hrest b rfl]
  have hspan : (encode ds ++ rest).span isDigit = (encode ds, rest) := by
    rw [List.span_eq_takeWhile_dropWhile, List.takeWhile_append_of_pos hall,
      List.dropWhile_append_of_pos hall, hstop.1, hstop.2, List.append_nil]
  obtain ⟨c, ds, rfl⟩ := List.exists_cons_of_ne_nil h.1
  have hc := h.2 c List.mem_cons_self
  unfold digits
  rw [hspan, encode_digit hc]

theorem integer_encode {int : List Char} (h : int = ['0'] ∨ Digits int ∧ int.head? ≠ some '0')
    (hrest : ∀ b ∈ rest.head?, isDigit b = false) :
    integer (encode int ++ rest) = some (encode int, rest) := by
  rcases h with rfl | ⟨hdigits, hzero⟩
  · rfl
  have hread := digits_encode hdigits hrest
  obtain ⟨c, int, rfl⟩ := List.exists_cons_of_ne_nil hdigits.1
  have hc := hdigits.2 c List.mem_cons_self
  rw [encode_digit hc, List.cons_append] at hread ⊢
  rw [integer]
  · exact hread
  · intro rest' heq
    -- the first digit is no zero
    have hbyte := congrArg UInt8.toNat (List.cons.inj heq).1
    have := toNat_of_isDigit hc
    rw [toNat_byte (by omega)] at hbyte
    exact hzero (congrArg some (Char.toNat_inj.mp hbyte))

theorem fractionPart_encode {frac : List Char} (h : Fraction frac)
    (hrest : ∀ b ∈ rest.head?, isDigit b = false ∧ b ≠ 46) :
    fractionPart (encode frac ++ rest) = some (encode frac, rest) := by
  rcases h with rfl | ⟨ds, rfl, hdigits⟩
  · rw [encode_nil, List.nil_append, fractionPart]
    rintro rest' rfl
    exact (hrest 46 rfl).2 rfl
  · have hread := digits_encode hdigits fun b hb => (hrest b hb).1
    rw [encode_cons, encode_ascii (by decide)]
    show fractionPart (46 :: (encode ds ++ rest)) = _
    rw [fractionPart, hread]
    rfl

theorem byte_ne_of_digit {k : ℕ} (hc : c.isDigit = true) (hk : k < 48) :
    UInt8.ofNat c.toNat ≠ UInt8.ofNat k := by
  intro heq
  have hbyte := congrArg UInt8.toNat heq
  have := toNat_of_isDigit hc
  rw [toNat_byte (by omega), toNat_byte (by omega)] at hbyte
  omega

/-- The letter, the sign and the digits of an exponent. -/
theorem exponentPart_letter {b : UInt8} {sign : List Char} (hb : (b = 101 || b = 69) = true)
    (hsign : sign = [] ∨ sign = ['+'] ∨ sign = ['-']) (hds : Digits ds)
    (hrest : ∀ b ∈ rest.head?, isDigit b = false) :
    exponentPart (b :: (encode sign ++ (encode ds ++ rest))) =
      some (b :: (encode sign ++ encode ds), rest) := by
  have hread := digits_encode hds hrest
  rcases hsign with rfl | rfl | rfl
  · -- the first digit is no sign
    obtain ⟨c, ds, rfl⟩ := List.exists_cons_of_ne_nil hds.1
    have hc := hds.2 c List.mem_cons_self
    rw [encode_digit hc, List.cons_append] at hread ⊢
    rw [encode_nil, List.nil_append, exponentPart, if_pos hb, hread]
    · rfl
    · intro rest' heq
      exact byte_ne_of_digit (k := 43) hc (by decide) (List.cons.inj heq).1
    · intro rest' heq
      exact byte_ne_of_digit (k := 45) hc (by decide) (List.cons.inj heq).1
  · show exponentPart (b :: 43 :: (encode ds ++ rest)) = _
    rw [exponentPart, if_pos hb, hread]
    rfl
  · show exponentPart (b :: 45 :: (encode ds ++ rest)) = _
    rw [exponentPart, if_pos hb, hread]
    rfl

theorem exponentPart_encode {exp : List Char} (h : Exponent exp)
    (hrest : ∀ b ∈ rest.head?, isDigit b = false ∧ b ≠ 101 ∧ b ≠ 69) :
    exponentPart (encode exp ++ rest) = some (encode exp, rest) := by
  rcases h with rfl | ⟨e, sign, ds, rfl, he, hsign, hdigits⟩
  · cases rest with
    | nil => rfl
    | cons b rest =>
      obtain ⟨-, hlower, hupper⟩ := hrest b rfl
      unfold exponentPart
      simp [hlower, hupper]
  · have hletter : ∃ b, String.utf8EncodeChar e = [b] ∧ (b = 101 || b = 69) = true := by
      rcases he with rfl | rfl
      · exact ⟨101, rfl, rfl⟩
      · exact ⟨69, rfl, rfl⟩
    obtain ⟨b, heq, hb⟩ := hletter
    rw [encode_cons, heq, encode_append, List.append_assoc, List.append_assoc,
      List.singleton_append, List.singleton_append]
    exact exponentPart_letter hb hsign hdigits fun b hb => (hrest b hb).1

theorem Digits.ascii (h : Digits ds) : ∀ c ∈ ds, c.toNat < 0x80 := fun c hc =>
  Nat.lt_of_le_of_lt (toNat_of_isDigit (h.2 c hc)).2 (by decide)

/-- The characters of a number are in ASCII. -/
theorem Numeral.ascii (h : Numeral cs) : ∀ c ∈ cs, c.toNat < 0x80 := by
  obtain ⟨sign, int, frac, exp, rfl, hsign, hint, hfrac, hexp⟩ := h
  intro c hc
  simp only [List.mem_append] at hc
  rcases hc with hc | hc | hc | hc
  · rcases hsign with rfl | rfl
    · cases hc
    · rw [List.mem_singleton.mp hc]
      decide
  · rcases hint with rfl | ⟨hdigits, -⟩
    · rw [List.mem_singleton.mp hc]
      decide
    · exact hdigits.ascii c hc
  · rcases hfrac with rfl | ⟨ds, rfl, hdigits⟩
    · cases hc
    · rcases List.mem_cons.mp hc with rfl | hc
      · decide
      · exact hdigits.ascii c hc
  · rcases hexp with rfl | ⟨e, sign, ds, rfl, he, hsign, hdigits⟩
    · cases hc
    rcases List.mem_cons.mp hc with rfl | hc
    · rcases he with rfl | rfl <;> decide
    rcases List.mem_append.mp hc with hc | hc
    · rcases hsign with rfl | rfl | rfl
      · cases hc
      · rw [List.mem_singleton.mp hc]
        decide
      · rw [List.mem_singleton.mp hc]
        decide
    · exact hdigits.ascii c hc

/-- What comes after an exponent, a fraction or an integer. -/
theorem Exponent.head {exp : List Char} (h : Exponent exp) (hrest : Stops rest) :
    ∀ b ∈ (encode exp ++ rest).head?, isDigit b = false ∧ b ≠ 46 := by
  rcases h with rfl | ⟨e, sign, ds, rfl, he, -⟩
  · exact fun b hb => ⟨(hrest b hb).1, (hrest b hb).2.1⟩
  · rcases he with rfl | rfl
    all_goals
      rintro b ⟨⟩
      decide

theorem Fraction.head {frac exp : List Char} (h : Fraction frac) (hexp : Exponent exp)
    (hrest : Stops rest) :
    ∀ b ∈ (encode frac ++ (encode exp ++ rest)).head?, isDigit b = false := by
  rcases h with rfl | ⟨ds, rfl, -⟩
  · exact fun b hb => (hexp.head hrest b hb).1
  · rintro b ⟨⟩
    rfl

/-- **A number is read as it is written.** -/
theorem numberText_encode (h : Numeral cs) (hrest : Stops rest) :
    numberText (encode cs ++ rest) = some (String.ofList cs, rest) := by
  have hascii := h.ascii
  obtain ⟨sign, int, frac, exp, rfl, hsign, hint, hfrac, hexp⟩ := h
  have hreadInt := integer_encode hint (hfrac.head hexp hrest)
  have hreadFrac := fractionPart_encode hfrac (hexp.head hrest)
  have hreadExp := exponentPart_encode hexp fun b hb => ⟨(hrest b hb).1, (hrest b hb).2.2⟩
  unfold numberText
  split
  next sign' bytes heq =>
  have hsigned : (sign', bytes) =
      (encode sign, encode int ++ (encode frac ++ (encode exp ++ rest))) := by
    rw [← heq]
    rcases hsign with rfl | rfl
    · -- the first digit is no sign
      have hhead : ∃ c ds, int = c :: ds ∧ c.isDigit = true := by
        rcases hint with rfl | ⟨hdigits, -⟩
        · exact ⟨'0', [], rfl, rfl⟩
        · obtain ⟨c, ds, rfl⟩ := List.exists_cons_of_ne_nil hdigits.1
          exact ⟨c, ds, rfl, hdigits.2 c List.mem_cons_self⟩
      obtain ⟨c, ds, rfl, hc⟩ := hhead
      rw [List.nil_append, List.cons_append, encode_digit hc, encode_digit hc]
      split
      · next heq => exact absurd (List.cons.inj heq).1 (byte_ne_of_digit (k := 45) hc (by decide))
      · simp
    · simp only [encode_append, List.append_assoc]
      rfl
  cases hsigned
  simp only [hreadInt, hreadFrac, hreadExp, Option.bind_eq_bind, Option.bind_some, Option.pure_def]
  rw [← encode_append, ← encode_append, ← encode_append, List.append_assoc, List.append_assoc,
    chars_encode hascii]

/-- A number starts with a sign or a digit. -/
theorem Numeral.first (h : Numeral cs) :
    ∃ b tail, encode cs = b :: tail ∧ (b = 45 ∨ isDigit b = true) := by
  obtain ⟨sign, int, frac, exp, rfl, hsign, hint, -⟩ := h
  rcases hsign with rfl | rfl
  · rcases hint with rfl | ⟨hdigits, -⟩
    · exact ⟨48, _, rfl, .inr rfl⟩
    · obtain ⟨c, ds, rfl⟩ := List.exists_cons_of_ne_nil hdigits.1
      have hc := hdigits.2 c List.mem_cons_self
      exact ⟨.ofNat c.toNat, _, encode_digit hc _, .inr (isDigit_byte hc)⟩
  · exact ⟨45, _, rfl, .inl rfl⟩

/-! ## Integers -/

/-- No number but zero starts with zero. -/
theorem head_toDigits {n : ℕ} (hn : 0 < n) : (Nat.toDigits 10 n).head? ≠ some '0' := by
  induction n using Nat.strongRecOn with
  | ind n ih =>
    by_cases hlt : n < 10
    · rw [Nat.toDigits_of_lt_base hlt]
      have hdigit : ∀ m < 10, 0 < m → [Nat.digitChar m].head? ≠ some '0' := by decide
      exact hdigit n hlt hn
    · rw [Nat.toDigits_of_base_le (by decide) (by omega)]
      have hhead := ih (n / 10) (by omega) (by omega)
      cases hd : Nat.toDigits 10 (n / 10) with
      | nil => exact absurd hd Nat.toDigits_ne_nil
      | cons d ds => simpa [hd] using hhead

/-- The characters of a decimal number. -/
theorem toList_int (n : ℤ) :
    (toString n).toList = if 0 ≤ n then Nat.toDigits 10 n.toNat
      else '-' :: Nat.toDigits 10 (-n).toNat := by
  rw [Int.toString_eq_repr, Int.repr_eq_if]
  split
  · rw [Nat.toList_repr]
  · rw [String.toList_append, Nat.toList_repr]
    rfl

theorem digits_toDigits (n : ℕ) : Digits (Nat.toDigits 10 n) :=
  ⟨Nat.toDigits_ne_nil, fun _ hc => Nat.isDigit_of_mem_toDigits (by decide) (by decide) hc⟩

/-- The text of an integer is a number. -/
theorem numeral_int (n : ℤ) : Numeral (toString n).toList := by
  have hint : ∀ m : ℕ, Nat.toDigits 10 m = ['0'] ∨
      Digits (Nat.toDigits 10 m) ∧ (Nat.toDigits 10 m).head? ≠ some '0' := by
    intro m
    rcases Nat.eq_zero_or_pos m with rfl | hm
    · exact .inl rfl
    · exact .inr ⟨digits_toDigits m, head_toDigits hm⟩
  rw [toList_int]
  split
  · exact ⟨[], Nat.toDigits 10 n.toNat, [], [], by simp, .inl rfl, hint _, .inl rfl, .inl rfl⟩
  · exact ⟨['-'], Nat.toDigits 10 (-n).toNat, [], [], by simp, .inr rfl, hint _, .inl rfl, .inl rfl⟩

end Numbers

end Json

end Go
