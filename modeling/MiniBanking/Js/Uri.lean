import MiniBanking.Go.Text

/-!
# Percent encoding

The authority writes an owner into a certificate as a URI that `url.PathEscape` has escaped, and
the browser takes it out with `decodeURIComponent`: every text comes back.

## Main definitions

* `pathEscape`, `percentBytes`, `decodeURIComponent`

## Main results

* `decodeURIComponent_pathEscape`: what is escaped is read back
-/

namespace Js

open Go

/-- A digit of an escape. -/
def upperHex (n : ℕ) : Char := Char.ofNat (if n < 10 then 48 + n else 55 + n)

/-- The bytes that stand for themselves in a segment of a path: `shouldEscape` is false. -/
def isPathByte (b : UInt8) : Bool :=
  let c := Char.ofNat b.toNat
  c.isAlphanum || ['-', '_', '.', '~', '$', '&', '+', ':', '=', '@'].contains c

/-- The escape of a byte, where it needs one. -/
def pathEscapeByte (b : UInt8) : List Char :=
  if isPathByte b then [Char.ofNat b.toNat]
  else ['%', upperHex (b.toNat / 16), upperHex (b.toNat % 16)]

/-- `url.PathEscape`. -/
def pathEscape (s : String) : String := String.ofList ((utf8 s).flatMap pathEscapeByte)

/-- The bytes of a text, of each escape the byte that it stands for. -/
def percentBytes : List Char → Option (List UInt8)
  | [] => some []
  | '%' :: a :: b :: cs => do
    return .ofNat ((← hexValue a) * 16 + (← hexValue b)) :: (← percentBytes cs)
  | c :: cs => do
    -- an escape that the text ends in is malformed
    if c = '%' then none else return String.utf8EncodeChar c ++ (← percentBytes cs)

/-- `decodeURIComponent`, which throws unless the bytes are UTF-8. -/
def decodeURIComponent (s : String) : Option String := do
  String.fromUTF8? ⟨(← percentBytes s.toList).toArray⟩

theorem hexValue_upperHex : ∀ n < 16, hexValue (upperHex n) = some n := by decide

/-- **An escaped byte is read back.** -/
theorem percentBytes_pathEscapeByte (b : UInt8) (cs : List Char) :
    percentBytes (pathEscapeByte b ++ cs) = (percentBytes cs).map (b :: ·) := by
  have hb : b.toNat < 256 := b.toNat_lt
  by_cases hplain : isPathByte b
  · have hall : ∀ n < 256, isPathByte (.ofNat n) = true →
        Char.ofNat n ≠ '%' ∧ String.utf8EncodeChar (Char.ofNat n) = [.ofNat n] := by
      decide +kernel
    rw [← UInt8.ofNat_toNat (x := b)] at hplain
    obtain ⟨hne, hencode⟩ := hall b.toNat hb hplain
    rw [UInt8.ofNat_toNat] at hplain hencode
    rw [pathEscapeByte, if_pos hplain, List.singleton_append, percentBytes]
    · simp only [if_neg hne, hencode, Option.bind_eq_bind, Option.map_eq_bind]
      rfl
    · rintro a b' cs' h -
      exact hne h
  · have hhi : b.toNat / 16 < 16 := by omega
    have hlo : b.toNat % 16 < 16 := by omega
    have hval : b.toNat / 16 * 16 + b.toNat % 16 = b.toNat := by omega
    rw [pathEscapeByte, if_neg hplain]
    simp only [List.cons_append, List.nil_append, percentBytes, hexValue_upperHex _ hhi,
      hexValue_upperHex _ hlo, Option.bind_eq_bind, Option.bind_some, hval, UInt8.ofNat_toNat,
      Option.map_eq_bind]
    rfl

theorem percentBytes_flatMap (bs : List UInt8) :
    percentBytes (bs.flatMap pathEscapeByte) = some bs := by
  induction bs with
  | nil => rfl
  | cons b bs ih => rw [List.flatMap_cons, percentBytes_pathEscapeByte, ih, Option.map_some]

/-- **What is escaped is read back.** -/
theorem decodeURIComponent_pathEscape (s : String) :
    decodeURIComponent (pathEscape s) = some s := by
  rw [decodeURIComponent, pathEscape, String.toList_ofList, percentBytes_flatMap]
  exact dif_pos s.isValidUTF8

/-- Only the empty text is escaped as the empty text. -/
theorem pathEscape_eq_empty {s : String} : pathEscape s = "" ↔ s = "" := by
  constructor
  · intro h
    have hdecode := decodeURIComponent_pathEscape s
    rw [h] at hdecode
    exact (Option.some.inj (hdecode.symm.trans (decodeURIComponent_pathEscape "")))
  · rintro rfl
    rfl

end Js
