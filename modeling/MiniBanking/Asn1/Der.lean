import Mathlib.Algebra.Group.Nat.Defs
import Mathlib.Data.List.Basic

/-!
# Elements of DER

An element is a tag, the length of its content and the content. A length below 128 has one byte. A
greater one has as many bytes as it needs, with the number of them in front.

## Main definitions

* `base256`: the bytes of a number
* `lengthOctets`: the bytes of a length
* `element`: an element

## Main results

* `foldl_base256`: a number is read back from its bytes
* `length_base256_le`: how many bytes a number has
-/

namespace Asn1

/-! ## The highest bit -/

theorem nat_and_128_eq_zero : ∀ n < 256, n &&& 128 = 0 ↔ n < 128 := by decide +kernel

theorem and_128_eq_zero (b : UInt8) : b &&& 0x80 = 0 ↔ b.toNat < 128 := by
  rw [← UInt8.toNat_inj, UInt8.toNat_and]
  exact nat_and_128_eq_zero b.toNat b.toNat_lt

theorem toNat_and_127 (b : UInt8) : (b &&& 0x7F).toNat = b.toNat % 128 := by
  rw [UInt8.toNat_and]
  exact Nat.and_two_pow_sub_one_eq_mod b.toNat 7

/-! ## Numbers -/

/-- The bytes of a number, none for zero. -/
def base256 (n : ℕ) : List UInt8 :=
  if n = 0 then [] else base256 (n / 256) ++ [UInt8.ofNat (n % 256)]
termination_by n

@[simp] theorem base256_zero : base256 0 = [] := by
  unfold base256
  exact if_pos rfl

theorem base256_of_ne {n : ℕ} (h : n ≠ 0) :
    base256 n = base256 (n / 256) ++ [UInt8.ofNat (n % 256)] := by
  rw [base256]
  exact if_neg h

/-- A number is read back from its bytes. -/
theorem foldl_base256 (n : ℕ) : (base256 n).foldl (fun m b => m * 256 + b.toNat) 0 = n := by
  induction n using Nat.strongRecOn with
  | _ n ih =>
    by_cases h : n = 0
    · subst h
      rw [base256_zero]
      rfl
    · have hbyte : (UInt8.ofNat (n % 256)).toNat = n % 256 := by
        rw [UInt8.toNat_ofNat']
        omega
      rw [base256_of_ne h, List.foldl_append, ih (n / 256) (by omega), List.foldl_cons,
        List.foldl_nil, hbyte]
      omega

/-- A number below `256 ^ k` has at most `k` bytes. -/
theorem length_base256_le {k n : ℕ} (h : n < 256 ^ k) : (base256 n).length ≤ k := by
  induction k generalizing n with
  | zero =>
    obtain rfl : n = 0 := by omega
    rw [base256_zero]
    exact Nat.le_refl 0
  | succ k ih =>
    by_cases hzero : n = 0
    · subst hzero
      rw [base256_zero]
      exact Nat.zero_le _
    · have hlt : n / 256 < 256 ^ k := by
        rw [Nat.div_lt_iff_lt_mul (by decide), ← Nat.pow_succ]
        exact h
      have := ih hlt
      rw [base256_of_ne hzero, List.length_append, List.length_singleton]
      omega

theorem base256_ne_nil {n : ℕ} (h : n ≠ 0) : base256 n ≠ [] := by
  rw [base256_of_ne h]
  exact List.append_ne_nil_of_right_ne_nil _ (List.cons_ne_nil _ _)

/-! ## Elements -/

/-- The bytes of a length. -/
def lengthOctets (n : ℕ) : List UInt8 :=
  if n < 128 then [UInt8.ofNat n] else UInt8.ofNat (128 + (base256 n).length) :: base256 n

/-- An element. -/
def element (tag : UInt8) (content : List UInt8) : List UInt8 :=
  tag :: (lengthOctets content.length ++ content)

theorem element_of_lt (tag : UInt8) {content : List UInt8} (h : content.length < 128) :
    element tag content = tag :: UInt8.ofNat content.length :: content := by
  rw [element, lengthOctets, if_pos h, List.singleton_append]

theorem element_of_le (tag : UInt8) {content : List UInt8} (h : 128 ≤ content.length) :
    element tag content = tag :: UInt8.ofNat (128 + (base256 content.length).length) ::
      (base256 content.length ++ content) := by
  rw [element, lengthOctets, if_neg (by omega), List.cons_append]

/-- An element is longer than its content. -/
theorem length_element_gt (tag : UInt8) (content : List UInt8) :
    content.length + 2 ≤ (element tag content).length := by
  rw [element, lengthOctets, List.length_cons, List.length_append]
  split <;> simp <;> omega

end Asn1
