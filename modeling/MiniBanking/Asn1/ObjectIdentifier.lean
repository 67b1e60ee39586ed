import Mathlib.Data.List.Basic
import Mathlib.Tactic.IntervalCases

/-!
# Object identifiers

An object identifier is a list of arcs. X.690 packs its first two arcs into one number and writes
every number in base 128, with as few bytes as possible; all bytes of a number but the last one
have their highest bit set.

## Main definitions

* `ObjectIdentifier`: an object identifier, with the bounds of its first two arcs
* `ObjectIdentifier.content`: its bytes
* `ObjectIdentifier.dotted`: its dotted name

## Main results

* `dotted_injective`: the dotted name determines the object identifier
-/

namespace Asn1

/-! ## Numbers -/

/-- The bytes of a number that is not the last one, none for zero. -/
def leading (n : ℕ) : List UInt8 :=
  if n = 0 then [] else leading (n / 128) ++ [UInt8.ofNat (128 + n % 128)]
termination_by n

/-- The bytes of a number. -/
def subidentifier (n : ℕ) : List UInt8 := leading (n / 128) ++ [UInt8.ofNat (n % 128)]

@[simp] theorem leading_zero : leading 0 = [] := by
  unfold leading
  exact if_pos rfl

theorem leading_of_ne {n : ℕ} (h : n ≠ 0) :
    leading n = leading (n / 128) ++ [UInt8.ofNat (128 + n % 128)] := by
  rw [leading]
  exact if_neg h

/-- A number below 128 is its own byte. -/
theorem subidentifier_of_lt {n : ℕ} (h : n < 128) : subidentifier n = [UInt8.ofNat n] := by
  rw [subidentifier, Nat.div_eq_of_lt h, leading_zero, List.nil_append, Nat.mod_eq_of_lt h]

/-- The first byte of a greater number has its highest bit set. -/
theorem exists_leading {n : ℕ} (h : n ≠ 0) :
    ∃ b rest, leading n = b :: rest ∧ 128 ≤ b.toNat := by
  induction n using Nat.strongRecOn with
  | _ n ih =>
    rw [leading_of_ne h]
    by_cases hzero : n / 128 = 0
    · refine ⟨_, [], by rw [hzero, leading_zero, List.nil_append], ?_⟩
      rw [UInt8.toNat_ofNat']
      omega
    · obtain ⟨b, rest, heq, hb⟩ := ih (n / 128) (by omega) hzero
      exact ⟨b, _, by rw [heq, List.cons_append], hb⟩

/-- The first byte of a number tells whether it is the only one. -/
theorem exists_subidentifier (n : ℕ) :
    ∃ b rest, subidentifier n = b :: rest ∧ (b.toNat < 128 ↔ n < 128) ∧
      (n < 128 → b.toNat = n) := by
  by_cases h : n < 128
  · refine ⟨UInt8.ofNat n, [], subidentifier_of_lt h, ?_, fun _ => ?_⟩
    all_goals
      rw [UInt8.toNat_ofNat']
      omega
  · obtain ⟨b, rest, heq, hb⟩ := exists_leading (show n / 128 ≠ 0 by omega)
    refine ⟨b, rest ++ [UInt8.ofNat (n % 128)], ?_, ?_, ?_⟩
    · rw [subidentifier, heq, List.cons_append]
    all_goals omega

/-! ## Object identifiers -/

/-- An object identifier: there are three first arcs, and the first two have at most forty arcs
below them. -/
@[ext]
structure ObjectIdentifier where
  first : ℕ
  second : ℕ
  rest : List ℕ
  first_le : first ≤ 2
  second_lt : first < 2 → second < 40
  deriving DecidableEq

namespace ObjectIdentifier

variable (o : ObjectIdentifier)

def arcs : List ℕ := o.first :: o.second :: o.rest

/-- The numbers that are written. -/
def subidentifiers : List ℕ := (40 * o.first + o.second) :: o.rest

/-- The bytes of an object identifier. -/
def content : List UInt8 := o.subidentifiers.flatMap subidentifier

/-- The dotted name. -/
def dotted : String := ".".intercalate (o.arcs.map toString)

/-- Every number that is written is below a bound. -/
def Below (bound : ℕ) : Prop := ∀ n ∈ o.subidentifiers, n < bound

/-- The first byte of an object identifier. -/
theorem exists_content : ∃ b rest, o.content = b :: rest ∧
    (b.toNat < 128 ↔ 40 * o.first + o.second < 128) ∧
    (40 * o.first + o.second < 128 → b.toNat = 40 * o.first + o.second) := by
  obtain ⟨b, rest, heq, hlt, hb⟩ := exists_subidentifier (40 * o.first + o.second)
  exact ⟨b, rest ++ o.rest.flatMap subidentifier, by
    rw [content, subidentifiers, List.flatMap_cons, heq, List.cons_append], hlt, hb⟩

end ObjectIdentifier

/-! ## Dotted names -/

theorem dot_not_mem (n : ℕ) : '.' ∉ (toString n).toList := by
  intro h
  rw [Nat.toString_eq_ofList_toDigits, String.toList_ofList] at h
  exact absurd (Nat.isDigit_of_mem_toDigits (by decide) (by decide) h) (by decide)

theorem toString_nat_injective : Function.Injective fun n : ℕ => toString n := by
  intro m n h
  have hlist := congrArg String.toList (show toString m = toString n from h)
  rw [Nat.toString_eq_ofList_toDigits, Nat.toString_eq_ofList_toDigits, String.toList_ofList,
    String.toList_ofList] at hlist
  have := Nat.ofDigitChars_toDigits (n := n) (show 1 < 10 by decide) (by decide)
  rwa [← hlist, Nat.ofDigitChars_toDigits (by decide) (by decide)] at this

/-- Numbers are read off a text in which dots separate them. -/
theorem intercalate_dot_injective {ms ns : List ℕ} (hms : ms ≠ []) (hns : ns ≠ [])
    (h : ".".intercalate (ms.map toString) = ".".intercalate (ns.map toString)) : ms = ns := by
  have hsplit : ∀ ls : List ℕ, ls ≠ [] →
      (".".intercalate (ls.map toString)).toList.splitOn '.' =
        ls.map fun n => (toString n).toList := by
    intro ls hls
    rw [String.toList_intercalate, List.map_map]
    refine List.splitOn_intercalate '.' ?_ (by simpa using hls)
    intro l hl
    obtain ⟨n, -, rfl⟩ := List.mem_map.mp hl
    exact dot_not_mem n
  have heq := hsplit ms hms
  rw [h, hsplit ns hns] at heq
  exact (List.map_injective_iff.mpr fun m n hmn =>
    toString_nat_injective (String.toList_inj.mp hmn)) heq.symm

/-- **The dotted name determines the object identifier.** -/
theorem dotted_injective : Function.Injective ObjectIdentifier.dotted := by
  intro o o' h
  have harcs := intercalate_dot_injective (List.cons_ne_nil _ _) (List.cons_ne_nil _ _) h
  obtain ⟨hfirst, htail⟩ := List.cons.inj harcs
  obtain ⟨hsecond, hrest⟩ := List.cons.inj htail
  exact ObjectIdentifier.ext hfirst hsecond hrest

end Asn1
