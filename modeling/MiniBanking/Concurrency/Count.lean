import MiniBanking.Concurrency.Log
import Mathlib.Data.Finset.Card

/-!
# Counting calls

How many calls of a state are of a kind, and how a step changes their number: it touches one call.

## Main definitions

* `State.ids`: the calls of a kind

## Main results

* `State.ids_put`: a call is replaced
-/

namespace Concurrency

namespace State

variable {M : Machine} (s : State M) (P : Call M → Prop) [DecidablePred P]

/-- The calls of a kind, by their ids. -/
def ids : Finset ℕ := ((s.calls.entries.filter fun c => P c.2).map (·.1)).toFinset

variable {s P}

theorem mem_ids {i : ℕ} : i ∈ s.ids P ↔ ∃ c, s.call i = some c ∧ P c := by
  simp only [ids, List.mem_toFinset, List.mem_map, List.mem_filter, decide_eq_true_eq, call]
  constructor
  · rintro ⟨⟨j, c⟩, ⟨hmem, hc⟩, rfl⟩
    exact ⟨c, AList.mem_lookup_iff.mpr hmem, hc⟩
  · rintro ⟨c, hc, hP⟩
    exact ⟨⟨i, c⟩, ⟨AList.mem_lookup_iff.mp hc, hP⟩, rfl⟩

/-- A call that is replaced is counted for what it is now. -/
theorem ids_put (i : ℕ) (c : Call M) :
    (s.put i c).ids P = if P c then insert i (s.ids P) else (s.ids P).erase i := by
  ext j
  rw [mem_ids, call_put]
  by_cases hP : P c
  · rw [if_pos hP, Finset.mem_insert, mem_ids]
    by_cases hji : j = i
    · simp [hji, hP]
    · simp [hji]
  · rw [if_neg hP, Finset.mem_erase, mem_ids]
    by_cases hji : j = i
    · simp [hji, hP]
    · simp [hji]

/-- A call that stays what it is changes no number. -/
theorem ids_put_of_iff {i : ℕ} {c c' : Call M} (hc : s.call i = some c) (h : P c' ↔ P c) :
    (s.put i c').ids P = s.ids P := by
  ext j
  rw [mem_ids, mem_ids, call_put]
  by_cases hji : j = i
  · subst hji
    simp [hc, h]
  · simp [hji]

/-- A new call that is not of the kind changes no number. -/
theorem ids_put_of_not {i : ℕ} {c : Call M} (hi : s.call i = none) (h : ¬ P c) :
    (s.put i c).ids P = s.ids P := by
  ext j
  rw [mem_ids, mem_ids, call_put]
  by_cases hji : j = i
  · subst hji
    simp [hi, h]
  · simp [hji]

end State

end Concurrency
