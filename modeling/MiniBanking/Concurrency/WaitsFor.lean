import Mathlib.Logic.Relation
import Mathlib.Order.Defs.Unbundled

/-!
# Waiting for locks

Parties take locks one at a time, and one that wants a lock another party holds waits for it. If
all parties take their locks in one order, nobody waits for itself in the end.

## Main definitions

* `WaitsFor`: a party wants what another one holds
* `InOrder`: locks that are taken in the order of a list come in the order of a relation

## Main results

* `acyclic_of_ordered`: what is wanted comes after all that is held, so there is no cycle
-/

namespace Concurrency

variable {ι κ : Type*} {wants : ι → Option κ} {holds : ι → κ → Prop} {r : κ → κ → Prop}

/-- A party wants what another one holds. -/
def WaitsFor (wants : ι → Option κ) (holds : ι → κ → Prop) (i j : ι) : Prop :=
  i ≠ j ∧ ∃ k ∈ wants i, holds j k

/-- Along the relation, what is wanted grows. -/
theorem lt_of_transGen [IsTrans κ r] (hr : ∀ i, ∀ k ∈ wants i, ∀ h, holds i h → r h k) {i j : ι}
    (hij : Relation.TransGen (WaitsFor wants holds) i j) {k' : κ} (hk' : k' ∈ wants j) :
    ∃ k ∈ wants i, r k k' := by
  induction hij generalizing k' with
  | single h =>
    obtain ⟨-, k, hk, hheld⟩ := h
    exact ⟨k, hk, hr _ k' hk' k hheld⟩
  | tail _ h ih =>
    obtain ⟨-, k₁, hk₁, hheld⟩ := h
    obtain ⟨k, hk, hlt⟩ := ih hk₁
    exact ⟨k, hk, IsTrans.trans _ _ _ hlt (hr _ k' hk' k₁ hheld)⟩

/-- **Ordered locks.** If what a party wants comes after all it holds, no party waits for itself. -/
theorem acyclic_of_ordered [IsStrictOrder κ r]
    (hr : ∀ i, ∀ k ∈ wants i, ∀ h, holds i h → r h k) (i : ι) :
    ¬ Relation.TransGen (WaitsFor wants holds) i i := by
  intro hcycle
  obtain ⟨j, ⟨-, k, hk, -⟩, -⟩ := Relation.TransGen.head'_iff.mp hcycle
  obtain ⟨k', hk', hlt⟩ := lt_of_transGen hr hcycle hk
  obtain rfl : k' = k := Option.some.inj (hk'.symm.trans hk)
  exact irrefl k' hlt

/-! ## Lists of locks -/

/-- Each element that is new comes after all elements before it. -/
def InOrder (r : κ → κ → Prop) (l : List κ) : Prop :=
  ∀ before k after, l = before ++ k :: after → k ∉ before → ∀ h ∈ before, r h k

theorem inOrder_nil : InOrder r [] := by
  intro before k after h
  cases before <;> cases h

theorem inOrder_of_pairwise {l : List κ} (h : l.Pairwise r) : InOrder r l := by
  rintro before k after rfl - h' hh'
  exact (List.pairwise_append.mp h).2.2 h' hh' k List.mem_cons_self

theorem InOrder.append_left {l l' : List κ} (h : InOrder r (l ++ l')) : InOrder r l := by
  rintro before k after rfl
  exact h before k (after ++ l') (by simp)

/-- One more lock that comes after the others, or is one of them. -/
theorem InOrder.snoc {l : List κ} {k : κ} (h : InOrder r l) (hk : k ∉ l → ∀ h ∈ l, r h k) :
    InOrder r (l ++ [k]) := by
  intro before k' after heq hnew
  rcases List.eq_nil_or_concat after with rfl | ⟨after, last, rfl⟩
  · obtain ⟨rfl, hlast⟩ := List.append_inj' heq rfl
    cases hlast
    exact hk hnew
  · rw [List.concat_eq_append, ← List.cons_append, ← List.append_assoc] at heq
    exact h before k' after (List.append_inj' heq rfl).1 hnew

theorem InOrder.mono {r' : κ → κ → Prop} {l : List κ} (h : InOrder r l)
    (hr : ∀ k ∈ l, ∀ k' ∈ l, r k k' → r' k k') : InOrder r' l := by
  rintro before k after rfl hnew k' hk'
  exact hr k' (List.mem_append_left _ hk') k (by simp) (h before k after rfl hnew k' hk')

end Concurrency
