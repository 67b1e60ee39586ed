import MiniBanking.Gateway.AuditSummary
import Mathlib.Algebra.Order.Group.Multiset

/-!
# Reports with a cap

A report that finds too much is cut twice: every source is read from its newest event on up to the
cap, and of what was read the oldest events are returned. What one source has left out at its old
end may lie in the middle of what is returned of the others.

## Main definitions

* `found`, `leftOut`: what is read of the sources, and what is not
* `Contiguous`: no event that is not returned lies between two that are
* `Logs.sources`: the events that match, by source

## Main results

* `contiguous_iff`: when a sorted and cut report has no hole
* `collect_contiguous_iff`: the same for what is collected from the logs
-/

namespace Gateway

open Bank Concurrency Js Postgres

/-! ## Reading some of each source, and returning some of that -/

section Cut

variable {E : Type} {ts : E → ℤ} {sources : List (List E)} {cap n : ℕ} {sorted : List E} {t : ℤ}

/-- The elements of the sources that are read. -/
def found (cap : ℕ) (sources : List (List E)) : List E := sources.flatMap (·.take cap)

/-- The elements of the sources that are not read. -/
def leftOut (cap : ℕ) (sources : List (List E)) : List E := sources.flatMap (·.drop cap)

/-- No element that is not returned has a time strictly between those of two that are. -/
def Contiguous [DecidableEq E] (ts : E → ℤ) (matching returned : List E) : Prop :=
  ∀ d ∈ (matching : Multiset E) - (returned : Multiset E), ∀ r ∈ returned, ∀ r' ∈ returned,
    ¬ (ts r < ts d ∧ ts d < ts r')

theorem found_append_leftOut (cap : ℕ) (sources : List (List E)) :
    (found cap sources ++ leftOut cap sources).Perm sources.flatten := by
  induction sources with
  | nil => exact .refl _
  | cons l sources ih =>
    simp only [found, leftOut, List.flatMap_cons, List.flatten_cons] at ih ⊢
    calc (l.take cap ++ sources.flatMap (·.take cap)) ++ (l.drop cap ++ sources.flatMap (·.drop cap))
      _ |>.Perm (l.take cap ++ l.drop cap ++
          (sources.flatMap (·.take cap) ++ sources.flatMap (·.drop cap))) := by
        rw [List.append_assoc, List.append_assoc]
        refine List.Perm.append_left _ ?_
        rw [← List.append_assoc, ← List.append_assoc]
        exact List.perm_append_comm.append_right _
      _ |>.Perm (l ++ sources.flatten) := by
        rw [List.take_append_drop]
        exact ih.append_left l

/-- An older element is returned exactly if one is read. -/
theorem exists_older_iff (hsorted : sorted.Pairwise fun a b => ts a ≤ ts b) :
    (∃ r ∈ sorted.take n, ts r < t) ↔ 0 < n ∧ ∃ e ∈ sorted, ts e < t := by
  constructor
  · rintro ⟨r, hr, hlt⟩
    refine ⟨Nat.pos_of_ne_zero ?_, r, List.mem_of_mem_take hr, hlt⟩
    rintro rfl
    rw [List.take_zero] at hr
    cases hr
  · rintro ⟨hn, e, he, hlt⟩
    obtain ⟨n, rfl⟩ : ∃ m, n = m + 1 := ⟨n - 1, by omega⟩
    -- the first element is one of the oldest
    cases sorted with
    | nil => cases he
    | cons a sorted =>
      refine ⟨a, List.mem_cons_self, ?_⟩
      rcases List.mem_cons.mp he with rfl | he
      · exact hlt
      · exact ((List.pairwise_cons.mp hsorted).1 e he).trans_lt hlt

/-- A newer element is returned exactly if too few are as old. -/
theorem exists_newer_iff (hsorted : sorted.Pairwise fun a b => ts a ≤ ts b)
    (hn : n ≤ sorted.length) :
    (∃ r ∈ sorted.take n, t < ts r) ↔ sorted.countP (fun e => ts e ≤ t) < n := by
  induction sorted generalizing n with
  | nil =>
    obtain rfl : n = 0 := Nat.le_zero.mp hn
    simp
  | cons a sorted ih =>
    cases n with
    | zero => simp
    | succ n =>
      rw [List.take_succ_cons, List.countP_cons]
      by_cases ha : ts a ≤ t
      · have hrest := ih (List.pairwise_cons.mp hsorted).2 (Nat.le_of_succ_le_succ hn)
        simp only [ha, decide_true, if_true, Nat.add_lt_add_iff_right, ← hrest, List.mem_cons,
          exists_eq_or_imp, Int.not_lt.mpr ha, false_or]
      · -- everything is newer than the first element
        have hnone : sorted.countP (fun e => ts e ≤ t) = 0 := by
          refine List.countP_eq_zero.mpr fun e he => ?_
          have hle := (List.pairwise_cons.mp hsorted).1 e he
          rw [decide_eq_true_eq]
          omega
        rw [hnone, decide_eq_false ha]
        refine iff_of_true ⟨a, List.mem_cons_self, by omega⟩ ?_
        simp

/-- A source of which something is not read fills the report. -/
theorem cap_le_found {d : E} (hd : d ∈ leftOut cap sources) : cap ≤ (found cap sources).length := by
  obtain ⟨l, hl, hd⟩ := List.mem_flatMap.mp hd
  have hlen : cap < l.length := by
    by_contra hle
    rw [List.drop_eq_nil_of_le (by omega)] at hd
    cases hd
  have hsub : (l.take cap).Sublist (found cap sources) := List.sublist_flatten_of_mem
    (List.mem_map_of_mem hl)
  have hle := hsub.length_le
  rw [List.length_take] at hle
  omega

/-- **When a sorted and cut report has no hole**: every element that is not read is as old as all
that are read, or there are enough that are as old as it is. -/
theorem contiguous_iff [DecidableEq E] (hperm : sorted.Perm (found cap sources))
    (hsorted : sorted.Pairwise fun a b => ts a ≤ ts b) :
    Contiguous ts sources.flatten (sorted.take cap) ↔
      ∀ d ∈ leftOut cap sources, (∀ e ∈ found cap sources, ts d ≤ ts e) ∨
        cap ≤ (found cap sources).countP fun e => ts e ≤ ts d := by
  -- what is not returned was not read, or is what comes after the cut
  have hmissing : ((sources.flatten : List E) : Multiset E) - (sorted.take cap : Multiset E) =
      (leftOut cap sources : Multiset E) + (sorted.drop cap : Multiset E) := by
    have hall : ((sources.flatten : List E) : Multiset E) = (sorted.take cap : Multiset E) +
        ((leftOut cap sources : Multiset E) + (sorted.drop cap : Multiset E)) := by
      rw [← Multiset.coe_eq_coe.mpr (found_append_leftOut cap sources), ← Multiset.coe_add,
        ← Multiset.coe_eq_coe.mpr hperm]
      conv_lhs => rw [← List.take_append_drop cap sorted, ← Multiset.coe_add]
      rw [add_assoc, add_comm (sorted.drop cap : Multiset E)]
    rw [hall, add_tsub_cancel_left]
  rw [Contiguous, hmissing]
  constructor
  · intro h d hd
    have hhole := h d (Multiset.mem_add.mpr (.inl hd))
    by_contra hnot
    push Not at hnot
    obtain ⟨⟨e, he, hlt⟩, hfew⟩ := hnot
    have hlen := cap_le_found hd
    obtain ⟨r, hr, hold⟩ := (exists_older_iff hsorted).mpr
      ⟨Nat.zero_lt_of_lt hfew, e, hperm.mem_iff.mpr he, hlt⟩
    obtain ⟨r', hr', hnew⟩ := (exists_newer_iff hsorted (hperm.length_eq ▸ hlen)).mpr
      (hperm.countP_eq _ ▸ hfew)
    exact hhole r hr r' hr' ⟨hold, hnew⟩
  · rintro h d hd r hr r' hr' ⟨hlt, hlt'⟩
    rcases Multiset.mem_add.mp hd with hd | hd
    · rcases h d hd with hnone | hmany
      · have hle := hnone r (hperm.mem_iff.mp (List.mem_of_mem_take hr))
        omega
      · have hfew := (exists_newer_iff hsorted (hperm.length_eq ▸ cap_le_found hd)).mp
          ⟨r', hr', hlt'⟩
        rw [hperm.countP_eq] at hfew
        omega
    · -- what comes after the cut is as new as all that is returned
      rw [← List.take_append_drop cap sorted] at hsorted
      have hle := (List.pairwise_append.mp hsorted).2.2 r' hr' d hd
      omega

end Cut

/-! ## What is collected -/

namespace Logs

variable {logs : Logs} {f : WindowFilter} {source : SourceFilter} {token : String} {cap : ℕ}

/-- The events that match, by the sources that answer. -/
def sources (logs : Logs) (f : WindowFilter) (source : SourceFilter) (token : String) :
    List (List NormalizedEvent) :=
  [if source.includes .ca && !f.reversed then logs.caEvents f else [],
    if source.includes .kdc && !f.reversed then logs.kdcEvents f else [],
    if logs.bankReached f source token then logs.bankEvents f else []]

theorem answer_fetched_error {fetch : Program pages (Except Unit (List NormalizedEvent))}
    (h : fetch.answer logs.reply = .error ()) (included : Bool) :
    ((fetched included fetch).answer logs.reply).1 = [] := by
  cases included with
  | false => rfl
  | true =>
    simp only [fetched, if_true, Program.answer_bind, h]
    rfl

/-- A window that ends before it begins is refused by the CA. -/
theorem answer_fetchCa (hcap : 0 < cap) (included : Bool) :
    ((fetched included (fetchCaWindow f cap)).answer logs.reply).1 =
      (if included && !f.reversed then logs.caEvents f else []).take cap := by
  cases hf : f.reversed with
  | false =>
    rw [answer_fetched (answer_fetchCaWindow hf cap), taken]
    cases included <;> simp
  | true =>
    have hask : ∀ offset, (issue (S := pages) (.ca f offset)).answer logs.reply = .error () := by
      intro offset
      show logs.reply (.ca f offset) = _
      simp only [reply, hf, if_true]
    rw [fetchCaWindow, answer_fetched_error (answer_fetchWindow_error hask hcap)]
    simp

/-- A window that ends before it begins is refused by the KDC. -/
theorem answer_fetchKdc (hcap : 0 < cap) (included : Bool) :
    ((fetched included (fetchKdcWindow f cap)).answer logs.reply).1 =
      (if included && !f.reversed then logs.kdcEvents f else []).take cap := by
  cases hf : f.reversed with
  | false =>
    rw [answer_fetched (answer_fetchKdcWindow hf cap), taken]
    cases included <;> simp
  | true =>
    have hask : ∀ offset, (issue (S := pages) (.kdc f offset)).answer logs.reply = .error () := by
      intro offset
      show logs.reply (.kdc f offset) = _
      simp only [reply, hf, if_true]
    rw [fetchKdcWindow, answer_fetched_error (answer_fetchWindow_error hask hcap)]
    simp

/-- **What is collected**, for any window and any cap. -/
theorem events_collect (logs : Logs) (f : WindowFilter) (source : SourceFilter) (token : String)
    (cap : ℕ) : ((collect token f cap source).answer logs.reply).events =
      ((sortEvents (found cap (logs.sources f source token))).take cap).map enrich := by
  rcases Nat.eq_zero_or_pos cap with rfl | hcap
  · simp only [collect, Program.answer_bind, List.take_zero]
    rfl
  have hbank := @answer_fetchedBank logs f source token cap hcap
  rw [taken, show (if logs.bankReached f source token then (logs.bankEvents f).take cap else []) =
    (if logs.bankReached f source token then logs.bankEvents f else []).take cap by
      split <;> simp] at hbank
  simp only [collect, Program.answer_bind]
  rw [show found cap (logs.sources f source token) =
    ((fetched (source.includes .ca) (fetchCaWindow f cap)).answer logs.reply).1 ++
      ((fetched (source.includes .kdc) (fetchKdcWindow f cap)).answer logs.reply).1 ++
      ((fetchedBank (source.includes .bank) token f cap).answer logs.reply).1 by
    rw [answer_fetchCa hcap, answer_fetchKdc hcap, hbank]
    simp [found, sources]]
  rfl

theorem sorted_sortEvents (events : List NormalizedEvent) :
    (sortEvents events).Pairwise fun a b => a.ts ≤ b.ts := by
  have htrans : ∀ a b c : NormalizedEvent, decide (a.ts ≤ b.ts) = true →
      decide (b.ts ≤ c.ts) = true → decide (a.ts ≤ c.ts) = true := by
    intro a b c
    simpa using Int.le_trans
  have htotal : ∀ a b : NormalizedEvent,
      (decide (a.ts ≤ b.ts) || decide (b.ts ≤ a.ts)) = true := by
    intro a b
    simpa using Int.le_total a.ts b.ts
  exact (List.pairwise_mergeSort htrans htotal events).imp fun h => of_decide_eq_true h

/-- Every event that is left out of its source is as old as all events that are read, or at least
`cap` of these are as old as it is. -/
def CutEvenly (logs : Logs) (f : WindowFilter) (source : SourceFilter) (token : String)
    (cap : ℕ) : Prop :=
  ∀ d ∈ leftOut cap (logs.sources f source token),
    (∀ e ∈ found cap (logs.sources f source token), d.ts ≤ e.ts) ∨
      cap ≤ (found cap (logs.sources f source token)).countP fun e => e.ts ≤ d.ts

instance : Decidable (logs.CutEvenly f source token cap) := by
  unfold CutEvenly
  infer_instance

theorem contiguous_collect (logs : Logs) (f : WindowFilter) (source : SourceFilter)
    (token : String) (cap : ℕ) :
    Contiguous (fun e => e.ts) ((logs.sources f source token).flatten.map enrich)
        ((collect token f cap source).answer logs.reply).events ↔
      logs.CutEvenly f source token cap := by
  have hfound : found cap ((logs.sources f source token).map (List.map enrich)) =
      (found cap (logs.sources f source token)).map enrich := by
    simp only [found, List.flatMap_map, List.map_flatMap, List.map_take]
  have hleft : leftOut cap ((logs.sources f source token).map (List.map enrich)) =
      (leftOut cap (logs.sources f source token)).map enrich := by
    simp only [leftOut, List.flatMap_map, List.map_flatMap, List.map_drop]
  have hperm : ((sortEvents (found cap (logs.sources f source token))).map enrich).Perm
      (found cap ((logs.sources f source token).map (List.map enrich))) :=
    hfound ▸ (List.mergeSort_perm _ _).map enrich
  have hsorted : ((sortEvents (found cap (logs.sources f source token))).map enrich).Pairwise
      fun a b => a.ts ≤ b.ts :=
    List.pairwise_map.mpr (sorted_sortEvents _)
  have hcut := @contiguous_iff EnrichedEvent (fun e => e.ts) _ cap _ _ hperm hsorted
  rw [hfound, hleft] at hcut
  rw [events_collect, List.map_take, List.map_flatten]
  refine hcut.trans ?_
  simp only [List.mem_map, forall_exists_index, and_imp, forall_apply_eq_imp_iff₂,
    List.countP_map]
  rfl

/-- Nothing is left out of a source if no more than the cap match. -/
theorem cutEvenly_of_le (h : (logs.sources f source token).flatten.length ≤ cap) :
    logs.CutEvenly f source token cap := by
  intro d hd
  have hlen := (found_append_leftOut cap (logs.sources f source token)).length_eq
  have hpos := List.length_pos_of_mem hd
  rw [List.length_append] at hlen
  have := cap_le_found hd
  omega

/-- **A capped report has no hole** exactly if its sources are cut evenly. -/
theorem collect_contiguous_iff (logs : Logs) (f : WindowFilter) (source : SourceFilter)
    (token : String) (cap : ℕ) :
    (cap < (logs.sources f source token).flatten.length →
      Contiguous (fun e => e.ts) ((logs.sources f source token).flatten.map enrich)
        ((collect token f cap source).answer logs.reply).events) ↔
      logs.CutEvenly f source token cap := by
  rw [contiguous_collect]
  refine ⟨fun h => ?_, fun h _ => h⟩
  by_cases hmany : cap < (logs.sources f source token).flatten.length
  · exact h hmany
  · exact cutEvenly_of_le (Nat.not_lt.mp hmany)

end Logs

/-- A row of the KDC with an action, at a number of seconds. -/
def sampleKdcRow (seconds : ℤ) (action : Checked 30 Kdc.auditActions) : KdcRow where
  row := {
    id := Vector.replicate 16 1, action, clientID := none, certSerial := none, scope := none,
    reason := none, requestID := none, ip := none, seq := 1, prevHash := none, hash := none }
  micros := seconds * 1000000
  metadata := none

/-- An old transfer in the log of the bank, and newer tickets in the one of the KDC. -/
def burst (tickets : List ℤ) : Logs :=
  { sampleLogs "transfer_completed" with
    kdc := tickets.filterMap fun seconds =>
      (Checked.of 30 Kdc.auditActions "as_ticket_issued").map (sampleKdcRow seconds) }

/-- Of three tickets after a transfer, a report of two events has the transfer and the second
ticket, but not the first. -/
theorem burst_not_contiguous : ¬ ∀ (logs : Logs) (f : WindowFilter) (source : SourceFilter)
    (token : String) (cap : ℕ), cap < (logs.sources f source token).flatten.length →
      Contiguous (fun e => e.ts) ((logs.sources f source token).flatten.map enrich)
        ((collect token f cap source).answer logs.reply).events := by
  intro hall
  have hcap : 2 < ((burst [1000005, 1000010, 1000020]).sources ⟨0, 0⟩ none "admin").flatten.length := by
    decide +kernel
  have huneven : ¬ (burst [1000005, 1000010, 1000020]).CutEvenly ⟨0, 0⟩ none "admin" 2 := by
    decide +kernel
  exact huneven ((Logs.contiguous_collect _ _ _ _ _).mp (hall _ ⟨0, 0⟩ none "admin" 2 hcap))

end Gateway
