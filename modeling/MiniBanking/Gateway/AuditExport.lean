import Mathlib.Algebra.Order.Group.Multiset
import MiniBanking.Gateway.AuditSummary

/-!
# Exports

An export has the events of a time window. The window of the CA and of the KDC does not contain
its end, but that of the bank does.

## Main definitions

* `handleAuditExport`: an export, as a program over the requests for pages
* `Logs.exported`: the events of an export from logs that nobody writes to
* `Logs.Stored`: an event that is stored with a time
* `Logs.Tiled`: two adjacent exports make up the export of both windows

## Main results

* `exports_tile_iff`: adjacent exports tile exactly if the bank has no row at their ends
-/

namespace Gateway

open Bank Concurrency Js Postgres

def exportCap : ℕ := 5000

/-- The query of an export, as its schema parses it. -/
structure ExportQuery where
  source : SourceFilter
  fromUnix : ℤ
  toUnix : ℤ

/-- What an export sends. -/
structure ExportFile where
  items : List EnrichedEvent
  capped : Bool

/-- `handleAuditExport` -/
def handleAuditExport (bankToken : String) (q : ExportQuery) :
    Program pages (Except String ExportFile) :=
  if 0 < q.fromUnix ∧ 0 < q.toUnix ∧ q.toUnix < q.fromUnix then
    return .error "to must not be before from"
  else do
    let collected ← collect bankToken ⟨q.fromUnix, q.toUnix⟩ exportCap q.source
    return .ok { items := collected.events, capped := exportCap ≤ collected.events.length }

namespace Logs

section Export

variable (logs : Logs) (token : String) (source : SourceFilter)

/-- The events of an export. -/
def exported (fromUnix toUnix : ℤ) : List EnrichedEvent :=
  match (handleAuditExport token ⟨source, fromUnix, toUnix⟩).answer logs.reply with
  | .ok file => file.items
  | .error _ => []

/-- The events of a window in the logs that an export reads. -/
def exportable (f : WindowFilter) : List NormalizedEvent :=
  (if source.includes .ca then logs.caEvents f else []) ++
    (if source.includes .kdc then logs.kdcEvents f else []) ++
    (if logs.bankReached f source token then logs.bankEvents f else [])

/-- The event is stored with a time in microseconds. -/
def Stored (e : NormalizedEvent) (micros : ℤ) : Prop :=
  (∃ r ∈ logs.ca, caEvent r.message = e ∧ r.micros = micros) ∨
    (∃ r ∈ logs.kdc, kdcEvent r.message = e ∧ r.micros = micros) ∨
    ∃ r ∈ logs.bank, bankEvent r.message = e ∧ r.micros = micros

/-- Every event of an export is stored with a time in its window. -/
def InWindow (fromUnix toUnix : ℤ) : Prop :=
  ∀ e ∈ logs.exported token source fromUnix toUnix, ∃ micros,
    logs.Stored e.toNormalizedEvent micros ∧
      fromUnix * 1000000 ≤ micros ∧ micros < toUnix * 1000000

/-- Two adjacent exports make up the export of both windows, and every event is in its window. -/
structure Tiled (a b c : ℤ) : Prop where
  union : (logs.exported token source a b ++ logs.exported token source b c).Perm
    (logs.exported token source a c)
  left : logs.InWindow token source a b
  right : logs.InWindow token source b c
  whole : logs.InWindow token source a c

end Export

variable {logs : Logs} {token : String} {source : SourceFilter} {f : WindowFilter} {a b c : ℤ}

/-! ## What is exported -/

/-- What is exported, if there is no more than the cap. -/
theorem exported_perm (hab : a < b)
    (hcap : (logs.exportable token source ⟨a, b⟩).length ≤ exportCap) :
    (logs.exported token source a b).Perm
      ((logs.exportable token source ⟨a, b⟩).map enrich) := by
  have hreversed : (WindowFilter.mk a b).reversed = false := by
    rw [WindowFilter.reversed, Bool.and_eq_false_iff, decide_eq_false_iff_not]
    right
    show ¬ b < a
    omega
  have hcollect := answer_collect logs source token hreversed (show 0 < exportCap by decide)
  -- no source has more than the cap
  have htaken : taken (source.includes .ca) exportCap (logs.caEvents ⟨a, b⟩) ++
      taken (source.includes .kdc) exportCap (logs.kdcEvents ⟨a, b⟩) ++
      taken (logs.bankReached ⟨a, b⟩ source token) exportCap (logs.bankEvents ⟨a, b⟩) =
        logs.exportable token source ⟨a, b⟩ := by
    simp only [exportable, List.length_append] at hcap
    rw [taken_eq (by omega), taken_eq (by omega), taken_eq (by omega), exportable]
  rw [htaken, List.take_of_length_le (by rw [sortEvents, List.length_mergeSort]; exact hcap)]
    at hcollect
  have hexported : logs.exported token source a b =
      (sortEvents (logs.exportable token source ⟨a, b⟩)).map enrich := by
    rw [exported, handleAuditExport, if_neg (by rintro ⟨-, -, h⟩; exact absurd h (by simp; omega)),
      Program.answer_bind, ← hcollect]
    rfl
  rw [hexported]
  exact (List.mergeSort_perm _ _).map _

/-! ## The rows of adjacent windows -/

theorem holds_iff {micros : ℤ} (ha : 0 < a) (hb : 0 < b) :
    (WindowFilter.mk a b).holds micros = true ↔
      a * 1000000 ≤ micros ∧ micros < b * 1000000 := by
  simp only [WindowFilter.holds, WindowFilter.since, Bool.and_eq_true, Bool.or_eq_true,
    decide_eq_true_eq]
  omega

theorem bankHolds_iff {micros : ℤ} (ha : 0 < a) (hb : 0 < b) :
    (WindowFilter.mk a b).bankHolds micros = true ↔
      a * 1000000 ≤ micros ∧ micros ≤ b * 1000000 := by
  simp only [WindowFilter.bankHolds, WindowFilter.since, Bool.and_eq_true, Bool.or_eq_true,
    decide_eq_true_eq]
  omega

/-- Elements with one of two properties that exclude each other. -/
theorem filter_append_filter_perm {A : Type} {p q r : A → Bool} {l : List A}
    (hor : ∀ x ∈ l, p x = true ↔ q x = true ∨ r x = true)
    (hnot : ∀ x ∈ l, ¬ (q x = true ∧ r x = true)) :
    (l.filter q ++ l.filter r).Perm (l.filter p) := by
  have hq : l.filter q = (l.filter p).filter q := by
    rw [List.filter_filter]
    refine List.filter_congr fun x hx => ?_
    rw [Bool.eq_iff_iff, Bool.and_eq_true]
    exact ⟨fun h => ⟨h, (hor x hx).mpr (.inl h)⟩, And.left⟩
  have hr : l.filter r = (l.filter p).filter (!q ·) := by
    rw [List.filter_filter]
    refine List.filter_congr fun x hx => ?_
    rw [Bool.eq_iff_iff, Bool.and_eq_true, Bool.not_eq_true']
    constructor
    · intro h
      refine ⟨?_, (hor x hx).mpr (.inr h)⟩
      rw [← Bool.not_eq_true]
      exact fun hq => hnot x hx ⟨hq, h⟩
    · rintro ⟨hq, hp⟩
      rcases (hor x hx).mp hp with h | h
      · rw [h] at hq
        cases hq
      · exact h
  rw [hq, hr]
  exact List.filter_append_perm q (l.filter p)

section Windows

variable (ha : 0 < a) (hab : a < b) (hbc : b < c)
include ha hab hbc

theorem filter_holds_perm {A : Type} (l : List A) (micros : A → ℤ) :
    (l.filter (fun x => (WindowFilter.mk a b).holds (micros x)) ++
        l.filter fun x => (WindowFilter.mk b c).holds (micros x)).Perm
      (l.filter fun x => (WindowFilter.mk a c).holds (micros x)) := by
  refine filter_append_filter_perm (fun x _ => ?_) fun x _ => ?_
  · rw [holds_iff ha (by omega), holds_iff ha (by omega), holds_iff (by omega) (by omega)]
    omega
  · rw [holds_iff ha (by omega), holds_iff (by omega) (by omega)]
    omega

theorem caEvents_perm :
    (logs.caEvents ⟨a, b⟩ ++ logs.caEvents ⟨b, c⟩).Perm (logs.caEvents ⟨a, c⟩) := by
  rw [caEvents, caEvents, caEvents, ← List.map_append]
  refine List.Perm.map _ ?_
  refine ((logs.caOrder.perm _).append (logs.caOrder.perm _)).trans ?_
  exact (filter_holds_perm ha hab hbc logs.ca (·.micros)).trans (logs.caOrder.perm _).symm

theorem kdcEvents_perm :
    (logs.kdcEvents ⟨a, b⟩ ++ logs.kdcEvents ⟨b, c⟩).Perm (logs.kdcEvents ⟨a, c⟩) := by
  rw [kdcEvents, kdcEvents, kdcEvents, ← List.map_append]
  refine List.Perm.map _ ?_
  refine ((logs.kdcOrder.perm _).append (logs.kdcOrder.perm _)).trans ?_
  exact (filter_holds_perm ha hab hbc logs.kdc (·.micros)).trans (logs.kdcOrder.perm _).symm

/-- The windows of the bank overlap only in the instant between them. -/
theorem bankEvents_perm (hb : ∀ r ∈ logs.bank, r.micros ≠ b * 1000000) :
    (logs.bankEvents ⟨a, b⟩ ++ logs.bankEvents ⟨b, c⟩).Perm (logs.bankEvents ⟨a, c⟩) := by
  rw [bankEvents, bankEvents, bankEvents, ← List.map_append]
  refine List.Perm.map _ ?_
  refine ((logs.bankOrder.perm _).append (logs.bankOrder.perm _)).trans ?_
  refine List.Perm.trans ?_ (logs.bankOrder.perm _).symm
  refine filter_append_filter_perm (fun r _ => ?_) fun r hr => ?_
  · rw [bankHolds_iff ha (by omega), bankHolds_iff ha (by omega),
      bankHolds_iff (by omega) (by omega)]
    omega
  · have := hb r hr
    rw [bankHolds_iff ha (by omega), bankHolds_iff (by omega) (by omega)]
    omega

end Windows

/-- The bank answers for any window that ends after it begins. -/
theorem bankReached_eq (ha : 0 < a) (hab : a < b) :
    logs.bankReached ⟨a, b⟩ source token =
      (source.includes .bank && token ≠ "" && logs.session token) := by
  have hrange : (WindowFilter.mk a b).bankRefuses = false := by
    simp only [WindowFilter.bankRefuses, WindowFilter.reversed, Bool.or_eq_false_iff,
      Bool.and_eq_false_iff, decide_eq_false_iff_not]
    omega
  rw [bankReached, hrange, Bool.not_false, Bool.and_true]

/-- A window has no more events than a wider one. -/
theorem length_exportable_le (logs : Logs) (token : String) (source : SourceFilter) {a' b' : ℤ}
    (ha : 0 < a) (haa : a ≤ a') (hab : a' < b') (hbb : b' ≤ b) :
    (logs.exportable token source ⟨a', b'⟩).length ≤
      (logs.exportable token source ⟨a, b⟩).length := by
  have hle : ∀ {A : Type} {p q : A → Bool} (l : List A), (∀ x ∈ l, p x = true → q x = true) →
      (l.filter p).length ≤ (l.filter q).length := by
    intro A p q l h
    rw [← List.countP_eq_length_filter, ← List.countP_eq_length_filter]
    exact List.countP_mono_left h
  have hca : (logs.caEvents ⟨a', b'⟩).length ≤ (logs.caEvents ⟨a, b⟩).length := by
    rw [caEvents, caEvents, List.length_map, List.length_map, caRows, caRows,
      (logs.caOrder.perm _).length_eq, (logs.caOrder.perm _).length_eq]
    refine hle _ fun r _ => ?_
    rw [holds_iff (by omega) (by omega), holds_iff ha (by omega)]
    omega
  have hkdc : (logs.kdcEvents ⟨a', b'⟩).length ≤ (logs.kdcEvents ⟨a, b⟩).length := by
    rw [kdcEvents, kdcEvents, List.length_map, List.length_map, kdcRows, kdcRows,
      (logs.kdcOrder.perm _).length_eq, (logs.kdcOrder.perm _).length_eq]
    refine hle _ fun r _ => ?_
    rw [holds_iff (by omega) (by omega), holds_iff ha (by omega)]
    omega
  have hbank : (logs.bankEvents ⟨a', b'⟩).length ≤ (logs.bankEvents ⟨a, b⟩).length := by
    rw [bankEvents, bankEvents, List.length_map, List.length_map, bankRows, bankRows,
      (logs.bankOrder.perm _).length_eq, (logs.bankOrder.perm _).length_eq]
    refine hle _ fun r _ => ?_
    rw [bankHolds_iff (by omega) (by omega), bankHolds_iff ha (by omega)]
    omega
  rw [exportable, exportable, bankReached_eq (by omega) hab, bankReached_eq ha (by omega)]
  simp only [List.length_append]
  refine Nat.add_le_add (Nat.add_le_add ?_ ?_) ?_
  · split
    · exact hca
    · exact le_rfl
  · split
    · exact hkdc
    · exact le_rfl
  · split
    · exact hbank
    · exact le_rfl

/-! ## The times of exported events -/

/-- The time of an event is that of its row, in seconds. -/
theorem ts_of_stored {e : NormalizedEvent} {micros : ℤ} (h : logs.Stored e micros) :
    e.ts = micros / 1000000 := by
  rcases h with ⟨r, -, rfl, rfl⟩ | ⟨r, -, rfl, rfl⟩ | ⟨r, -, rfl, rfl⟩ <;> rfl

theorem mem_exportable {e : NormalizedEvent} (he : e ∈ logs.exportable token source f) :
    (∃ r ∈ logs.caRows f, caEvent r.message = e) ∨ (∃ r ∈ logs.kdcRows f, kdcEvent r.message = e) ∨
      logs.bankReached f source token = true ∧ ∃ r ∈ logs.bankRows f, bankEvent r.message = e := by
  rw [exportable, List.mem_append, List.mem_append] at he
  rcases he with (he | he) | he
  · split at he
    · exact .inl (List.mem_map.mp he)
    · cases he
  · split at he
    · exact .inr (.inl (List.mem_map.mp he))
    · cases he
  · split at he
    · rename_i hreached
      exact .inr (.inr ⟨hreached, List.mem_map.mp he⟩)
    · cases he

/-- The exported events are in their window, if no row of the bank is at its end. -/
theorem inWindow_of_ne (ha : 0 < a) (hab : a < b)
    (hcap : (logs.exportable token source ⟨a, b⟩).length ≤ exportCap)
    (hb : logs.bankReached ⟨a, b⟩ source token = true → ∀ r ∈ logs.bank, r.micros ≠ b * 1000000) :
    logs.InWindow token source a b := by
  intro e he
  obtain ⟨n, hn, rfl⟩ := List.mem_map.mp ((exported_perm hab hcap).mem_iff.mp he)
  rcases mem_exportable hn with ⟨r, hr, rfl⟩ | ⟨r, hr, rfl⟩ | ⟨hreached, r, hr, rfl⟩
  · obtain ⟨hmem, htime⟩ := List.mem_filter.mp ((logs.caOrder.perm _).mem_iff.mp hr)
    exact ⟨r.micros, .inl ⟨r, hmem, rfl, rfl⟩, (holds_iff ha (by omega)).mp htime⟩
  · obtain ⟨hmem, htime⟩ := List.mem_filter.mp ((logs.kdcOrder.perm _).mem_iff.mp hr)
    exact ⟨r.micros, .inr (.inl ⟨r, hmem, rfl, rfl⟩), (holds_iff ha (by omega)).mp htime⟩
  · obtain ⟨hmem, htime⟩ := List.mem_filter.mp ((logs.bankOrder.perm _).mem_iff.mp hr)
    obtain ⟨hsince, huntil⟩ := (bankHolds_iff ha (by omega)).mp htime
    exact ⟨r.micros, .inr (.inr ⟨r, hmem, rfl, rfl⟩), hsince, lt_of_le_of_ne huntil
      (hb hreached r hmem)⟩

/-- A row of the bank at the end of a window is exported. -/
theorem ne_of_inWindow (ha : 0 < a) (hab : a < b)
    (hcap : (logs.exportable token source ⟨a, b⟩).length ≤ exportCap)
    (hreached : logs.bankReached ⟨a, b⟩ source token = true)
    (h : logs.InWindow token source a b) : ∀ r ∈ logs.bank, r.micros ≠ b * 1000000 := by
  intro r hr hend
  have hrow : r ∈ logs.bankRows ⟨a, b⟩ := by
    refine (logs.bankOrder.perm _).mem_iff.mpr (List.mem_filter.mpr ⟨hr, ?_⟩)
    rw [bankHolds_iff ha (by omega)]
    omega
  have hmem : bankEvent r.message ∈ logs.exportable token source ⟨a, b⟩ := by
    rw [exportable, if_pos hreached]
    exact List.mem_append_right _ (List.mem_map_of_mem hrow)
  obtain ⟨micros, hstored, -, huntil⟩ := h (enrich (bankEvent r.message))
    ((exported_perm hab hcap).mem_iff.mpr (List.mem_map_of_mem hmem))
  have hts : r.micros / 1000000 = micros / 1000000 := ts_of_stored hstored
  omega

theorem ite_append_perm {A : Type} {l₁ l₂ l : List A} (included : Bool)
    (h : included = true → (l₁ ++ l₂).Perm l) :
    ((if included then l₁ else []) ++ if included then l₂ else []).Perm
      (if included then l else []) := by
  cases included with
  | false => rfl
  | true => exact h rfl

theorem append_append_perm {A : Type} (x₁ y₁ z₁ x₂ y₂ z₂ : List A) :
    (x₁ ++ y₁ ++ z₁ ++ (x₂ ++ y₂ ++ z₂)).Perm (x₁ ++ x₂ ++ (y₁ ++ y₂) ++ (z₁ ++ z₂)) := by
  rw [← Multiset.coe_eq_coe]
  simp only [← Multiset.coe_add]
  rw [add_add_add_comm, add_add_add_comm (x₁ : Multiset A)]

/-- What adjacent windows have, if no row of the bank is between them. -/
theorem exportable_perm (ha : 0 < a) (hab : a < b) (hbc : b < c)
    (hb : logs.bankReached ⟨a, c⟩ source token = true → ∀ r ∈ logs.bank, r.micros ≠ b * 1000000) :
    (logs.exportable token source ⟨a, b⟩ ++ logs.exportable token source ⟨b, c⟩).Perm
      (logs.exportable token source ⟨a, c⟩) := by
  have hreached : logs.bankReached ⟨b, c⟩ source token = logs.bankReached ⟨a, b⟩ source token := by
    rw [bankReached_eq (by omega) hbc, bankReached_eq ha hab]
  have hwhole : logs.bankReached ⟨a, c⟩ source token = logs.bankReached ⟨a, b⟩ source token := by
    rw [bankReached_eq ha (by omega), bankReached_eq ha hab]
  rw [hwhole] at hb
  rw [exportable, exportable, exportable, hreached, hwhole]
  refine (append_append_perm _ _ _ _ _ _).trans (List.Perm.append (List.Perm.append ?_ ?_) ?_)
  · exact ite_append_perm _ fun _ => caEvents_perm ha hab hbc
  · exact ite_append_perm _ fun _ => kdcEvents_perm ha hab hbc
  · exact ite_append_perm _ fun h => bankEvents_perm ha hab hbc (hb h)

/-- What is exported of adjacent windows. -/
theorem exported_union (ha : 0 < a) (hab : a < b) (hbc : b < c)
    (hcap : (logs.exportable token source ⟨a, c⟩).length ≤ exportCap)
    (hb : logs.bankReached ⟨a, c⟩ source token = true → ∀ r ∈ logs.bank, r.micros ≠ b * 1000000) :
    (logs.exported token source a b ++ logs.exported token source b c).Perm
      (logs.exported token source a c) := by
  have hleft := (length_exportable_le logs token source ha le_rfl hab hbc.le).trans hcap
  have hright := (length_exportable_le logs token source ha hab.le hbc le_rfl).trans hcap
  refine ((exported_perm hab hleft).append (exported_perm hbc hright)).trans ?_
  refine List.Perm.trans ?_ (exported_perm (by omega) hcap).symm
  rw [← List.map_append]
  exact (exportable_perm ha hab hbc hb).map enrich

/-- **Adjacent exports tile**, and every event is in its window, exactly if the bank is not read or
has no row at the instant at which one of the two windows ends. -/
theorem exports_tile_iff (logs : Logs) (token : String) (source : SourceFilter) {a b c : ℤ}
    (ha : 0 < a) (hab : a < b) (hbc : b < c)
    (hcap : (logs.exportable token source ⟨a, c⟩).length < exportCap) :
    logs.Tiled token source a b c ↔
      (logs.bankReached ⟨a, c⟩ source token = true →
        ∀ r ∈ logs.bank, r.micros ≠ b * 1000000 ∧ r.micros ≠ c * 1000000) := by
  have hwhole : logs.bankReached ⟨a, c⟩ source token =
      (source.includes .bank && token ≠ "" && logs.session token) := bankReached_eq ha (by omega)
  have hleft := (length_exportable_le logs token source ha le_rfl hab hbc.le).trans hcap.le
  have hright := (length_exportable_le logs token source ha hab.le hbc le_rfl).trans hcap.le
  constructor
  · intro h hreached r hr
    rw [hwhole] at hreached
    exact ⟨ne_of_inWindow ha hab hleft (by rw [bankReached_eq ha hab, hreached]) h.left r hr,
      ne_of_inWindow (by omega) hbc hright (by rw [bankReached_eq (by omega) hbc, hreached])
        h.right r hr⟩
  · intro h
    have hsame : ∀ {a' b' : ℤ}, 0 < a' → a' < b' →
        logs.bankReached ⟨a', b'⟩ source token = true →
          logs.bankReached ⟨a, c⟩ source token = true := by
      intro a' b' ha' hab' hreached
      rw [hwhole, ← bankReached_eq ha' hab', hreached]
    exact {
      union := exported_union ha hab hbc hcap.le fun hr r hmem => (h hr r hmem).1
      left := inWindow_of_ne ha hab hleft fun hr r hmem => (h (hsame ha hab hr) r hmem).1
      right := inWindow_of_ne (by omega) hbc hright fun hr r hmem =>
        (h (hsame (by omega) hbc hr) r hmem).2
      whole := inWindow_of_ne ha (by omega) hcap.le fun hr r hmem => (h hr r hmem).2 }

end Logs

theorem sample_exports_tile :
    (sampleLogs "transfer_completed").Tiled "admin" none 999990 1000000 1000010 :=
  (Logs.exports_tile_iff (sampleLogs "transfer_completed") "admin" none (by decide) (by decide)
    (by decide) (by decide +kernel)).mpr fun _ => by decide +kernel

/-- A transfer at the instant between two windows is exported twice. -/
theorem exports_overlap :
    ((sampleLogs "transfer_completed").exportable "admin" none ⟨999990, 1000000⟩).length <
        exportCap ∧
      ((sampleLogs "transfer_completed").exported "admin" none 999990 999999).length = 1 ∧
      ((sampleLogs "transfer_completed").exported "admin" none 999999 1000000).length = 1 ∧
      ((sampleLogs "transfer_completed").exported "admin" none 999990 1000000).length = 1 ∧
      ¬ (sampleLogs "transfer_completed").Tiled "admin" none 999990 999999 1000000 := by
  have hleft : ((sampleLogs "transfer_completed").exported "admin" none 999990 999999).length = 1 :=
    by decide +kernel
  have hright :
      ((sampleLogs "transfer_completed").exported "admin" none 999999 1000000).length = 1 := by
    decide +kernel
  have hwhole :
      ((sampleLogs "transfer_completed").exported "admin" none 999990 1000000).length = 1 := by
    decide +kernel
  refine ⟨by decide +kernel, hleft, hright, hwhole, fun h => ?_⟩
  have hlength := h.union.length_eq
  rw [List.length_append, hleft, hright, hwhole] at hlength
  omega

end Gateway
