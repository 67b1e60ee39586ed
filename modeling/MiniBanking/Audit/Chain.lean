import Mathlib.Data.List.Sort

/-!
# Hash chains

A log whose rows are chained: every row has the hash of the row before it and the hash of its own
fields after that hash. Who replays the chain in the order of the rows' numbers finds every row
whose hash is not the one of what is read.

## Main definitions

* `Row`: a row as it is read back
* `headHash`: the hash that the next row follows
* `verify`: the replay
* `Ordered`, `Linked`, `Hashed`: rows that were appended one after the other
* `chained`: the rows that the replay covers

## Main results

* `Linked.snoc`: a row that follows the head keeps the chain
* `verify_ok`: what a replay that finds nothing has seen
* `verify_linked`: a chain whose hashes are those of what is read is found in order
-/

namespace Audit

/-- A row of a chained log as it is read back. -/
structure Row where
  seq : ℤ
  id : String
  prevHash : String
  hash : String
  fields : List String
  deriving DecidableEq

/-- What a replay reports. -/
structure Verification where
  ok : Bool
  checked : ℕ
  brokenSeq : ℤ := 0
  brokenID : String := ""
  detail : String := ""
  deriving DecidableEq

/-- What the first row follows. -/
def genesis : String := "genesis"

/-- The rows in the order of their numbers. -/
def bySeq (rows : List Row) : List Row := rows.insertionSort fun r r' => r.seq ≤ r'.seq

/-- The hash of the row with the greatest number, if there is a row. -/
def lastHash (rows : List Row) : Option String := (bySeq rows).getLast?.map (·.hash)

/-- The hash that the next row follows: the last one, unless it is missing. -/
def headHash (last : Option String) : String :=
  match last with
  | some h => if h = "" then genesis else h
  | none => genesis

section Verify

variable (H : String → List String → String)

/-- The replay of rows after `checked` rows, the last of which has the hash `running`. Rows without
a hash are left out, and the first row may follow anything. -/
def verifyFrom : (running : Option String) → (checked : ℕ) → List Row → Verification
  | _, checked, [] => { ok := true, checked }
  | running, checked, row :: rows =>
    if row.hash = "" then verifyFrom running checked rows
    else
      let prev := running.getD row.prevHash
      if row.prevHash ≠ prev then
        { ok := false, checked, brokenSeq := row.seq, brokenID := row.id,
          detail := "prev_hash does not match the previous row" }
      else if H prev row.fields ≠ row.hash then
        { ok := false, checked, brokenSeq := row.seq, brokenID := row.id,
          detail := "hash does not match the row contents" }
      else verifyFrom (some row.hash) (checked + 1) rows

/-- The replay of a log. -/
def verify (rows : List Row) : Verification := verifyFrom H none 0 (bySeq rows)

end Verify

/-- The rows that the replay covers. -/
def chained (rows : List Row) : List Row := rows.filter fun row => row.hash ≠ ""

/-- The number of every row is greater than those of the rows before it. -/
def Ordered (rows : List Row) : Prop := rows.Pairwise fun r r' => r.seq < r'.seq

/-- Every row has the hash of the row before it, the first one `prev`. -/
def Linked : (prev : String) → List Row → Prop
  | _, [] => True
  | prev, row :: rows => row.prevHash = prev ∧ Linked row.hash rows

/-- Every hash is the one of what is read. -/
def Hashed (H : String → List String → String) (rows : List Row) : Prop :=
  ∀ row ∈ rows, row.hash = H row.prevHash row.fields

section Ordered

variable {rows : List Row}

@[simp] theorem ordered_nil : Ordered [] := List.Pairwise.nil

theorem bySeq_eq (h : Ordered rows) : bySeq rows = rows :=
  List.Pairwise.insertionSort_eq (h.imp fun hlt => Int.le_of_lt hlt)

@[simp] theorem lastHash_nil : lastHash [] = none := rfl

theorem lastHash_eq (h : Ordered rows) : lastHash rows = rows.getLast?.map (·.hash) := by
  rw [lastHash, bySeq_eq h]

theorem Ordered.snoc (h : Ordered rows) {row : Row} (hseq : ∀ r ∈ rows, r.seq < row.seq) :
    Ordered (rows ++ [row]) := by
  refine List.pairwise_append.mpr ⟨h, List.pairwise_singleton _ _, ?_⟩
  intro r hr r' hr'
  rw [List.mem_singleton.mp hr']
  exact hseq r hr

end Ordered

section Linked

variable {prev : String} {rows : List Row}

/-- A row that follows the last one keeps the links. -/
theorem Linked.snoc (h : Linked prev rows) {row : Row}
    (hrow : row.prevHash = (rows.getLast?.map (·.hash)).getD prev) :
    Linked prev (rows ++ [row]) := by
  induction rows generalizing prev with
  | nil => exact ⟨hrow, trivial⟩
  | cons r rows ih =>
    refine ⟨h.1, ih h.2 ?_⟩
    cases rows with
    | nil => exact hrow
    | cons r' rows =>
      rw [List.getLast?_cons_cons] at hrow
      rw [hrow]
      -- a list that is not empty has a last element
      obtain ⟨last, hlast⟩ := Option.ne_none_iff_exists'.mp
        (mt List.getLast?_eq_none_iff.mp (List.cons_ne_nil r' rows))
      rw [hlast, Option.map_some, Option.getD_some, Option.getD_some]

/-- If no hash is missing, the head is the last hash. -/
theorem headHash_eq (h : ∀ row ∈ rows, row.hash ≠ "") :
    headHash (rows.getLast?.map (·.hash)) = (rows.getLast?.map (·.hash)).getD genesis := by
  cases hlast : rows.getLast? with
  | none => rfl
  | some row =>
    have hne := h row (List.mem_of_getLast? hlast)
    simp [headHash, hne]

end Linked

section Replay

variable {H : String → List String → String}

/-- **What a replay that finds nothing has seen**: chained rows that are linked, each with the hash
of what is read. -/
theorem verifyFrom_ok {running : Option String} {checked : ℕ} {rows : List Row} :
    (verifyFrom H running checked rows).ok = true ↔
      (∃ prev, (∀ h, running = some h → h = prev) ∧ Linked prev (chained rows)) ∧
        Hashed H (chained rows) := by
  induction rows generalizing running checked with
  | nil => exact iff_of_true rfl ⟨⟨running.getD "", by rintro h rfl; rfl, trivial⟩, nofun⟩
  | cons row rows ih =>
    rw [verifyFrom]
    by_cases hne : row.hash = ""
    · -- a row without a hash is left out on both sides
      have hchained : chained (row :: rows) = chained rows := by simp [chained, hne]
      rw [if_pos hne, hchained]
      exact ih
    have hchained : chained (row :: rows) = row :: chained rows := by simp [chained, hne]
    rw [if_neg hne, hchained]
    by_cases hprev : row.prevHash = running.getD row.prevHash
    swap
    · -- the row does not follow the one before it
      rw [if_pos hprev]
      refine iff_of_false (by simp) ?_
      rintro ⟨⟨prev, hrunning, hlinked, -⟩, -⟩
      cases running with
      | none => exact hprev rfl
      | some h => exact hprev (hlinked.trans (hrunning h rfl).symm)
    rw [if_neg (not_not.mpr hprev), ← hprev]
    by_cases hhash : H row.prevHash row.fields = row.hash
    swap
    · rw [if_pos hhash]
      refine iff_of_false (by simp) ?_
      rintro ⟨-, hhashed⟩
      exact hhash (hhashed row (List.mem_cons_self ..)).symm
    rw [if_neg (not_not.mpr hhash), ih]
    constructor
    · rintro ⟨⟨prev, hrunning, hlinked⟩, hhashed⟩
      obtain rfl := hrunning _ rfl
      refine ⟨⟨row.prevHash, ?_, rfl, hlinked⟩, List.forall_mem_cons.mpr ⟨hhash.symm, hhashed⟩⟩
      rintro h rfl
      exact hprev.symm
    · rintro ⟨⟨prev, -, -, hlinked⟩, hhashed⟩
      exact ⟨⟨row.hash, fun h hh => (Option.some.inj hh).symm, hlinked⟩,
        (List.forall_mem_cons.mp hhashed).2⟩

/-- A replay that finds nothing has covered every chained row. -/
theorem checked_verifyFrom {running : Option String} {checked : ℕ} {rows : List Row}
    (h : (verifyFrom H running checked rows).ok = true) :
    verifyFrom H running checked rows =
      { ok := true, checked := checked + (chained rows).length } := by
  induction rows generalizing running checked with
  | nil => rfl
  | cons row rows ih =>
    rw [verifyFrom] at h ⊢
    by_cases hne : row.hash = ""
    · rw [if_pos hne] at h ⊢
      rw [ih h]
      simp [chained, hne]
    rw [if_neg hne] at h ⊢
    dsimp only at h ⊢
    split at h
    · simp at h
    next hprev =>
    split at h
    · simp at h
    next hhash =>
    rw [if_neg hprev, if_neg hhash, ih h]
    simp [chained, hne, Nat.add_assoc, Nat.add_comm 1]

theorem verify_ok {rows : List Row} : (verify H rows).ok = true ↔
    (∃ prev, Linked prev (chained (bySeq rows))) ∧ Hashed H (chained (bySeq rows)) := by
  rw [verify, verifyFrom_ok]
  simp

/-- **A chain is found in order** if its hashes are those of what is read. -/
theorem verify_linked {rows : List Row} (hordered : Ordered rows) (hlinked : Linked genesis rows)
    (hhash : ∀ row ∈ rows, row.hash ≠ "" ∧ row.hash = H row.prevHash row.fields) :
    verify H rows = { ok := true, checked := rows.length } := by
  have hchained : chained rows = rows :=
    List.filter_eq_self.mpr fun row hrow => by simpa using (hhash row hrow).1
  have hok : (verify H rows).ok = true := by
    rw [verify_ok, bySeq_eq hordered, hchained]
    exact ⟨⟨genesis, hlinked⟩, fun row hrow => (hhash row hrow).2⟩
  rw [verify, checked_verifyFrom hok, bySeq_eq hordered, hchained, Nat.zero_add]

end Replay

end Audit
