import MiniBanking.Bank.Audit
import MiniBanking.Ca.Audit
import MiniBanking.Kdc.Audit

/-!
# The audit logs of the three services

The bank, the KDC and the CA keep a chained log each. The replay of one log sees what the replay
of the others sees, and misses the same: text that moves across a separator from one field into
the next, and rows that are deleted from the start of the log.

## Main definitions

* `EditsEvident`: which edits a replay finds
* `ChangesEvident`: which deletions and permutations it finds

## Main results

* `edits_evident`, `changes_evident`: for the logs of the three services
-/

namespace Audit

open Go Postgres

variable {R : Type} (T : Table R) (sha256 : List UInt8 → Vector UInt8 32)
  (replay : List R → Verification)

/-- The replay finds an edit exactly if the text of a chained row changes. It does where a field
changes and no field had a separator in it. -/
def EditsEvident : Prop :=
  ∀ es : List T.Edit,
    CollisionFree sha256 (T.rows (T.before es) ++ T.rows (T.after es)) →
    (replay (T.before es)).ok = true →
    ((replay (T.after es)).ok = false ↔ ∃ e ∈ es, (T.read e.before).hash ≠ "" ∧
      joined (T.read e.after).fields ≠ joined (T.read e.before).fields) ∧
    ∀ e ∈ es, (T.read e.after).fields ≠ (T.read e.before).fields →
      (∀ f ∈ (T.read e.before).fields, separator ∉ f.toList) →
      joined (T.read e.after).fields ≠ joined (T.read e.before).fields

/-- The replay of a log of chained rows, which does not begin after one of its own rows, finds a
deletion exactly if a row is deleted between two that are left, and every permutation. -/
def ChangesEvident : Prop :=
  ∀ rs : List R, Ordered (T.rows rs) → (∀ r ∈ T.rows rs, r.hash ≠ "") →
    (replay rs).ok = true → CollisionFree sha256 (T.rows rs) → Rooted (T.rows rs) →
    (∀ keep, (replay (T.kept rs keep)).ok = false ↔ LeavesGap (T.rows rs) keep) ∧
    ∀ σ : Equiv.Perm (Fin rs.length), σ ≠ Equiv.refl _ → (replay (T.permuted rs σ)).ok = false

variable {T sha256 replay}

/-- A replay of hashes over the fields finds such edits. -/
theorem EditsEvident.of_chainHash (hlen : ∀ r r', (T.read r).fields.length =
    (T.read r').fields.length) :
    EditsEvident T sha256 fun rs => verify (chainHash sha256) (T.rows rs) := by
  intro es hfree hok
  refine ⟨(verify_edits hok).trans ?_, fun e _ hne hsep heq => ?_⟩
  · -- the hash before the fields is the same, so the hashes differ where the texts do
    refine exists_congr fun e => and_congr_right fun he => and_congr_right fun _ => not_congr ?_
    rw [chainHash_eq_chainHash, ← covered_eq_covered]
    refine ⟨fun h => ?_, congrArg sha256⟩
    have hbefore : T.read e.before ∈ T.rows (T.before es) :=
      List.mem_map_of_mem (List.mem_map_of_mem he)
    have hafter : T.read e.after ∈ T.rows (T.after es) :=
      List.mem_map_of_mem (List.mem_map_of_mem he)
    have htext := hfree _ (List.mem_append_right _ hafter) _ (List.mem_append_left _ hbefore)
    rw [e.prevHash] at htext
    exact htext h
  · exact hne (joined_eq_joined (hlen _ _) hsep heq.symm).symm

/-- A replay of hashes over the fields finds such changes, if no row follows anything longer than
a hash. -/
theorem ChangesEvident.of_chainHash (hlen : ∀ r, (T.read r).prevHash.toList.length ≤ 64) :
    ChangesEvident T sha256 fun rs => verify (chainHash sha256) (T.rows rs) := by
  intro rs hordered hchained hok hfree hrooted
  have hchain := verify_ok.mp hok
  have hall : chained (T.rows rs) = T.rows rs :=
    List.filter_eq_self.mpr fun r hr => by simpa using hchained r hr
  rw [bySeq_eq hordered, hall] at hchain
  obtain ⟨⟨prev, hlinked⟩, hhashed⟩ := hchain
  have hsound : Sound (chainHash sha256) (T.rows rs) := {
    ordered := hordered
    chained := hchained
    ok := hok
    free := prevFree_chainHash hlinked hhashed hfree (List.forall_mem_map.mpr fun r _ => hlen r)
    rooted := hrooted }
  refine ⟨fun keep => ?_, fun σ hσ => verify_permuted hsound hσ⟩
  have hkept : T.rows (T.kept rs keep) = (T.rows rs).filter fun r => keep r.seq := by
    rw [Table.rows, Table.rows, Table.kept, List.filter_map]
    rfl
  show (verify _ (T.rows (T.kept rs keep))).ok = false ↔ _
  rw [hkept]
  exact verify_kept hsound keep

/-- A column of hashes holds at most as many characters as a hash has. -/
theorem length_coalesce_varchar {n : ℕ} (c : Option (Varchar n)) :
    (coalesce (·.1) c).toList.length ≤ n := by
  cases c with
  | none => exact Nat.zero_le _
  | some v => exact length_of_varcharIn v.2

/-- A log that starts at `genesis`, as the services start it, follows none of its rows. -/
theorem rooted_of_genesis {rows : List Row} (hfirst : ∀ r ∈ rows.head?, r.prevHash = genesis)
    (hhashed : Hashed (chainHash sha256) rows) : Rooted rows := by
  intro r hr hmem
  obtain ⟨r', hr', hhash⟩ := List.mem_map.mp hmem
  rw [hfirst r hr, hhashed r' hr'] at hhash
  have hlen := congrArg (fun s => s.toList.length) hhash
  simp only [length_chainHash] at hlen
  exact absurd hlen (by decide)

/-- **Edits are found** in the log of each service exactly if the text of a chained row
changes. -/
theorem edits_evident (svc : Bank.Service) (s : Kdc.Service)
    (sha256 : List UInt8 → Vector UInt8 32) :
    EditsEvident Bank.auditTable svc.sha256 (Bank.verifyAuditChain svc) ∧
      EditsEvident Kdc.auditTable s.crypto.sha256 (Kdc.verifyAuditChain s) ∧
      EditsEvident Ca.auditTable sha256 (Ca.verifyAuditChain sha256) :=
  ⟨.of_chainHash fun _ _ => rfl, .of_chainHash fun _ _ => rfl, .of_chainHash fun _ _ => rfl⟩

/-- **Deletions and permutations are found** in the log of each service, but for deletions that
leave no row before a deleted one. -/
theorem changes_evident (svc : Bank.Service) (s : Kdc.Service)
    (sha256 : List UInt8 → Vector UInt8 32) :
    ChangesEvident Bank.auditTable svc.sha256 (Bank.verifyAuditChain svc) ∧
      ChangesEvident Kdc.auditTable s.crypto.sha256 (Kdc.verifyAuditChain s) ∧
      ChangesEvident Ca.auditTable sha256 (Ca.verifyAuditChain sha256) :=
  ⟨.of_chainHash fun r => length_coalesce_varchar r.prevHash,
    .of_chainHash fun r => length_coalesce_varchar r.prevHash,
    .of_chainHash fun r => length_coalesce_varchar r.prevHash⟩

section Samples

/-- A row of the bank's log with a serial number and a request id, after another row. -/
def sampleRow (seq : ℤ) (prevHash hash certSerial requestID : String) : Bank.AuditRow where
  id := Vector.replicate 16 0
  action := ⟨"replay_detected", by decide⟩
  userID := none
  accountID := none
  transactionID := none
  certSerial := Varchar.of 128 certSerial
  requestID := Varchar.of 64 requestID
  reason := none
  seq := seq
  prevHash := Varchar.of 64 prevHash
  hash := Varchar.of 64 hash

/-- The hash of such a row. -/
def sampleHash (prevHash certSerial requestID : String) : String :=
  Bank.auditChainHash Bank.sampleService prevHash
    ["replay_detected", "", "", "", certSerial, requestID, ""]

/-- An edit of the first row of a log that starts at `genesis`. -/
def sampleEdit (certSerial requestID certSerial' requestID' : String) : Bank.auditTable.Edit where
  before := sampleRow 1 genesis (sampleHash genesis certSerial requestID) certSerial requestID
  after := sampleRow 1 genesis (sampleHash genesis certSerial requestID) certSerial' requestID'
  seq := rfl
  prevHash := rfl
  hash := rfl

/-- A log of two rows. -/
def sampleLog : List Bank.AuditRow :=
  let first := sampleHash genesis "01" "r1"
  [sampleRow 1 genesis first "01" "r1", sampleRow 2 first (sampleHash first "01" "r2") "01" "r2"]

instance (sha256 : List UInt8 → Vector UInt8 32) (rows : List Row) :
    Decidable (CollisionFree sha256 rows) := by unfold CollisionFree; infer_instance

instance (rows : List Row) : Decidable (Ordered rows) := by unfold Ordered; infer_instance

instance (rows : List Row) : Decidable (Rooted rows) := by unfold Rooted; infer_instance

/-- A changed serial number is found. -/
theorem edits_evident_of_serial :
    (Bank.verifyAuditChain Bank.sampleService
      (Bank.auditTable.after [sampleEdit "01" "r1" "02" "r1"])).ok = false :=
  (((edits_evident Bank.sampleService (Kdc.sampleService 0) Bank.sampleService.sha256).1
    [sampleEdit "01" "r1" "02" "r1"] (by decide +kernel) (by decide +kernel)).1).mpr
    ⟨_, List.mem_singleton_self _, by decide +kernel, by decide +kernel⟩

/-- Text that moves across a separator is not found: the replay accepts the row before and after
the edit, which changed two fields. -/
theorem edits_evident_of_separator :
    ∃ e : Bank.auditTable.Edit, (Bank.auditTable.read e.before).hash ≠ "" ∧
      e.after.certSerial ≠ e.before.certSerial ∧ e.after.requestID ≠ e.before.requestID ∧
      CollisionFree Bank.sampleService.sha256
        (Bank.auditTable.rows (Bank.auditTable.before [e]) ++
          Bank.auditTable.rows (Bank.auditTable.after [e])) ∧
      (Bank.verifyAuditChain Bank.sampleService (Bank.auditTable.before [e])).ok = true ∧
      (Bank.verifyAuditChain Bank.sampleService (Bank.auditTable.after [e])).ok = true :=
  ⟨sampleEdit "01\x1fr" "1" "01" "r\x1f1", by decide +kernel⟩

/-- The second row in the place of the first is found. -/
theorem changes_evident_of_swap :
    (Bank.verifyAuditChain Bank.sampleService (Bank.auditTable.permuted sampleLog
      (Equiv.swap (0 : Fin 2) (1 : Fin 2)))).ok = false :=
  ((changes_evident Bank.sampleService (Kdc.sampleService 0) Bank.sampleService.sha256).1
    sampleLog (by decide +kernel) (by decide +kernel) (by decide +kernel) (by decide +kernel)
    (by decide +kernel)).2 _
    (mt Equiv.swap_eq_refl_iff.mp (show (0 : Fin 2) ≠ 1 by decide))

/-- The deletion of the first row is not found, although the second row is left. -/
theorem changes_evident_of_head :
    Ordered (Bank.auditTable.rows sampleLog) ∧
      (∀ r ∈ Bank.auditTable.rows sampleLog, r.hash ≠ "") ∧
      (Bank.verifyAuditChain Bank.sampleService sampleLog).ok = true ∧
      CollisionFree Bank.sampleService.sha256 (Bank.auditTable.rows sampleLog) ∧
      Bank.auditTable.kept sampleLog (· ≠ 1) = sampleLog.tail ∧ sampleLog.tail ≠ [] ∧
      (Bank.verifyAuditChain Bank.sampleService
        (Bank.auditTable.kept sampleLog (· ≠ 1))).ok = true := by
  decide +kernel

end Samples

end Audit
