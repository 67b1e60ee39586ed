import MiniBanking.Audit.Tamper
import MiniBanking.Bank.Service

/-!
# The audit log of the bank

## Main definitions

* `AuditRow`: a row of `bank_audit_log`, as far as the chain is about it
* `auditTable`: how such rows are read back
* `auditChainHash`, `auditHashFields`: what the chain covers
* `verifyAuditChain`: `VerifyAuditChain`
* `AuditEvent.row`: the row that `InsertAudit` inserts
-/

namespace Bank

open Go Postgres

/-- The actions that `bank_audit_log` takes. -/
def auditActions : List String :=
  ["transfer_completed", "transfer_rejected", "replay_detected", "invalid_signature",
    "certificate_rejected", "forbidden_ownership", "insufficient_funds"]

/-- A row of `bank_audit_log`. -/
structure AuditRow where
  id : Uuid
  action : Checked 40 auditActions
  userID : Option Uuid
  accountID : Option Uuid
  transactionID : Option Uuid
  certSerial : Option (Varchar 128)
  requestID : Option (Varchar 64)
  reason : Option Text
  seq : ℤ
  prevHash : Option (Varchar 64)
  hash : Option (Varchar 64)
  deriving DecidableEq

/-- The fields of a row that its hash covers, as they are read back. -/
def AuditRow.fields (r : AuditRow) : List String :=
  [r.action.1, coalesce Uuid.text r.userID, coalesce Uuid.text r.accountID,
    coalesce Uuid.text r.transactionID, coalesce (·.1) r.certSerial, coalesce (·.1) r.requestID,
    coalesce (·.1) r.reason]

/-- The rows of `bank_audit_log`, as `VerifyAuditChain` reads them. -/
def auditTable : Audit.Table AuditRow where
  read r := {
    seq := r.seq, id := r.id.text, prevHash := coalesce (·.1) r.prevHash,
    hash := coalesce (·.1) r.hash, fields := r.fields }
  renumber n r := { r with seq := n }
  read_renumber _ _ := rfl

/-- The hash that links one event to the previous one. -/
def auditChainHash (svc : Service) : (prev : String) → (fields : List String) → String :=
  Audit.chainHash svc.sha256

/-- The exact, ordered field set covered by the chain hash for one bank audit event. -/
def auditHashFields (e : AuditEvent) : List String :=
  [e.action, e.userID, e.accountID, e.transactionID, e.certSerial, e.requestID, e.reason]

/-- `VerifyAuditChain` replays the `bank_audit_log` hash chain in `seq` order. -/
def verifyAuditChain (svc : Service) (rows : List AuditRow) : Audit.Verification :=
  Audit.verify (auditChainHash svc) (auditTable.rows rows)

/-- The row that `InsertAudit` inserts, if the columns take it. -/
def AuditEvent.row (e : AuditEvent) (prevHash hash : String) (seq : ℤ) (id : Uuid) :
    Option AuditRow := do
  -- `jsonb` refuses the character NUL
  guard (e.metadata.all fun (k, v) => (textIn k).isSome && (textIn v).isSome)
  return {
    id, seq
    action := ← Checked.of 40 auditActions e.action
    userID := ← nullif uuidIn e.userID
    accountID := ← nullif uuidIn e.accountID
    transactionID := ← nullif uuidIn e.transactionID
    certSerial := ← nullif (Varchar.of 128) e.certSerial
    requestID := ← nullif (Varchar.of 64) e.requestID
    reason := ← nullif Text.of e.reason
    prevHash := some (← Varchar.of 64 prevHash)
    hash := some (← Varchar.of 64 hash) }

end Bank
