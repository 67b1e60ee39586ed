import MiniBanking.Audit.Tamper
import MiniBanking.Kdc.Service
import MiniBanking.Postgres.Columns

/-!
# The audit log of the KDC

## Main definitions

* `AuditRow`: a row of `kdc_audit_log`, as far as the chain is about it
* `auditTable`: how such rows are read back
* `auditChainHash`, `auditHashFields`: what the chain covers
* `verifyAuditChain`: `VerifyChain`
* `AuditInput.row`: the row that `InsertAudit` inserts
-/

namespace Kdc

open Go Postgres

/-- The actions that `kdc_audit_log` takes. -/
def auditActions : List String :=
  ["as_ticket_issued", "as_rejected", "tgs_ticket_issued", "tgs_rejected"]

/-- An action as it is stored. -/
def AuditAction.text : AuditAction → String
  | asTicketIssued => "as_ticket_issued"
  | asRejected => "as_rejected"
  | tgsTicketIssued => "tgs_ticket_issued"
  | tgsRejected => "tgs_rejected"

/-- A row of `kdc_audit_log`. -/
structure AuditRow where
  id : Uuid
  action : Checked 30 auditActions
  clientID : Option (Varchar 255)
  certSerial : Option (Varchar 128)
  scope : Option (Varchar 64)
  reason : Option Text
  requestID : Option (Varchar 64)
  ip : Option (Varchar 64)
  seq : ℤ
  prevHash : Option (Varchar 64)
  hash : Option (Varchar 64)
  deriving DecidableEq

/-- The fields of a row that its hash covers, as they are read back. -/
def AuditRow.fields (r : AuditRow) : List String :=
  [r.action.1, coalesce (·.1) r.clientID, coalesce (·.1) r.certSerial, coalesce (·.1) r.scope,
    coalesce (·.1) r.reason, coalesce (·.1) r.requestID]

/-- The rows of `kdc_audit_log`, as `VerifyChain` reads them. -/
def auditTable : Audit.Table AuditRow where
  read r := {
    seq := r.seq, id := r.id.text, prevHash := coalesce (·.1) r.prevHash,
    hash := coalesce (·.1) r.hash, fields := r.fields }
  renumber n r := { r with seq := n }
  read_renumber _ _ := rfl

/-- The hash that links one event to the previous one. -/
def auditChainHash (s : Service) : (prev : String) → (fields : List String) → String :=
  Audit.chainHash s.crypto.sha256

/-- An event as `InsertAudit` takes it, with any text for the action. -/
structure AuditInput where
  action : String
  clientID : String := ""
  certSerial : String := ""
  scope : String := ""
  reason : String := ""
  requestID : String := ""
  ip : String := ""
  deriving DecidableEq

/-- The input of an event. -/
def AuditEvent.input (e : AuditEvent) : AuditInput where
  action := e.action.text
  clientID := e.clientID
  certSerial := e.certSerial
  scope := e.scope
  reason := e.reason
  requestID := e.requestID
  ip := e.ip

/-- The exact, ordered field set covered by the chain hash for one event. -/
def auditHashFields (e : AuditInput) : List String :=
  [e.action, e.clientID, e.certSerial, e.scope, e.reason, e.requestID]

/-- `VerifyChain` replays the `kdc_audit_log` hash chain in `seq` order. -/
def verifyAuditChain (s : Service) (rows : List AuditRow) : Audit.Verification :=
  Audit.verify (auditChainHash s) (auditTable.rows rows)

/-- The row that `InsertAudit` inserts, if the columns take it. -/
def AuditInput.row (e : AuditInput) (prevHash hash : String) (seq : ℤ) (id : Uuid) :
    Option AuditRow := do
  return {
    id, seq
    action := ← Checked.of 30 auditActions e.action
    clientID := ← nullif (Varchar.of 255) e.clientID
    certSerial := ← nullif (Varchar.of 128) e.certSerial
    scope := ← nullif (Varchar.of 64) e.scope
    reason := ← nullif Text.of e.reason
    requestID := ← nullif (Varchar.of 64) e.requestID
    ip := ← nullif (Varchar.of 64) e.ip
    prevHash := some (← Varchar.of 64 prevHash)
    hash := some (← Varchar.of 64 hash) }

end Kdc
