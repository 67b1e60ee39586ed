import MiniBanking.Audit.Tamper
import MiniBanking.Go.Time
import MiniBanking.Postgres.Columns

/-!
# The audit log of the CA

## Main definitions

* `AuditEvent`: what the CA records
* `AuditRow`: a row of `certificate_audit_log`, as far as the chain is about it
* `auditTable`: how such rows are read back
* `auditChainHash`, `auditHashFields`: what the chain covers
* `verifyAuditChain`: `PostgresStore.VerifyAuditChain`
* `AuditEvent.row`: the row that `PostgresStore.AppendAudit` inserts
-/

namespace Ca

open Go Postgres

def auditIssued : String := "issued"
def auditRevoked : String := "revoked"
def auditLookedUp : String := "looked_up"
def auditVerifyCertificate : String := "verify_certificate"

/-- The actions that the API gateway may record through `AppendExternalAudit`. -/
def externalAuditActions : List String :=
  ["ra_otp_requested", "ra_otp_verified", "ra_otp_failed", "ra_registration_approved",
    "ra_registration_rejected", "admin_ca_login_success", "admin_ca_login_failed"]

/-- The actions that `certificate_audit_log` takes. -/
def auditActions : List String :=
  ["issuer_provisioned", auditIssued, auditRevoked, auditLookedUp, auditVerifyCertificate,
    "chain_verified"] ++ externalAuditActions

/-- An event of the audit log. -/
structure AuditEvent where
  serialNumber : String
  certType : String := ""
  issuerID : String := ""
  action : String
  performedBy : String
  reason : String := ""
  metadata : Option (List (String × String)) := none
  deriving DecidableEq

/-- A row of `certificate_audit_log`. -/
structure AuditRow where
  id : Uuid
  serialNumber : Varchar 128
  certType : Option (Varchar 20)
  issuerID : Option (Varchar 64)
  action : Checked 30 auditActions
  performedBy : Varchar 255
  reason : Option Text
  seq : ℤ
  prevHash : Option (Varchar 64)
  hash : Option (Varchar 64)
  /-- `audit_revoke_requires_reason`. -/
  revokeRequiresReason : action.1 ≠ auditRevoked ∨ reason ≠ none
  deriving DecidableEq

/-- The fields of a row that its hash covers, as they are read back. -/
def AuditRow.fields (r : AuditRow) : List String :=
  [r.action.1, r.serialNumber.1, r.performedBy.1, coalesce (·.1) r.reason]

/-- The rows of `certificate_audit_log`, as `VerifyAuditChain` reads them. -/
def auditTable : Audit.Table AuditRow where
  read r := {
    seq := r.seq, id := r.id.text, prevHash := coalesce (·.1) r.prevHash,
    hash := coalesce (·.1) r.hash, fields := r.fields }
  renumber n r := { r with seq := n }
  read_renumber _ _ := rfl

/-- The hash that links one event to the previous one. -/
def auditChainHash (sha256 : List UInt8 → Vector UInt8 32) :
    (prev : String) → (fields : List String) → String :=
  Audit.chainHash sha256

/-- The exact, ordered field set covered by the chain hash for one CA audit event. -/
def auditHashFields (e : AuditEvent) : List String :=
  [e.action, e.serialNumber, e.performedBy, e.reason]

/-- `PostgresStore.VerifyAuditChain` replays the hash chain in `seq` order. -/
def verifyAuditChain (sha256 : List UInt8 → Vector UInt8 32) (rows : List AuditRow) :
    Audit.Verification :=
  Audit.verify (auditChainHash sha256) (auditTable.rows rows)

/-- A blank string is stored as `NULL`. -/
def nullableString {α : Type} (column : String → Option α) (value : String) : Option (Option α) :=
  if trimSpace value = "" then some none else (column value).map some

/-- The row that `AppendAudit` inserts, if the columns take it. -/
def AuditEvent.row (e : AuditEvent) (prevHash hash : String) (seq : ℤ) (id : Uuid) :
    Option AuditRow := do
  -- `jsonb` refuses the character NUL
  guard ((e.metadata.getD []).all fun (k, v) => (textIn k).isSome && (textIn v).isSome)
  let action ← Checked.of 30 auditActions e.action
  let reason ← nullableString Text.of e.reason
  if h : action.1 ≠ auditRevoked ∨ reason ≠ none then
    return {
      id, seq, action, reason, revokeRequiresReason := h
      serialNumber := ← Varchar.of 128 e.serialNumber
      certType := ← nullableString (Varchar.of 20) e.certType
      issuerID := ← nullableString (Varchar.of 64) e.issuerID
      performedBy := ← Varchar.of 255 e.performedBy
      prevHash := some (← Varchar.of 64 prevHash)
      hash := some (← Varchar.of 64 hash) }
  else none

end Ca
