import MiniBanking.Ca.Query

/-!
# The tables of the CA

## Main definitions

* `CertificateRow`, `EventRow`: the rows of `certificates` and of `certificate_audit_log`
* `CertificateRow.record`: `scanCertificate`
* `EventRow.stored`: an event as it is read back, with its hashes
* `CertificateRecord.row`: the row that `CreateCertificate` inserts
* `Timestamptz`: how a time is taken as a parameter
-/

namespace Postgres

open Go

/-- How a `time.Time` is taken as a parameter of type `timestamptz`: one of a common year with
whole microseconds is taken as it is. -/
structure Timestamptz where
  read : Time → Option Time
  keeps : ∀ t, t.encodable = true → t.nsec % 1000 = 0 → read t = some t

end Postgres

namespace Ca

open Go Postgres

/-! ## Certificates -/

/-- The types that `certificates` takes. -/
def certTypes : List String :=
  [certTypeRootCA, certTypeIntermediateCA, certTypeServiceTLS, certTypeClient]

/-- The statuses that `certificates` takes. -/
def certStatuses : List String := [certStatusActive, certStatusRevoked, certStatusExpired]

/-- The roles that `certificates` takes. -/
def certRoles : List String := [identityRoleCustomer, identityRoleBankAdmin, identityRoleCAAdmin]

/-- A row of `certificates`. An array that is `NULL` is empty. -/
structure CertificateRow where
  serialNumber : Varchar 128
  certType : Checked 20 certTypes
  issuerID : Option (Varchar 64)
  issuerCommonName : Varchar 255
  issuerSerial : Option (Varchar 128)
  ownerID : Option (Varchar 255)
  role : Checked 20 certRoles
  subjectCN : Varchar 255
  subjectEmail : Option (Varchar 255)
  publicKeyPEM : Option Text
  certificatePEM : Text
  chainPEM : Option Text
  chainFingerprints : List Text
  fingerprintSHA256 : Varchar 64
  isCA : Bool
  keyUsage : List Text
  extendedKeyUsage : List Text
  notBefore : Time
  notAfter : Time
  status : Checked 10 certStatuses
  issuedAt : Time
  revokedAt : Option Time
  revocationReason : Option Text
  createdAt : Time
  updatedAt : Time
  /-- `cert_revoked_requires_time` -/
  revokedRequiresTime : status.1 ≠ certStatusRevoked ∨ revokedAt ≠ none
  /-- `cert_revoked_requires_reason` -/
  revokedRequiresReason : status.1 ≠ certStatusRevoked ∨ revocationReason ≠ none
  /-- `cert_client_requires_identity` -/
  clientRequiresIdentity : certType.1 ≠ certTypeClient ∨
    ownerID ≠ none ∧ subjectEmail ≠ none ∧ publicKeyPEM ≠ none
  /-- `cert_ca_type_matches_basic_constraints` -/
  caTypeMatches : certType.1 ∈ [certTypeRootCA, certTypeIntermediateCA] ∧ isCA = true ∨
    certType.1 ∈ [certTypeServiceTLS, certTypeClient] ∧ isCA = false

/-- `scanCertificate` -/
def CertificateRow.record (r : CertificateRow) : CertificateRecord where
  serialNumber := r.serialNumber.1
  certType := r.certType.1
  issuerID := coalesce (·.1) r.issuerID
  issuerCommonName := r.issuerCommonName.1
  issuerSerial := coalesce (·.1) r.issuerSerial
  ownerID := coalesce (·.1) r.ownerID
  role := r.role.1
  subjectCN := r.subjectCN.1
  subjectEmail := coalesce (·.1) r.subjectEmail
  publicKeyPEM := coalesce (·.1) r.publicKeyPEM
  certificatePEM := r.certificatePEM.1
  chainPEM := coalesce (·.1) r.chainPEM
  chainFingerprints := r.chainFingerprints.map (·.1)
  fingerprintSHA256 := r.fingerprintSHA256.1
  isCA := r.isCA
  keyUsage := r.keyUsage.map (·.1)
  extendedKeyUsage := r.extendedKeyUsage.map (·.1)
  notBefore := r.notBefore
  notAfter := r.notAfter
  status := r.status.1
  issuedAt := r.issuedAt
  revokedAt := r.revokedAt
  revocationReason := coalesce (·.1) r.revocationReason
  createdAt := r.createdAt
  updatedAt := r.updatedAt

/-- The row that `CreateCertificate` inserts, if the columns and the checks take it. -/
def CertificateRecord.row (tz : Timestamptz) (r : CertificateRecord) : Option CertificateRow := do
  let certType ← Checked.of 20 certTypes r.certType
  let ownerID ← Varchar.of 255 r.ownerID
  let subjectEmail ← Varchar.of 255 r.subjectEmail
  let publicKeyPEM ← Text.of r.publicKeyPEM
  let status ← Checked.of 10 certStatuses r.status
  let revokedAt ← r.revokedAt.mapM tz.read
  let revocationReason ← nullableString Text.of r.revocationReason
  if h : (status.1 ≠ certStatusRevoked ∨ revokedAt ≠ none) ∧
      (status.1 ≠ certStatusRevoked ∨ revocationReason ≠ none) ∧
      (certType.1 ∈ [certTypeRootCA, certTypeIntermediateCA] ∧ r.isCA = true ∨
        certType.1 ∈ [certTypeServiceTLS, certTypeClient] ∧ r.isCA = false) then
    return {
      certType, status, revokedAt, revocationReason
      serialNumber := ← Varchar.of 128 r.serialNumber
      issuerID := ← nullableString (Varchar.of 64) r.issuerID
      issuerCommonName := ← Varchar.of 255 r.issuerCommonName
      issuerSerial := ← nullableString (Varchar.of 128) r.issuerSerial
      ownerID := some ownerID
      role := ← Checked.of 20 certRoles r.role
      subjectCN := ← Varchar.of 255 r.subjectCN
      subjectEmail := some subjectEmail
      publicKeyPEM := some publicKeyPEM
      certificatePEM := ← Text.of r.certificatePEM
      chainPEM := ← nullableString Text.of r.chainPEM
      chainFingerprints := ← r.chainFingerprints.mapM Text.of
      fingerprintSHA256 := ← Varchar.of 64 r.fingerprintSHA256
      isCA := r.isCA
      keyUsage := ← r.keyUsage.mapM Text.of
      extendedKeyUsage := ← r.extendedKeyUsage.mapM Text.of
      notBefore := ← tz.read r.notBefore
      notAfter := ← tz.read r.notAfter
      issuedAt := ← tz.read r.issuedAt
      createdAt := ← tz.read r.createdAt
      updatedAt := ← tz.read r.updatedAt
      revokedRequiresTime := h.1
      revokedRequiresReason := h.2.1
      clientRequiresIdentity := .inr ⟨Option.some_ne_none _, Option.some_ne_none _,
        Option.some_ne_none _⟩
      caTypeMatches := h.2.2 }
  else none

/-! ## Events -/

/-- A row of `certificate_audit_log`. -/
structure EventRow extends AuditRow where
  performedAt : Time
  metadata : Option (Map String)

/-- An event as it is read back, with its hashes. -/
def EventRow.stored (r : EventRow) : StoredEvent where
  serialNumber := r.serialNumber.1
  certType := coalesce (·.1) r.certType
  issuerID := coalesce (·.1) r.issuerID
  action := r.action.1
  performedBy := r.performedBy.1
  reason := coalesce (·.1) r.reason
  performedAt := r.performedAt
  metadata := r.metadata.getD ∅
  prevHash := coalesce (·.1) r.prevHash
  hash := coalesce (·.1) r.hash

end Ca
