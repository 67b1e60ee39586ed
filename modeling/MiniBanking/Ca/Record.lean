import MiniBanking.Ca.Audit
import MiniBanking.Go.Duration

/-!
# Certificate records

What the CA keeps about a certificate and about an issuer, and when it takes a certificate for
active.

## Main definitions

* `CertificateRecord`, `IssuerRecord`: what the CA keeps
* `resolveRecordStatus`, `resolveStatus`: the status of a certificate at a time, as the store and
  as the service compute it
* `normalizeIdentityRole`: which roles are known

## Main results

* `isActive_iff`: when a certificate is active
* `CertificateRecord.RevokedAt.resolveStatus`: a revoked certificate stays revoked
-/

namespace Go

theorem Time.zero_range : (0 : ℤ) ≤ 0 ∧ (0 : ℤ) < second := by decide

/-- The zero value of `time.Time`. -/
def Time.zero : Time := ⟨0, 0, Time.zero_range⟩

/-- `t.IsZero()`. -/
def Time.isZero (t : Time) : Bool := t.sec == 0 && t.nsec == 0

/-- `strings.ToLower`, of the letters whose lower case is in ASCII. -/
def toLower (s : String) : String :=
  String.ofList (s.toList.map fun c =>
    if c.toNat = 0x130 then 'i' else if c.toNat = 0x212A then 'k' else c.toLower)

end Go

namespace Ca

open Go

/-! ## Statuses and roles -/

/-- The status of a certificate, a text. -/
abbrev CertStatus := String

def certStatusUnknown : CertStatus := "unknown"
def certStatusActive : CertStatus := "active"
def certStatusRevoked : CertStatus := "revoked"
def certStatusExpired : CertStatus := "expired"

def certTypeRootCA : String := "root_ca"
def certTypeIntermediateCA : String := "intermediate_ca"
def certTypeServiceTLS : String := "service_tls"
def certTypeClient : String := "client"

def issuerStatusActive : String := "active"

/-- The role of an owner, a text. -/
abbrev IdentityRole := String

def identityRoleUnknown : IdentityRole := ""
def identityRoleCustomer : IdentityRole := "customer"
def identityRoleBankAdmin : IdentityRole := "bank_admin"
def identityRoleCAAdmin : IdentityRole := "ca_admin"

/-- `NormalizeIdentityRole`: the role in lower case, and whether it is known. -/
def normalizeIdentityRole (role : IdentityRole) : IdentityRole × Bool :=
  let normalized := toLower (trimSpace role)
  if normalized = identityRoleUnknown ∨ normalized = "unknown" then (identityRoleCustomer, true)
  else if normalized = identityRoleCustomer ∨ normalized = identityRoleBankAdmin ∨
      normalized = identityRoleCAAdmin then (normalized, true)
  else (normalized, false)

/-! ## Errors -/

/-- The errors of the CA that its callers tell apart. -/
inductive Sentinel where
  | activeCertificateExists
  | alreadyRevoked
  | certificateNotFound
  | certificateNotRevokable
  | csrIdentityMismatch
  | invalidCSR
  | invalidInput
  deriving DecidableEq

def Sentinel.text : Sentinel → String
  | activeCertificateExists => "active certificate already exists for owner"
  | alreadyRevoked => "certificate already revoked"
  | certificateNotFound => "certificate not found"
  | certificateNotRevokable => "certificate type cannot be revoked through client revoke flow"
  | csrIdentityMismatch => "CSR identity does not match request"
  | invalidCSR => "invalid CSR"
  | invalidInput => "invalid input"

/-- An error of the CA. -/
inductive Error where
  /-- One of the errors that callers tell apart, with details. -/
  | wrap (sentinel : Sentinel) (detail : String)
  /-- An error of the CA with its text. -/
  | text (message : String)
  /-- An error of a library at a step of the CA. -/
  | external (step : String)
  deriving DecidableEq

/-- `errors.Is(err, sentinel)`. -/
def Error.is (err : Error) (sentinel : Sentinel) : Bool :=
  match err with
  | wrap s _ => s = sentinel
  | _ => false

/-! ## Records -/

/-- What the CA keeps about a certificate. All times are in UTC. -/
structure CertificateRecord where
  serialNumber : String := ""
  certType : String := ""
  issuerID : String := ""
  issuerCommonName : String := ""
  issuerSerial : String := ""
  ownerID : String := ""
  role : IdentityRole := ""
  subjectCN : String := ""
  subjectEmail : String := ""
  publicKeyPEM : String := ""
  certificatePEM : String := ""
  chainPEM : String := ""
  chainFingerprints : List String := []
  fingerprintSHA256 : String := ""
  isCA : Bool := false
  keyUsage : List String := []
  extendedKeyUsage : List String := []
  notBefore : Time := .zero
  notAfter : Time := .zero
  status : CertStatus := ""
  issuedAt : Time := .zero
  revokedAt : Option Time := none
  revocationReason : String := ""
  createdAt : Time := .zero
  updatedAt : Time := .zero
  deriving DecidableEq

/-- What the CA keeps about an issuer. All times are in UTC. -/
structure IssuerRecord where
  issuerID : String := ""
  parentIssuerID : String := ""
  commonName : String := ""
  certRole : String := ""
  serialNumber : String := ""
  certificatePEM : String := ""
  fingerprintSHA256 : String := ""
  subjectKeyID : String := ""
  authorityKeyID : String := ""
  notBefore : Time := .zero
  notAfter : Time := .zero
  status : String := ""
  createdAt : Time := .zero
  updatedAt : Time := .zero
  deriving DecidableEq

/-- `resolveRecordStatus`: the status of a certificate at a time, as the JSON store computes it. -/
def resolveRecordStatus (record : CertificateRecord) (now : Time) : CertStatus :=
  if record.revokedAt ≠ none ∨ record.status = certStatusRevoked then certStatusRevoked
  else if !record.notAfter.isZero && now.after record.notAfter then certStatusExpired
  else if record.status = "" ∨ record.status = certStatusUnknown then certStatusUnknown
  else certStatusActive

/-- `isActive` -/
def isActive (record : CertificateRecord) (now : Time) : Bool :=
  resolveRecordStatus record now = certStatusActive

/-- When a certificate is active. -/
theorem isActive_iff {record : CertificateRecord} {now : Time} :
    isActive record now = true ↔
      (record.revokedAt = none ∧ record.status ≠ certStatusRevoked) ∧
        ¬ (record.notAfter.isZero = false ∧ now.after record.notAfter = true) ∧
        record.status ≠ "" ∧ record.status ≠ certStatusUnknown := by
  rw [isActive, decide_eq_true_eq, resolveRecordStatus]
  split
  · next hrevoked =>
    refine iff_of_false (by decide) ?_
    rintro ⟨⟨hnone, hstatus⟩, -⟩
    exact hrevoked.elim (absurd hnone) (absurd · hstatus)
  next hrevoked =>
  rw [not_or, not_not] at hrevoked
  split
  · next hexpired =>
    refine iff_of_false (by decide) ?_
    rintro ⟨-, hnot, -⟩
    exact hnot (by simpa using hexpired)
  next hexpired =>
  split
  · next hunknown =>
    refine iff_of_false (by decide) ?_
    rintro ⟨-, -, hempty, hstatus⟩
    exact hunknown.elim hempty hstatus
  next hunknown =>
  rw [not_or] at hunknown
  exact iff_of_true rfl ⟨hrevoked, by simpa using hexpired, hunknown⟩

/-- `Service.resolveStatus`: the status of a certificate at a time, as the service computes it. -/
def resolveStatus (record : CertificateRecord) (now : Time) : CertStatus :=
  if record.revokedAt ≠ none ∨ record.status = certStatusRevoked then certStatusRevoked
  else if now.after record.notAfter then certStatusExpired
  else if record.status = "" ∨ record.status = certStatusUnknown then certStatusUnknown
  else certStatusActive

/-- The certificate is revoked, since a time and for a reason. -/
structure CertificateRecord.RevokedAt (record : CertificateRecord) (revokedAt : Time)
    (reason : String) : Prop where
  status : record.status = certStatusRevoked
  since : record.revokedAt = some revokedAt
  because : record.revocationReason = reason

/-- **A revoked certificate stays revoked**, also after its end. -/
theorem CertificateRecord.RevokedAt.resolveStatus {record : CertificateRecord} {revokedAt : Time}
    {reason : String} (h : record.RevokedAt revokedAt reason) (now : Time) :
    Ca.resolveStatus record now = certStatusRevoked := if_pos (.inr h.status)

theorem CertificateRecord.RevokedAt.resolveRecordStatus {record : CertificateRecord}
    {revokedAt : Time} {reason : String} (h : record.RevokedAt revokedAt reason) (now : Time) :
    Ca.resolveRecordStatus record now = certStatusRevoked := if_pos (.inr h.status)

end Ca
