import MiniBanking.Kdc.Payload

/-!
# Certificates at the KDC

What the KDC makes of the reply of the CA about a certificate, when it takes the certificate for
usable, and which scopes the holder of a certificate may have.

## Main definitions

* `ErrorCode`, `KDCError`: the errors of the KDC
* `Certificate`, `Crypto.certificateOf`: a certificate, and how it is made from a reply of the CA
* `validateCertUsable`: the rules of both exchanges for a certificate
* `roleAllowsScope`: the scopes of a role

## Main results

* `validateCertUsable_ok`: what the rules say
-/

namespace Kdc

open Go

/-! ## Errors -/

/-- Stable KDC error codes. -/
inductive ErrorCode where
  | authInvalid
  | tgtExpired
  | requestExpired
  | identityMismatch
  | certNotFound
  | certRevoked
  | certExpired
  | replayDetected
  | scopeDenied
  | serviceUnknown
  | internal
  deriving DecidableEq

def ErrorCode.text : ErrorCode → String
  | authInvalid => "AUTH_INVALID"
  | tgtExpired => "TGT_EXPIRED"
  | requestExpired => "REQUEST_EXPIRED"
  | identityMismatch => "IDENTITY_MISMATCH"
  | certNotFound => "CERT_NOT_FOUND"
  | certRevoked => "CERT_REVOKED"
  | certExpired => "CERT_EXPIRED"
  | replayDetected => "REPLAY_DETECTED"
  | scopeDenied => "SCOPE_DENIED"
  | serviceUnknown => "SERVICE_UNKNOWN"
  | internal => "INTERNAL_ERROR"

/-- The error that a KDC error wraps. -/
inductive Cause where
  /-- An error of the KDC with its text. -/
  | text (message : String)
  /-- An error of the KDC whose text quotes a value between two parts. -/
  | quoting (before value after : String)
  /-- An error of a library or of another service. -/
  | external
  deriving DecidableEq

/-- `KDCError`. -/
structure KDCError where
  code : ErrorCode
  err : Option Cause := none
  deriving DecidableEq

/-- `auditReason`: the code of an error in lower case. -/
def KDCError.reason (err : KDCError) : String := err.code.text.toLower

/-! ## Certificates -/

/-- The status of a certificate; `unset` is the empty one. -/
inductive CertificateStatus where
  | valid
  | active
  | revoked
  | expired
  | unset
  deriving DecidableEq

/-- The roles that the KDC tells apart. -/
inductive IdentityRole where
  | customer
  | bankAdmin
  deriving DecidableEq

/-- The certificate data required by both exchanges. -/
structure Certificate where
  serial : String
  certType : String
  issuerID : String
  issuerCommonName : String
  issuerSerial : String
  chainFingerprints : List String
  ownerID : String
  role : IdentityRole
  publicKeyPEM : String
  status : CertificateStatus
  notBefore : Time
  notAfter : Time

/-- What the CA replies to the KDC about a certificate, with the certificate itself. -/
structure VerifyCertificateResponse extends Bank.VerifyCertificateResponse where
  certificatePem : String
  deriving DecidableEq

theorem zeroTime_range : (0 : ℤ) ≤ 0 ∧ 0 < second := by decide

/-- The zero value of `time.Time`. -/
def zeroTime : Time := ⟨0, 0, zeroTime_range⟩

/-- `t.IsZero()`. -/
def isZero (t : Time) : Bool := t.sec == 0 && t.nsec == 0

/-- `mapCAIdentityRole`. -/
def mapCAIdentityRole : Bank.IdentityRole → IdentityRole
  | .bankAdmin => .bankAdmin
  | _ => .customer

/-- `mapCACertStatus`. -/
def mapCACertStatus : Bank.CertStatus → CertificateStatus
  | .active => .active
  | .revoked => .revoked
  | .expired => .expired
  | .unknown => .unset

/-- The time of a Unix time, which is unset if it is 0. -/
def unixOrUnset (s : Int64) : Time := if s = 0 then zeroTime else .unix s

/-- The certificate of a reply, with a public key and a validity. -/
def Certificate.of (certSN : String) (resp : VerifyCertificateResponse) (publicKeyPEM : String)
    (notBefore notAfter : Time) : Certificate where
  serial := certSN
  certType := resp.certType
  issuerID := resp.issuerId
  issuerCommonName := resp.issuerCommonName
  issuerSerial := resp.issuerSerialNumber
  chainFingerprints := resp.chainFingerprints
  ownerID := resp.ownerId
  role := mapCAIdentityRole resp.role
  publicKeyPEM := publicKeyPEM
  status := mapCACertStatus resp.status
  notBefore := notBefore
  notAfter := notAfter

/-- The part of `GetCertificate` after the reply of the CA: what the reply does not say is taken
from the certificate in it, if it has one. -/
def Crypto.certificateOf (crypto : Crypto) (certSN : String) (resp : VerifyCertificateResponse) :
    Option Certificate := do
  let notBefore := unixOrUnset resp.notBeforeUnix
  let notAfter := unixOrUnset resp.notAfterUnix
  if resp.certificatePem = "" then
    return .of certSN resp resp.publicKeyPem notBefore notAfter
  else
    let cert ← crypto.parseCertificate (← crypto.pemDecode resp.certificatePem)
    let publicKeyPEM ← if resp.publicKeyPem = "" then cert.publicKeyPEM else resp.publicKeyPem
    return .of certSN resp publicKeyPEM
      (if isZero notBefore then cert.notBefore else notBefore)
      (if isZero notAfter then cert.notAfter else notAfter)

/-- What a certificate says is what the CA replied, under the serial number that was asked for. -/
theorem certificateOf_some {crypto : Crypto} {serial : String} {resp : VerifyCertificateResponse}
    {cert : Certificate} (h : crypto.certificateOf serial resp = some cert) :
    ∃ publicKeyPEM notBefore notAfter, cert = .of serial resp publicKeyPEM notBefore notAfter ∧
      (resp.publicKeyPem ≠ "" → publicKeyPEM = resp.publicKeyPem) := by
  simp only [Crypto.certificateOf] at h
  split at h
  · cases h
    exact ⟨_, _, _, rfl, fun _ => rfl⟩
  · simp only [Option.bind_eq_bind, Option.bind_eq_some_iff] at h
    obtain ⟨der, -, x509, -, h⟩ := h
    split at h
    · next hkey =>
      obtain ⟨publicKeyPEM, -, h⟩ := Option.bind_eq_some_iff.mp h
      cases h
      exact ⟨_, _, _, rfl, fun hne => absurd hkey hne⟩
    · cases h
      exact ⟨_, _, _, rfl, fun _ => rfl⟩

def certTypeClient : String := "client"
def clientCAIssuer : String := "client-ca"

/-- `validateCertUsable`. -/
def validateCertUsable (cert : Certificate) (now : Time) : Except KDCError Unit :=
  match cert.status with
  | .revoked => .error ⟨.certRevoked, none⟩
  | .expired => .error ⟨.certExpired, none⟩
  | .unset => .error ⟨.certNotFound, none⟩
  | .valid | .active =>
    if !isZero cert.notBefore && now.before cert.notBefore then
      .error ⟨.authInvalid, some (.text "certificate not yet valid")⟩
    else if isZero cert.notAfter || !cert.notAfter.after now then .error ⟨.certExpired, none⟩
    else if cert.publicKeyPEM = "" then
      .error ⟨.authInvalid, some (.text "certificate missing public key")⟩
    else if cert.certType ≠ certTypeClient then
      .error ⟨.authInvalid, some (.quoting "certificate type " cert.certType
        " is not usable for client authentication")⟩
    else if cert.issuerID ≠ clientCAIssuer then
      .error ⟨.authInvalid, some (.quoting "certificate issuer " cert.issuerID
        " is not trusted for client authentication")⟩
    else if cert.chainFingerprints.isEmpty then
      .error ⟨.authInvalid, some (.text "certificate missing issuer chain metadata")⟩
    else .ok ()

/-- A certificate may be used at a time. -/
structure Certificate.Usable (cert : Certificate) (now : Time) : Prop where
  status : cert.status = .valid ∨ cert.status = .active
  begun : cert.notBefore = zeroTime ∨ cert.notBefore.ns ≤ now.ns
  has_end : cert.notAfter ≠ zeroTime
  not_ended : now.ns < cert.notAfter.ns
  key : cert.publicKeyPEM ≠ ""
  client : cert.certType = "client"
  issuer : cert.issuerID = "client-ca"
  chain : cert.chainFingerprints ≠ []

theorem isZero_iff {t : Time} : isZero t = true ↔ t = zeroTime := by
  rw [isZero, Bool.and_eq_true, beq_iff_eq, beq_iff_eq]
  constructor
  · rintro ⟨hsec, hnsec⟩
    cases t
    subst hsec hnsec
    rfl
  · rintro rfl
    exact ⟨rfl, rfl⟩

/-- **The rules for a certificate** say that it may be used now. -/
theorem validateCertUsable_ok {cert : Certificate} {now : Time} :
    validateCertUsable cert now = .ok () ↔ cert.Usable now := by
  have hiff : cert.Usable now ↔ (cert.status = .valid ∨ cert.status = .active) ∧
      ¬ (!isZero cert.notBefore && now.before cert.notBefore) ∧
      ¬ (isZero cert.notAfter || !cert.notAfter.after now) ∧ cert.publicKeyPEM ≠ "" ∧
      cert.certType = "client" ∧ cert.issuerID = "client-ca" ∧ cert.chainFingerprints ≠ [] := by
    simp only [Bool.and_eq_true, Bool.or_eq_true, Bool.not_eq_true', Bool.eq_false_iff, ne_eq,
      isZero_iff, Time.before_iff, Time.after_iff, not_and_or, not_or, not_not, not_lt]
    constructor
    · intro h
      exact ⟨h.status, h.begun, ⟨h.has_end, not_le.mpr h.not_ended⟩, h.key, h.client, h.issuer,
        h.chain⟩
    · rintro ⟨hstatus, hbegun, ⟨hend, hnot⟩, hkey, hclient, hissuer, hchain⟩
      exact ⟨hstatus, hbegun, hend, not_le.mp hnot, hkey, hclient, hissuer, hchain⟩
  rw [hiff, validateCertUsable, certTypeClient, clientCAIssuer]
  split
  · next h => simp [h]
  · next h => simp [h]
  · next h => simp [h]
  all_goals
    next h =>
    rw [h]
    split_ifs <;> simp_all

/-! ## Scopes -/

/-- `roleAllowsScope`. -/
def roleAllowsScope (role : IdentityRole) (scope : String) : Bool :=
  match role with
  | .bankAdmin => scope = "bank-admin:read"
  | .customer => scope = "transfer:create" || scope = "balance:read" || scope = "history:read"

end Kdc
