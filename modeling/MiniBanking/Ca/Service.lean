import MiniBanking.Ca.Record
import MiniBanking.Concurrency.Program

/-!
# The CA service

The operations of the CA as programs over the statements of its repository, its clock and its
signer, in the order of the source.

## Main definitions

* `Stmt`, `Reply`: what an operation asks for
* `Library`: what the CA uses of the libraries for certificate requests and addresses
* `Service`: what a deployment fixes
* `registerUser`, `verifyCertificate`, `listCertificates`, `getCertificateDetail`,
  `revokeCertificate`, `listAuditEvents`, `appendExternalAudit`, `initializeIssuerChain`
* `Request`, `Service.program`: the calls of the service
-/

namespace Go

/-- `t.AddDate(0, 0, days)` of a time in UTC. -/
def Time.addDays (t : Time) (days : ℤ) : Time :=
  { t with sec := t.sec + Int64.ofInt (86400 * days) }

end Go

namespace Ca

open Concurrency Go

/-! ## Inputs -/

def rootCAID : String := "root-ca"
def clientCAID : String := "client-ca"
def issuerRoleRootCA : String := "root_ca"
def issuerRoleClientCA : String := "client_ca"

structure RegisterInput where
  csrPem : String
  ownerID : String
  subjectCN : String
  subjectEmail : String
  role : IdentityRole
  requestID : String := ""
  performedBy : String := ""

structure VerifyInput where
  serialNumber : String
  requestID : String := ""
  caller : String := ""
  includeCertificatePEM : Bool := false
  includePublicKeyPEM : Bool := false

structure ListFilter where
  status : String := ""
  certType : String := ""
  issuerID : String := ""
  ownerID : String := ""
  subjectEmail : String := ""
  serialNumber : String := ""
  limit : ℤ := 0
  offset : ℤ := 0

/-- Selects audit events. `from` and `to` bound `performed_at` as a half-open range. -/
structure AuditFilter where
  serialNumber : String := ""
  action : String := ""
  performedBy : String := ""
  requestID : String := ""
  since : Time := .zero
  till : Time := .zero
  limit : ℤ := 0
  offset : ℤ := 0

/-- An event of the audit log with its time. -/
structure TimedEvent extends AuditEvent where
  performedAt : Time := .zero
  deriving DecidableEq

/-! ## What an operation asks for -/

/-- A certificate request. -/
structure Csr where
  commonName : String
  emailAddresses : List String
  publicKeyPEM : String

/-- What is signed for an owner. -/
structure Template where
  subjectCN : String
  subjectEmail : String
  ownerURI : String
  publicKeyPEM : String
  notBefore : Time
  notAfter : Time

/-- A certificate that was signed. -/
structure Issued where
  /-- The bytes of the serial number. -/
  serialNumber : List UInt8
  /-- `randomSerial` draws numbers until one is positive. -/
  positive : serialNumber ≠ []
  certPEM : String
  fingerprint : String
  notBefore : Time
  notAfter : Time

/-- The statements of an operation. -/
inductive Stmt where
  | now
  /-- `randomSerial` and `x509.CreateCertificate` -/
  | sign (template : Template)
  | upsertIssuer (record : IssuerRecord)
  | upsertCertificate (record : CertificateRecord)
  | createCertificate (record : CertificateRecord)
  | getCertificate (serial : String)
  | listCertificates (filter : ListFilter)
  | revokeCertificate (serial reason : String) (revokedAt : Time)
  | appendAudit (event : TimedEvent)
  | listAudit (filter : AuditFilter)

/-- The replies to the statements. -/
abbrev Reply : Stmt → Type
  | .now => Time
  | .sign _ => Except Error Issued
  | .upsertIssuer _ => Except Error Unit
  | .upsertCertificate _ => Except Error Unit
  | .createCertificate _ => Except Error Unit
  | .getCertificate _ => Except Error CertificateRecord
  | .listCertificates _ => Except Error (List CertificateRecord × ℕ)
  | .revokeCertificate _ _ _ => Except Error CertificateRecord
  | .appendAudit _ => Except Error Unit
  | .listAudit _ => Except Error (List TimedEvent × ℕ)

/-- The statements with their replies. -/
abbrev signature : Signature := ⟨Stmt, Reply⟩

/-- A program of the CA. -/
abbrev Run (α : Type) := Program signature α

/-- Issues a statement. -/
def stmt (s : Stmt) : Run (Reply s) := issue (S := signature) s

/-! ## What a deployment fixes -/

/-- What the CA uses of libraries. -/
structure Library where
  sha256 : List UInt8 → Vector UInt8 32
  /-- `parseAndValidateCSR` -/
  parseAndValidateCSR : String → Except Error Csr
  /-- `mail.ParseAddress` accepts the text. -/
  parseAddress : String → Bool
  /-- `strings.EqualFold` -/
  equalFold : String → String → Bool
  /-- The URI of an owner. -/
  ownerURI : String → Except Error String

/-- The certificate of a CA. -/
structure CaCertificate where
  serialNumber : List UInt8
  subjectCN : String
  issuerCN : String
  publicKeyPEM : String
  fingerprint : String
  subjectKeyId : List UInt8
  authorityKeyId : List UInt8
  /-- The bits of the key usage. -/
  keyUsage : ℕ
  notBefore : Time
  notAfter : Time

/-- A CA that is loaded. -/
structure RootCA where
  certificate : CaCertificate
  certPEM : String

/-- What a deployment of the CA fixes. -/
structure Service where
  lib : Library
  rootCA : Option RootCA
  signerCA : RootCA
  certValidityDays : ℤ

/-! ## Helpers -/

/-- `defaultActor` -/
def defaultActor (value fallback : String) : String :=
  let value := trimSpace value
  if value = "" then fallback else value

/-- `auditMetadata`: the values that are not blank, without the spaces around them. -/
def auditMetadata (values : List (String × String)) : Option (List (String × String)) :=
  let out := (values.map fun (key, value) => (key, trimSpace value)).filter (·.2 ≠ "")
  if out = [] then none else some out

/-- `keyUsageLabels` -/
def keyUsageLabels (usage : ℕ) : List String :=
  [(0, "digitalSignature"), (2, "keyEncipherment"), (5, "certSign"), (6, "crlSign")].filterMap
    fun (bit, label) => if usage.testBit bit then some label else none

/-- `issuerRecordFromCA` -/
def issuerRecordFromCA (issuerID parentIssuerID role : String) (ca : RootCA) (now : Time) :
    IssuerRecord where
  issuerID := issuerID
  parentIssuerID := parentIssuerID
  commonName := ca.certificate.subjectCN
  certRole := role
  serialNumber := hex ca.certificate.serialNumber
  certificatePEM := ca.certPEM
  fingerprintSHA256 := ca.certificate.fingerprint
  subjectKeyID := hex ca.certificate.subjectKeyId
  authorityKeyID := hex ca.certificate.authorityKeyId
  notBefore := ca.certificate.notBefore
  notAfter := ca.certificate.notAfter
  status := issuerStatusActive
  createdAt := now
  updatedAt := now

/-- `issuerParentChain` -/
def issuerParentChain : Option RootCA → String × List String
  | none => ("", [])
  | some parentCA => (trimSpace parentCA.certPEM ++ "\n", [parentCA.certificate.fingerprint])

/-- `issuerCertificateRecord` -/
def issuerCertificateRecord (issuerID parentIssuerID certType : String) (issuerCA : RootCA)
    (parentCA : Option RootCA) (now : Time) : CertificateRecord :=
  let cert := issuerCA.certificate
  let (chainPEM, chainFingerprints) := issuerParentChain parentCA
  { serialNumber := hex cert.serialNumber
    certType
    issuerID := if parentCA.isSome then parentIssuerID else issuerID
    issuerCommonName := (parentCA.map (·.certificate.subjectCN)).getD cert.issuerCN
    issuerSerial := hex ((parentCA.map (·.certificate.serialNumber)).getD cert.serialNumber)
    ownerID := issuerID
    subjectCN := cert.subjectCN
    publicKeyPEM := cert.publicKeyPEM
    certificatePEM := issuerCA.certPEM
    chainPEM, chainFingerprints
    fingerprintSHA256 := cert.fingerprint
    isCA := true
    keyUsage := keyUsageLabels cert.keyUsage
    notBefore := cert.notBefore
    notAfter := cert.notAfter
    status := certStatusActive
    issuedAt := cert.notBefore
    createdAt := now
    updatedAt := now }

/-- `issuerChain` -/
def Service.issuerChain (s : Service) : String × List String :=
  match s.rootCA with
  | none => (trimSpace s.signerCA.certPEM ++ "\n", [s.signerCA.certificate.fingerprint])
  | some root =>
    (trimSpace s.signerCA.certPEM ++ "\n" ++ trimSpace root.certPEM ++ "\n",
      [s.signerCA.certificate.fingerprint, root.certificate.fingerprint])

/-- An error with its details. -/
def wrap (sentinel : Sentinel) (details : List String) : Error :=
  .wrap sentinel (String.join details)

/-- `validateCSRIdentity` -/
def Library.validateCSRIdentity (lib : Library) (csr : Csr) (subjectCN subjectEmail : String) :
    Except Error Unit :=
  if csr.commonName ≠ subjectCN then
    .error (wrap .csrIdentityMismatch ["CSR CommonName ", csr.commonName,
      " does not match subject_cn ", subjectCN])
  else if csr.emailAddresses.any (lib.equalFold · subjectEmail) then .ok ()
  else .error (wrap .csrIdentityMismatch ["CSR email SAN must contain ", subjectEmail])

/-! ## The operations -/

namespace Service

variable (s : Service)

/-- Stores what is known of a CA as an issuer and as a certificate. -/
def storeIssuer (name : String) (issuer : IssuerRecord) (certificate : CertificateRecord) :
    Run (Except Error Unit) := do
  let .ok _ ← stmt (.upsertIssuer issuer)
    | return .error (.external ("store " ++ name ++ " issuer metadata"))
  let .ok _ ← stmt (.upsertCertificate certificate)
    | return .error (.external ("store " ++ name ++ " certificate metadata"))
  return .ok ()

/-- The Root CA is stored, if there is one. -/
def storeRootCA (now : Time) : Run (Except Error Unit) :=
  match s.rootCA with
  | none => return .ok ()
  | some root =>
    storeIssuer "Root CA" (issuerRecordFromCA rootCAID "" issuerRoleRootCA root now)
      (issuerCertificateRecord rootCAID "" certTypeRootCA root none now)

/-- `ensureIssuerChain` -/
def ensureIssuerChain (now : Time) : Run (Except Error Unit) := do
  match ← s.storeRootCA now with
  | .error err => return .error err
  | .ok _ =>
    storeIssuer "Client CA"
      (issuerRecordFromCA clientCAID rootCAID issuerRoleClientCA s.signerCA now)
      (issuerCertificateRecord clientCAID rootCAID certTypeIntermediateCA s.signerCA s.rootCA now)

/-- `InitializeIssuerChain` -/
def initializeIssuerChain : Run (Except Error Unit) := do
  s.ensureIssuerChain (← stmt .now)

/-- The input of a registration without the spaces around its texts. -/
def trimInput (input : RegisterInput) : RegisterInput :=
  { input with
    csrPem := trimSpace input.csrPem
    ownerID := trimSpace input.ownerID
    subjectCN := trimSpace input.subjectCN
    subjectEmail := trimSpace (toLower input.subjectEmail)
    performedBy := defaultActor input.performedBy "system:ca-service" }

/-- The input with a role. -/
def inputRole (input : RegisterInput) (role : IdentityRole) : RegisterInput := { input with role }

/-- The checks of a registration: the trimmed input with its role, and the certificate request. -/
def checkInput (input : RegisterInput) : Except Error (RegisterInput × Csr) :=
  let trimmed := trimInput input
  let (role, validRole) := normalizeIdentityRole trimmed.role
  let input := inputRole trimmed role
  if !validRole then .error (wrap .invalidInput ["unsupported identity role ", trimmed.role])
  else if input.csrPem = "" then .error (wrap .invalidInput ["csr_pem is required"])
  else if input.ownerID = "" then .error (wrap .invalidInput ["owner_id is required"])
  else if input.subjectCN = "" then .error (wrap .invalidInput ["subject_cn is required"])
  else if !s.lib.parseAddress input.subjectEmail || !input.subjectEmail.toList.contains '@' then
    .error (wrap .invalidInput ["subject_email must be a valid plain email"])
  else
    match s.lib.parseAndValidateCSR input.csrPem with
    | .error err => .error err
    | .ok csr =>
      match s.lib.validateCSRIdentity csr input.subjectCN input.subjectEmail with
      | .error err => .error err
      | .ok _ => .ok (input, csr)

/-- What the checks of a registration leave of its input. -/
theorem checkInput_ok {input input' : RegisterInput} {csr : Csr}
    (h : s.checkInput input = .ok (input', csr)) :
    input' = inputRole (trimInput input) (normalizeIdentityRole input.role).1 ∧
      (normalizeIdentityRole input.role).2 = true ∧ input'.ownerID ≠ "" ∧ input'.subjectCN ≠ "" ∧
      '@' ∈ input'.subjectEmail.toList := by
  simp only [checkInput] at h
  split at h
  · cases h
  next hrole =>
  split at h
  · cases h
  split at h
  · cases h
  next howner =>
  split at h
  · cases h
  next hcn =>
  split at h
  · cases h
  next hemail =>
  split at h
  · cases h
  split at h
  · cases h
  cases h
  simp only [Bool.or_eq_true, Bool.not_eq_true', Bool.not_eq_false, not_or] at hrole hemail
  exact ⟨rfl, hrole, howner, hcn, by simpa using hemail.2⟩

/-- The record of a certificate that was signed. -/
def clientRecord (input : RegisterInput) (csr : Csr) (cert : Issued) (now : Time) :
    CertificateRecord :=
  let (chainPEM, chainFingerprints) := s.issuerChain
  { serialNumber := hex cert.serialNumber
    certType := certTypeClient
    issuerID := clientCAID
    issuerCommonName := s.signerCA.certificate.subjectCN
    issuerSerial := hex s.signerCA.certificate.serialNumber
    ownerID := input.ownerID
    role := input.role
    subjectCN := input.subjectCN
    subjectEmail := input.subjectEmail
    publicKeyPEM := csr.publicKeyPEM
    certificatePEM := cert.certPEM
    chainPEM, chainFingerprints
    fingerprintSHA256 := cert.fingerprint
    isCA := false
    keyUsage := ["digitalSignature", "keyEncipherment"]
    extendedKeyUsage := ["clientAuth"]
    notBefore := cert.notBefore
    notAfter := cert.notAfter
    status := certStatusActive
    issuedAt := now
    createdAt := now
    updatedAt := now }

/-- `appendAudit`: the service goes on if the event is not stored. -/
def appendAudit (event : TimedEvent) : Run Unit := do
  let _ ← stmt (.appendAudit event)
  return ()

/-- What is signed for a registration. -/
def template (input : RegisterInput) (csr : Csr) (ownerURI : String) (now : Time) : Template where
  subjectCN := input.subjectCN
  subjectEmail := input.subjectEmail
  ownerURI := ownerURI
  publicKeyPEM := csr.publicKeyPEM
  notBefore := now.add (-60000000000)
  notAfter := now.addDays s.certValidityDays

/-- The event of a registration. -/
def issuedEvent (input : RegisterInput) (record : CertificateRecord) (now : Time) : TimedEvent where
  serialNumber := record.serialNumber
  certType := certTypeClient
  issuerID := clientCAID
  action := auditIssued
  performedBy := input.performedBy
  performedAt := now
  metadata := auditMetadata
    [("request_id", input.requestID), ("owner_id", input.ownerID), ("role", input.role)]

/-- `RegisterUser` -/
def registerUser (input : RegisterInput) : Run (Except Error CertificateRecord) :=
  match s.checkInput input with
  | .error err => return .error err
  | .ok (input, csr) => do
    let now ← stmt .now
    match s.lib.ownerURI input.ownerID with
    | .error err => return .error err
    | .ok ownerURI => do
      let .ok cert ← stmt (.sign (s.template input csr ownerURI now))
        | return .error (.external "sign certificate")
      let record := s.clientRecord input csr cert now
      match ← s.ensureIssuerChain now with
      | .error err => return .error err
      | .ok _ => do
        match ← stmt (.createCertificate record) with
        | .error err => return .error err
        | .ok _ => do
          appendAudit (issuedEvent input record now)
          return .ok record

/-- The event of an operation on a certificate that was found. -/
def recordEvent (serial action performedBy : String) (reason : String)
    (metadata : List (String × String)) (record : CertificateRecord) (now : Time) : TimedEvent where
  serialNumber := serial
  certType := record.certType
  issuerID := record.issuerID
  action := action
  performedBy := performedBy
  reason := reason
  performedAt := now
  metadata := auditMetadata metadata

/-- The record with a role. -/
def withRole (record : CertificateRecord) (role : IdentityRole) : CertificateRecord :=
  { record with role }

/-- The record with its status at a time. -/
def resolved (record : CertificateRecord) (now : Time) : CertificateRecord :=
  { record with status := resolveStatus record now }

/-- `VerifyCertificate` -/
def verifyCertificate (input : VerifyInput) : Run (Except Error CertificateRecord) :=
  let serial := trimSpace input.serialNumber
  if serial = "" then return .error (wrap .invalidInput ["serial_number is required"])
  else do
    match ← stmt (.getCertificate serial) with
    | .error err => return .error err
    | .ok record =>
      let (role, validRole) := normalizeIdentityRole record.role
      if !validRole then
        return .error (.text ("invalid persisted identity role " ++ record.role))
      else do
        let record := resolved (withRole record role) (← stmt .now)
        let metadata := [("request_id", input.requestID),
          ("include_certificate_pem", toString input.includeCertificatePEM),
          ("include_public_key_pem", toString input.includePublicKeyPEM)]
        appendAudit (recordEvent serial auditVerifyCertificate
          (defaultActor input.caller "system:unknown") "" metadata record (← stmt .now))
        return .ok record

/-- `GetCertificate` -/
def getCertificate (serial : String) : Run (Except Error CertificateRecord) :=
  verifyCertificate {
    serialNumber := serial
    caller := "legacy:get-certificate"
    includeCertificatePEM := true
    includePublicKeyPEM := true }

/-- `CheckRevocation` -/
def checkRevocation (serial : String) : Run (Except Error CertificateRecord) :=
  verifyCertificate { serialNumber := serial, caller := "legacy:check-revocation" }

/-- The limit of a page: 20 unless it is given, and 100 at most. -/
def pageLimit (limit : ℤ) : ℤ :=
  let limit := if limit ≤ 0 then 20 else limit
  if 100 < limit then 100 else limit

/-- The records with their statuses. -/
def resolveAll : List CertificateRecord → Run (List CertificateRecord)
  | [] => return []
  | record :: records => do
    let now ← stmt .now
    let records ← resolveAll records
    return resolved record now :: records

/-- `ListCertificates` -/
def listCertificates (filter : ListFilter) : Run (Except Error (List CertificateRecord × ℕ)) := do
  let filter := { filter with limit := pageLimit filter.limit, offset := max filter.offset 0 }
  match ← stmt (.listCertificates filter) with
  | .error err => return .error err
  | .ok (records, total) => do
    let records ← resolveAll records
    return .ok (records, total)

/-- `GetCertificateDetail` -/
def getCertificateDetail (serial requestID performedBy : String) :
    Run (Except Error CertificateRecord) :=
  let serial := trimSpace serial
  if serial = "" then return .error (wrap .invalidInput ["serial_number is required"])
  else do
    match ← stmt (.getCertificate serial) with
    | .error err => return .error err
    | .ok record => do
      let record := resolved record (← stmt .now)
      let metadata := [("request_id", requestID), ("owner_id", record.ownerID)]
      appendAudit (recordEvent serial auditLookedUp
        (defaultActor performedBy "admin-ca:unknown") "" metadata record (← stmt .now))
      return .ok record

/-- `RevokeCertificate` -/
def revokeCertificate (serial reason requestID performedBy : String) :
    Run (Except Error CertificateRecord) :=
  let serial := trimSpace serial
  let reason := trimSpace reason
  if serial = "" then return .error (wrap .invalidInput ["serial_number is required"])
  else if reason = "" then return .error (wrap .invalidInput ["reason is required"])
  else do
    match ← stmt (.getCertificate serial) with
    | .error err => return .error err
    | .ok existing =>
      if existing.certType ≠ certTypeClient then
        return .error (wrap .certificateNotRevokable
          ["cert_type=", existing.certType, " serial_number=", serial])
      else do
        let now ← stmt .now
        match ← stmt (.revokeCertificate serial reason now) with
        | .error err => return .error err
        | .ok record => do
          let metadata := [("request_id", requestID), ("owner_id", record.ownerID)]
          appendAudit (recordEvent serial auditRevoked
            (defaultActor performedBy "admin-ca:unknown") reason metadata record now)
          return .ok record

/-- The filter with its texts trimmed. -/
def trimFilter (filter : AuditFilter) : AuditFilter :=
  { filter with
    serialNumber := trimSpace filter.serialNumber
    performedBy := trimSpace filter.performedBy
    requestID := trimSpace filter.requestID
    action := trimSpace (toLower filter.action) }

/-- `ListAuditEvents` -/
def listAuditEvents (filter : AuditFilter) : Run (Except Error (List TimedEvent × ℕ)) :=
  let filter := trimFilter filter
  if !filter.action.isEmpty && !auditActions.contains filter.action then
    return .error (wrap .invalidInput ["unsupported audit action ", filter.action])
  else if !filter.since.isZero && !filter.till.isZero && filter.till.before filter.since then
    return .error (wrap .invalidInput ["audit filter to must not be before from"])
  else stmt (.listAudit
    { filter with limit := pageLimit filter.limit, offset := max filter.offset 0 })

/-- The event with a name of its action that is trimmed and in lower case. -/
def withAction (event : TimedEvent) : TimedEvent :=
  { event with action := trimSpace (toLower event.action) }

/-- The event at a time. -/
def atTime (event : TimedEvent) (now : Time) : TimedEvent := { event with performedAt := now }

/-- `AppendExternalAudit` -/
def appendExternalAudit (event : TimedEvent) : Run (Except Error Unit) :=
  let event := withAction event
  if !externalAuditActions.contains event.action then
    return .error (wrap .invalidInput
      ["audit action ", event.action, " is not allowed for external callers"])
  else if trimSpace event.performedBy = "" then
    return .error (wrap .invalidInput ["performed_by is required"])
  else if event.performedAt.isZero then do
    let now ← stmt .now
    stmt (.appendAudit (atTime event now))
  else stmt (.appendAudit event)

end Service

/-! ## The calls -/

/-- A call of the CA. -/
inductive Request where
  | initializeIssuerChain
  | registerUser (input : RegisterInput)
  | verifyCertificate (input : VerifyInput)
  | getCertificate (serial : String)
  | checkRevocation (serial : String)
  | listCertificates (filter : ListFilter)
  | getCertificateDetail (serial requestID performedBy : String)
  | revokeCertificate (serial reason requestID performedBy : String)
  | listAuditEvents (filter : AuditFilter)
  | appendExternalAudit (event : TimedEvent)

/-- The result of a call. -/
inductive Result where
  | done (result : Except Error Unit)
  | record (result : Except Error CertificateRecord)
  | records (result : Except Error (List CertificateRecord × ℕ))
  | events (result : Except Error (List TimedEvent × ℕ))

/-- The program of a call. -/
def Service.program (s : Service) : Request → Run Result
  | .initializeIssuerChain => .done <$> s.initializeIssuerChain
  | .registerUser input => .record <$> s.registerUser input
  | .verifyCertificate input => .record <$> verifyCertificate input
  | .getCertificate serial => .record <$> getCertificate serial
  | .checkRevocation serial => .record <$> checkRevocation serial
  | .listCertificates filter => .records <$> listCertificates filter
  | .getCertificateDetail serial requestID performedBy =>
    .record <$> getCertificateDetail serial requestID performedBy
  | .revokeCertificate serial reason requestID performedBy =>
    .record <$> revokeCertificate serial reason requestID performedBy
  | .listAuditEvents filter => .events <$> listAuditEvents filter
  | .appendExternalAudit event => .done <$> appendExternalAudit event

/-! ## A sample deployment -/

/-- Libraries that take every request for one of a person and every text for an address. -/
def sampleLibrary : Library where
  sha256 bytes :=
    let h := bytes.foldl (fun h b => (31 * h + b.toNat) % 2 ^ 61) 7
    Vector.ofFn fun i => UInt8.ofNat (h / 2 ^ (8 * (i.val % 8)))
  parseAndValidateCSR _ :=
    .ok { commonName := "Alice", emailAddresses := ["alice@bank.vn"], publicKeyPEM := "key" }
  parseAddress _ := true
  equalFold a b := toLower a = toLower b
  ownerURI owner := .ok ("urn:mini-banking:owner:" ++ owner)

/-- A CA of the sample deployment. -/
def sampleCA (subjectCN : String) (serial : UInt8) : RootCA where
  certificate := {
    serialNumber := [serial]
    subjectCN
    issuerCN := "Root CA"
    publicKeyPEM := "key"
    fingerprint := hex [serial]
    subjectKeyId := []
    authorityKeyId := []
    keyUsage := 96
    notBefore := Time.unix 0
    notAfter := Time.unix 4000000000 }
  certPEM := "pem"

/-- A sample deployment. -/
def sampleService : Service where
  lib := sampleLibrary
  rootCA := none
  signerCA := sampleCA "Client CA" 1
  certValidityDays := 365

end Ca
