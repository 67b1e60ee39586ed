import MiniBanking.Ca.Service
import MiniBanking.Concurrency.Trace

/-!
# What the operations of the CA ask for

Every statement of an operation, with its arguments. What the operations keep about the repository
follows from this list.

## Main definitions

* `Service.Asks`: a call may issue a statement

## Main results

* `Service.asks`: a call issues no other statements
-/

namespace Ca

open Concurrency Go Service

/-- A call may issue the statement. -/
inductive Service.Asks (s : Service) : Request → Stmt → Prop
  | now (q) : Asks s q .now
  | sign (q template) : Asks s q (.sign template)
  | upsertIssuer (q record) : Asks s q (.upsertIssuer record)
  | upsertRootCA (q now) {root} (h : s.rootCA = some root) :
      Asks s q (.upsertCertificate
        (issuerCertificateRecord rootCAID "" certTypeRootCA root none now))
  | upsertClientCA (q now) :
      Asks s q (.upsertCertificate
        (issuerCertificateRecord clientCAID rootCAID certTypeIntermediateCA s.signerCA s.rootCA now))
  | createCertificate {input input' csr} (h : s.checkInput input = .ok (input', csr)) (cert now) :
      Asks s (.registerUser input) (.createCertificate (s.clientRecord input' csr cert now))
  | getCertificate (q serial) : Asks s q (.getCertificate serial)
  | listCertificates (q filter) : Asks s q (.listCertificates filter)
  | revokeCertificate (serial reason requestID performedBy now) (h : trimSpace reason ≠ "") :
      Asks s (.revokeCertificate serial reason requestID performedBy)
        (.revokeCertificate (trimSpace serial) (trimSpace reason) now)
  | listAudit (q filter) : Asks s q (.listAudit filter)
  | appendIssued {input input' csr} (h : s.checkInput input = .ok (input', csr)) (cert now) :
      Asks s (.registerUser input)
        (.appendAudit (issuedEvent input' (s.clientRecord input' csr cert now) now))
  | appendRecord (q serial action performedBy metadata record now) {fallback reason : String}
      (hfallback : fallback.toList.length ≤ 255) (hreason : trimSpace reason = "" → reason = "") :
      Asks s q (.appendAudit (recordEvent (trimSpace serial) action
        (defaultActor performedBy fallback) reason metadata record now))
  | appendExternal (event) :
      Asks s (.appendExternalAudit event) (.appendAudit (withAction event))
  | appendExternalAt (event now) :
      Asks s (.appendExternalAudit event) (.appendAudit (atTime (withAction event) now))

namespace Service

-- texts are not computed below
attribute [local irreducible] trimSpace toLower

variable (s : Service)

theorem issues_storeIssuer {P : Stmt → Prop} {issuer : IssuerRecord}
    {certificate : CertificateRecord} (hissuer : P (.upsertIssuer issuer))
    (hcertificate : P (.upsertCertificate certificate)) (name : String) :
    (storeIssuer name issuer certificate).Issues P := by
  refine ⟨hissuer, fun r => ?_⟩
  rcases r with _ | ⟨⟨⟩⟩
  · trivial
  refine ⟨hcertificate, fun r => ?_⟩
  rcases r with _ | ⟨⟨⟩⟩ <;> trivial

theorem issues_ensureIssuerChain (q : Request) (now : Time) :
    (s.ensureIssuerChain now).Issues (s.Asks q) := by
  refine Program.Issues.bind ?_ fun r => ?_
  · unfold storeRootCA
    split
    · trivial
    · next root hroot =>
      exact issues_storeIssuer (.upsertIssuer q _) (.upsertRootCA q now hroot) _
  · rcases r with _ | ⟨⟨⟩⟩
    · trivial
    · exact issues_storeIssuer (.upsertIssuer q _) (.upsertClientCA q now) _

theorem issues_appendAudit {P : Stmt → Prop} {e : TimedEvent} (h : P (.appendAudit e)) :
    (appendAudit e).Issues P := ⟨h, fun _ => trivial⟩

theorem issues_registerUser (input : RegisterInput) :
    (s.registerUser input).Issues (s.Asks (.registerUser input)) := by
  unfold registerUser
  split
  · trivial
  next input' csr hinput =>
  refine ⟨.now _, fun now => ?_⟩
  split
  · trivial
  refine ⟨.sign _ _, fun cert => ?_⟩
  cases cert with
  | error err => trivial
  | ok cert =>
    refine (s.issues_ensureIssuerChain _ now).bind fun r => ?_
    rcases r with _ | ⟨⟨⟩⟩
    · trivial
    refine ⟨.createCertificate hinput cert now, fun r => ?_⟩
    rcases r with _ | ⟨⟨⟩⟩
    · trivial
    exact (issues_appendAudit (.appendIssued hinput cert now)).bind fun _ => trivial

theorem issues_verifyCertificate (q : Request) (input : VerifyInput) :
    (verifyCertificate input).Issues (s.Asks q) := by
  refine Program.Issues.ite (fun _ => trivial) fun _ => ⟨.getCertificate q _, fun r => ?_⟩
  cases r with
  | error err => trivial
  | ok record =>
    refine Program.Issues.ite (fun _ => trivial) fun _ => ?_
    refine ⟨.now q, fun now => ⟨.now q, fun now' => ?_⟩⟩
    exact (issues_appendAudit (.appendRecord q _ _ _ _ _ now'
      (show "system:unknown".toList.length ≤ 255 by decide) fun _ => rfl)).bind fun _ => trivial

theorem issues_getCertificateDetail (q : Request) (serial requestID performedBy : String) :
    (getCertificateDetail serial requestID performedBy).Issues (s.Asks q) := by
  refine Program.Issues.ite (fun _ => trivial) fun _ => ⟨.getCertificate q _, fun r => ?_⟩
  cases r with
  | error err => trivial
  | ok record =>
    refine ⟨.now q, fun now => ⟨.now q, fun now' => ?_⟩⟩
    exact (issues_appendAudit (.appendRecord q _ _ _ _ _ now'
      (show "admin-ca:unknown".toList.length ≤ 255 by decide) fun _ => rfl)).bind fun _ => trivial

theorem issues_revokeCertificate (serial reason requestID performedBy : String) :
    (revokeCertificate serial reason requestID performedBy).Issues
      (s.Asks (.revokeCertificate serial reason requestID performedBy)) := by
  refine Program.Issues.ite (fun _ => trivial) fun _ => ?_
  refine Program.Issues.ite (fun _ => trivial) fun hreason => ?_
  refine ⟨.getCertificate _ _, fun r => ?_⟩
  cases r with
  | error err => trivial
  | ok existing =>
    refine Program.Issues.ite (fun _ => trivial) fun _ => ?_
    refine ⟨.now _, fun now => ⟨.revokeCertificate _ _ _ _ now hreason, fun r => ?_⟩⟩
    cases r with
    | error err => trivial
    | ok record =>
      -- a trimmed reason is not blank
      have hkept : trimSpace (trimSpace reason) = "" → trimSpace reason = "" := fun hblank =>
        absurd ((trimSpace_trimSpace reason).symm.trans hblank) hreason
      exact (issues_appendAudit (.appendRecord _ _ _ _ _ _ now
        (show "admin-ca:unknown".toList.length ≤ 255 by decide) hkept)).bind fun _ => trivial

theorem issues_resolveAll (q : Request) (records : List CertificateRecord) :
    (resolveAll records).Issues (s.Asks q) := by
  induction records with
  | nil => trivial
  | cons record records ih => exact ⟨.now q, fun now => ih.bind fun _ => trivial⟩

theorem issues_listCertificates (q : Request) (filter : ListFilter) :
    (listCertificates filter).Issues (s.Asks q) := by
  refine ⟨.listCertificates q _, fun r => ?_⟩
  cases r with
  | error err => trivial
  | ok page => exact (s.issues_resolveAll q page.1).bind fun _ => trivial

theorem issues_listAuditEvents (q : Request) (filter : AuditFilter) :
    (listAuditEvents filter).Issues (s.Asks q) := by
  refine Program.Issues.ite (fun _ => trivial) fun _ => ?_
  exact Program.Issues.ite (fun _ => trivial) fun _ => ⟨.listAudit q _, fun _ => trivial⟩

theorem issues_appendExternalAudit (event : TimedEvent) :
    (appendExternalAudit event).Issues (s.Asks (.appendExternalAudit event)) := by
  refine Program.Issues.ite (fun _ => trivial) fun _ => ?_
  refine Program.Issues.ite (fun _ => trivial) fun _ => ?_
  refine Program.Issues.ite (fun _ => ?_) fun _ => ?_
  · exact ⟨.now _, fun now => ⟨.appendExternalAt event now, fun _ => trivial⟩⟩
  · exact ⟨.appendExternal event, fun _ => trivial⟩

/-- **A call issues no other statements.** -/
theorem asks (q : Request) : (s.program q).Issues (s.Asks q) := by
  cases q with
  | initializeIssuerChain =>
    exact Program.Issues.bind ⟨.now _, fun now => s.issues_ensureIssuerChain _ now⟩
      fun _ => trivial
  | registerUser input => exact (s.issues_registerUser input).bind fun _ => trivial
  | verifyCertificate input => exact (s.issues_verifyCertificate _ input).bind fun _ => trivial
  | getCertificate serial => exact (s.issues_verifyCertificate _ _).bind fun _ => trivial
  | checkRevocation serial => exact (s.issues_verifyCertificate _ _).bind fun _ => trivial
  | listCertificates filter => exact (s.issues_listCertificates _ filter).bind fun _ => trivial
  | getCertificateDetail serial requestID performedBy =>
    exact (s.issues_getCertificateDetail _ serial requestID performedBy).bind fun _ => trivial
  | revokeCertificate serial reason requestID performedBy =>
    exact (s.issues_revokeCertificate serial reason requestID performedBy).bind fun _ => trivial
  | listAuditEvents filter => exact (s.issues_listAuditEvents _ filter).bind fun _ => trivial
  | appendExternalAudit event =>
    exact (s.issues_appendExternalAudit event).bind fun _ => trivial

end Service

end Ca
