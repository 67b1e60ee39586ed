import MiniBanking.Ca.StateFile

/-!
# The JSON store of the CA

Every operation that changes the store changes its memory first and then writes the state file:
to a temporary file, which replaces the state file at the end. If this fails, the operation
returns an error, but the memory has changed.

## Main definitions

* `Store`: the memory and the file
* `Store.persistLocked`: the file is written
* `Memory.upsertIssuer`, `Memory.upsertCertificate`, `Memory.createCertificate`,
  `Memory.revokeCertificate`, `Memory.appendAudit`: the changes of the memory
* `Store.perform`: an operation on the store
* `Store.InSync`: memory and file describe the same state
* `Store.AllOrNothing`: in a run, an operation that returns an error changes nothing

## Main results

* `Mutation.apply_error_iff`: what the operations refuse
* `Store.perform_iff`: when an operation changes all or nothing
* `all_or_nothing_iff`: when all operations of a run do
-/

namespace Ca

open Go

/-! ## Writing the file -/

/-- The steps of `persistLocked` that can fail. -/
inductive PersistStep where
  | mkdirAll
  | createTemp
  | write
  | close
  | rename
  deriving DecidableEq

def PersistStep.text : PersistStep → String
  | mkdirAll => "create CA store directory"
  | createTemp => "create CA store temp file"
  | write => "write CA store temp file"
  | close => "close CA store temp file"
  | rename => "replace CA store state"

/-- A persistent store: what it has in memory, and its file if there is one. -/
structure Store where
  memory : Memory := {}
  file : Option Json := none

/-- `persistLocked`: the state is written to a temporary file, which then replaces the file. -/
def Store.persistLocked (s : Store) (failure : Option PersistStep) : Except Error Unit × Store :=
  match s.memory.marshalJSON with
  | none => (.error (.external "encode CA store state"), s)
  | some v =>
    match failure with
    | some step => (.error (.external step.text), s)
    | none => (.ok (), { s with file := some v })

/-! ## The changes of the memory -/

namespace Memory

variable (m : Memory)

/-- An issuer as it is kept. -/
def issuerToKeep (record : IssuerRecord) (now : Time) : IssuerRecord :=
  let createdAt := if record.createdAt.isZero then now else record.createdAt
  { record with
    createdAt :=
      match m.issuers.lookup record.issuerID with
      | some existing => if existing.createdAt.isZero then createdAt else existing.createdAt
      | none => createdAt
    updatedAt := if record.updatedAt.isZero then now else record.updatedAt
    status := if record.status = "" then issuerStatusActive else record.status }

def upsertIssuer (record : IssuerRecord) (now : Time) : Except Error Memory :=
  if trimSpace record.issuerID = "" then .error (wrap .invalidInput ["issuer_id is required"])
  else .ok { m with issuers := m.issuers.insert record.issuerID (m.issuerToKeep record now) }

/-- The certificate is revoked: it has a time of its revocation, or the status says so. -/
def isRevoked (record : CertificateRecord) : Bool :=
  record.revokedAt.isSome || record.status = certStatusRevoked

/-- The certificate is kept in place of another one: what is revoked stays revoked. -/
def replacing (existing record : CertificateRecord) : CertificateRecord :=
  let createdAt := if record.createdAt.isZero then existing.createdAt else record.createdAt
  if isRevoked existing then
    { record with
      createdAt
      status := certStatusRevoked
      revokedAt := existing.revokedAt
      revocationReason := existing.revocationReason }
  else { record with createdAt }

/-- The certificate with the values that were not given. -/
def withDefaults (record : CertificateRecord) (now : Time) : CertificateRecord :=
  { record with
    createdAt := if record.createdAt.isZero then now else record.createdAt
    updatedAt := if record.updatedAt.isZero then now else record.updatedAt
    status := if record.status = "" then certStatusActive else record.status }

/-- A certificate as it is kept. -/
def certificateToKeep (record : CertificateRecord) (now : Time) : CertificateRecord :=
  match m.certificates.lookup record.serialNumber with
  | some existing => withDefaults (replacing existing record) now
  | none => withDefaults record now

def upsertCertificate (record : CertificateRecord) (now : Time) : Except Error Memory :=
  if trimSpace record.serialNumber = "" then
    .error (wrap .invalidInput ["serial_number is required"])
  else .ok { m with
    certificates := m.certificates.insert record.serialNumber (m.certificateToKeep record now) }

/-- The certificate is one of the same owner that is active. -/
def blocks (record existing : CertificateRecord) (now : Time) : Bool :=
  record.certType = certTypeClient && existing.certType = certTypeClient &&
    existing.ownerID = record.ownerID && isActive existing now

def createCertificate (record : CertificateRecord) (now : Time) : Except Error Memory :=
  if record.serialNumber ∈ m.certificates then
    .error (wrap .activeCertificateExists ["serial_number=", record.serialNumber])
  else if m.certificates.toList.any fun (_, existing) => blocks record existing now then
    .error (wrap .activeCertificateExists ["owner_id=", record.ownerID])
  else .ok { m with certificates := m.certificates.insert record.serialNumber record }

/-- The certificate with its revocation. -/
def revoked (record : CertificateRecord) (reason : String) (revokedAt : Time) :
    CertificateRecord :=
  { record with
    status := certStatusRevoked
    revokedAt := some revokedAt
    revocationReason := reason
    updatedAt := revokedAt }

def revokeCertificate (serial reason : String) (revokedAt : Time) :
    Except Error (CertificateRecord × Memory) :=
  match m.certificates.lookup serial with
  | none => .error (wrap .certificateNotFound ["serial_number=", serial])
  | some record =>
    if isRevoked record then .error (wrap .alreadyRevoked ["serial_number=", serial])
    else if record.certType ≠ certTypeClient then
      .error (wrap .certificateNotRevokable
        ["cert_type=", record.certType, " serial_number=", serial])
    else
      let record := revoked record reason revokedAt
      .ok (record, { m with certificates := m.certificates.insert serial record })

/-- The hash that the next event is linked to. -/
def headHash : String := Audit.headHash (m.auditLog.getLast?.map (·.hash))

/-- An event as it is kept. -/
def eventToKeep (sha256 : List UInt8 → Vector UInt8 32) (event : TimedEvent) (now : Time) :
    StoredEvent where
  serialNumber := event.serialNumber
  certType := event.certType
  issuerID := event.issuerID
  action := event.action
  performedBy := event.performedBy
  reason := event.reason
  performedAt := if event.performedAt.isZero then now else event.performedAt
  metadata := ((event.metadata.getD []).map fun (key, value) => ⟨key, value⟩).toFinmap
  prevHash := m.headHash
  hash := auditChainHash sha256 m.headHash (auditHashFields event.toAuditEvent)

def appendAudit (sha256 : List UInt8 → Vector UInt8 32) (event : TimedEvent) (now : Time) :
    Memory :=
  { m with auditLog := m.auditLog ++ [m.eventToKeep sha256 event now] }

end Memory

/-! ## The operations -/

namespace Store

variable (s : Store)

/-- The memory is changed, unless the change is refused, and the file is written. -/
def change (changed : Except Error Memory) (failure : Option PersistStep) :
    Except Error Unit × Store :=
  match changed with
  | .error err => (.error err, s)
  | .ok memory => { s with memory }.persistLocked failure

def upsertIssuer (record : IssuerRecord) (now : Time) (failure : Option PersistStep) :
    Except Error Unit × Store :=
  s.change (s.memory.upsertIssuer record now) failure

def upsertCertificate (record : CertificateRecord) (now : Time) (failure : Option PersistStep) :
    Except Error Unit × Store :=
  s.change (s.memory.upsertCertificate record now) failure

def createCertificate (record : CertificateRecord) (now : Time) (failure : Option PersistStep) :
    Except Error Unit × Store :=
  s.change (s.memory.createCertificate record now) failure

def revokeCertificate (serial reason : String) (revokedAt : Time) (failure : Option PersistStep) :
    Except Error CertificateRecord × Store :=
  match s.memory.revokeCertificate serial reason revokedAt with
  | .error err => (.error err, s)
  | .ok (record, memory) =>
    let (result, s) := { s with memory }.persistLocked failure
    (result.map fun _ => record, s)

def appendAudit (sha256 : List UInt8 → Vector UInt8 32) (event : TimedEvent) (now : Time)
    (failure : Option PersistStep) : Except Error Unit × Store :=
  s.change (.ok (s.memory.appendAudit sha256 event now)) failure

end Store

/-- An operation that changes the store. -/
inductive Mutation where
  | upsertIssuer (record : IssuerRecord)
  | upsertCertificate (record : CertificateRecord)
  | createCertificate (record : CertificateRecord)
  | revokeCertificate (serial reason : String) (revokedAt : Time)
  | appendAudit (event : TimedEvent)

/-- An operation at a time, and the step at which it fails to write the file. -/
structure Operation where
  mutation : Mutation
  now : Time
  failure : Option PersistStep := none

section Perform

variable (sha256 : List UInt8 → Vector UInt8 32)

/-- What an operation makes of the memory, unless it refuses. -/
def Mutation.apply (m : Memory) (now : Time) : Mutation → Except Error Memory
  | .upsertIssuer record => m.upsertIssuer record now
  | .upsertCertificate record => m.upsertCertificate record now
  | .createCertificate record => m.createCertificate record now
  | .revokeCertificate serial reason revokedAt =>
    (m.revokeCertificate serial reason revokedAt).map Prod.snd
  | .appendAudit event => .ok (m.appendAudit sha256 event now)

/-- An operation on the store. -/
def Store.perform (s : Store) (op : Operation) : Except Error Unit × Store :=
  match op.mutation with
  | .upsertIssuer record => s.upsertIssuer record op.now op.failure
  | .upsertCertificate record => s.upsertCertificate record op.now op.failure
  | .createCertificate record => s.createCertificate record op.now op.failure
  | .revokeCertificate serial reason revokedAt =>
    let (result, s) := s.revokeCertificate serial reason revokedAt op.failure
    (result.map fun _ => (), s)
  | .appendAudit event => s.appendAudit sha256 event op.now op.failure

/-- Every operation is a change of the memory after which the file is written. -/
theorem Store.perform_eq (s : Store) (op : Operation) :
    s.perform sha256 op = s.change (op.mutation.apply sha256 s.memory op.now) op.failure := by
  obtain ⟨mutation, now, failure⟩ := op
  cases mutation with
  | upsertIssuer record => rfl
  | upsertCertificate record => rfl
  | createCertificate record => rfl
  | revokeCertificate serial reason revokedAt =>
    simp only [perform, revokeCertificate, Mutation.apply]
    cases s.memory.revokeCertificate serial reason revokedAt with
    | error err => rfl
    | ok changed =>
      obtain ⟨record, memory⟩ := changed
      show _ = { s with memory }.persistLocked failure
      cases hresult : { s with memory }.persistLocked failure with
      | mk result s' => cases result <;> simp [hresult] <;> rfl
  | appendAudit event => rfl

end Perform

/-! ## When operations change all or nothing -/

/-- Memory and file describe the same state. There is no file of the empty state a store begins
with. -/
def Store.InSync (s : Store) : Prop :=
  match s.file with
  | none => s.memory = {}
  | some v => s.memory.marshalJSON = some v

/-- The operation is refused before it changes the memory. -/
def Mutation.Refused (m : Memory) (now : Time) : Mutation → Prop
  | .upsertIssuer record => trimSpace record.issuerID = ""
  | .upsertCertificate record => trimSpace record.serialNumber = ""
  | .createCertificate record =>
    record.serialNumber ∈ m.certificates ∨
      ∃ serial existing, m.certificates.lookup serial = some existing ∧
        Memory.blocks record existing now = true
  | .revokeCertificate serial _ _ =>
    ∀ record, m.certificates.lookup serial = some record →
      Memory.isRevoked record = true ∨ record.certType ≠ certTypeClient
  | .appendAudit _ => False

/-- The memory already has what the operation would store. -/
def Mutation.Held (m : Memory) (now : Time) : Mutation → Prop
  | .upsertIssuer record =>
    m.issuers.lookup record.issuerID = some (m.issuerToKeep record now)
  | .upsertCertificate record =>
    m.certificates.lookup record.serialNumber = some (m.certificateToKeep record now)
  | _ => False

/-- The times of what the operation would store. -/
def Mutation.times (m : Memory) (now : Time) : Mutation → List Time
  | .upsertIssuer record => (m.issuerToKeep record now).times
  | .upsertCertificate record => (m.certificateToKeep record now).times
  | .createCertificate record => record.times
  | .revokeCertificate _ _ revokedAt => [revokedAt]
  | .appendAudit event => [if event.performedAt.isZero then now else event.performedAt]

/-- The operation is refused, or stores what the memory already has, or nothing keeps the file
from being written. -/
def Operation.Meets (op : Operation) (m : Memory) : Prop :=
  op.mutation.Refused m op.now ∨ op.mutation.Held m op.now ∨
    op.failure = none ∧ ∀ t ∈ op.mutation.times m op.now, t.encodable = true

section Meets

variable {sha256 : List UInt8 → Vector UInt8 32} {m m' : Memory} {now : Time} {op : Mutation}

/-- **What the operations refuse.** -/
theorem Mutation.apply_error_iff :
    (∃ err, op.apply sha256 m now = .error err) ↔ op.Refused m now := by
  cases op with
  | upsertIssuer record =>
    simp only [apply, Memory.upsertIssuer, Refused]
    split <;> simp_all
  | upsertCertificate record =>
    simp only [apply, Memory.upsertCertificate, Refused]
    split <;> simp_all
  | createCertificate record =>
    simp only [apply, Memory.createCertificate, Refused]
    rw [← Map.any_toList (p := fun e => Memory.blocks record e.2 now)]
    split
    · next h => simp [h]
    · next h =>
      split
      · next hblocks => simp [hblocks]
      · next hblocks => simpa [h] using hblocks
  | revokeCertificate serial reason revokedAt =>
    simp only [apply, Memory.revokeCertificate, Refused]
    cases m.certificates.lookup serial with
    | none => simp [Except.map]
    | some record =>
      by_cases hrevoked : Memory.isRevoked record = true
      · simp [hrevoked, Except.map]
      · by_cases htype : record.certType = certTypeClient
        · simp [hrevoked, htype, Except.map]
        · simp [hrevoked, htype, Except.map]
  | appendAudit event => simp [apply, Refused]

/-- What is inserted again changes nothing. -/
theorem insert_of_lookup {A : Type} {m : Map A} {name : String} {a : A}
    (h : m.lookup name = some a) : m.insert name a = m := by
  refine Finmap.ext_lookup fun name' => ?_
  by_cases heq : name' = name
  · rw [heq, Finmap.lookup_insert, h]
  · rw [Finmap.lookup_insert_of_ne _ heq]

/-- **An operation changes the memory** unless the memory already has what it stores. -/
theorem Mutation.apply_eq_iff (h : op.apply sha256 m now = .ok m') :
    m' = m ↔ op.Held m now := by
  cases op with
  | upsertIssuer record =>
    simp only [apply, Memory.upsertIssuer] at h
    split at h
    · cases h
    cases h
    constructor
    · intro heq
      have hlookup := congrArg (fun m : Memory => m.issuers.lookup record.issuerID) heq
      rw [Finmap.lookup_insert] at hlookup
      exact hlookup.symm
    · intro hheld
      rw [insert_of_lookup hheld]
  | upsertCertificate record =>
    simp only [apply, Memory.upsertCertificate] at h
    split at h
    · cases h
    cases h
    constructor
    · intro heq
      have hlookup := congrArg (fun m : Memory => m.certificates.lookup record.serialNumber) heq
      rw [Finmap.lookup_insert] at hlookup
      exact hlookup.symm
    · intro hheld
      rw [insert_of_lookup hheld]
  | createCertificate record =>
    simp only [apply, Memory.createCertificate] at h
    split at h
    · cases h
    next hnew =>
    split at h
    · cases h
    cases h
    refine iff_of_false (fun heq => hnew ?_) id
    have hmem := congrArg (fun m : Memory => record.serialNumber ∈ m.certificates) heq
    simp only [Finmap.mem_insert, true_or, eq_iff_iff, true_iff] at hmem
    exact hmem
  | revokeCertificate serial reason revokedAt =>
    simp only [apply, Memory.revokeCertificate] at h
    split at h
    · cases h
    next record hrecord =>
    split at h
    · cases h
    next hrevoked =>
    split at h
    · cases h
    cases h
    refine iff_of_false (fun heq => hrevoked ?_) id
    have hlookup := congrArg (fun m : Memory => m.certificates.lookup serial) heq
    dsimp only at hlookup
    rw [Finmap.lookup_insert, hrecord] at hlookup
    rw [← Option.some.inj hlookup]
    rfl
  | appendAudit event =>
    cases h
    refine iff_of_false (fun heq => ?_) id
    have hlength := congrArg (fun m : Memory => m.auditLog.length) heq
    simp [Memory.appendAudit] at hlength

/-- The times of a state with another issuer are old ones or those of the issuer. -/
theorem Memory.mem_times_insert_issuer {name : String} {r : IssuerRecord} {t : Time}
    (h : t ∈ { m with issuers := m.issuers.insert name r }.times) : t ∈ r.times ∨ t ∈ m.times := by
  rcases Memory.mem_times h with ⟨name', r', hr', ht⟩ | ⟨name', r', hr', ht⟩ | ⟨e, he, rfl⟩
  · by_cases heq : name' = name
    · subst heq
      rw [Finmap.lookup_insert] at hr'
      rw [Option.some.inj hr']
      exact .inl ht
    · rw [Finmap.lookup_insert_of_ne _ heq] at hr'
      exact .inr (m.times_issuer hr' ht)
  · exact .inr (m.times_certificate hr' ht)
  · exact .inr (m.times_event he)

/-- The times of a state with another certificate are old ones or those of the certificate. -/
theorem Memory.mem_times_insert_certificate {name : String} {r : CertificateRecord} {t : Time}
    (h : t ∈ { m with certificates := m.certificates.insert name r }.times) :
    t ∈ r.times ∨ t ∈ m.times := by
  rcases Memory.mem_times h with ⟨name', r', hr', ht⟩ | ⟨name', r', hr', ht⟩ | ⟨e, he, rfl⟩
  · exact .inr (m.times_issuer hr' ht)
  · by_cases heq : name' = name
    · subst heq
      rw [Finmap.lookup_insert] at hr'
      rw [Option.some.inj hr']
      exact .inl ht
    · rw [Finmap.lookup_insert_of_ne _ heq] at hr'
      exact .inr (m.times_certificate hr' ht)
  · exact .inr (m.times_event he)

/-- **The state that an operation leaves can be written** if what it stores can. -/
theorem Mutation.encodable_iff (h : op.apply sha256 m now = .ok m')
    (hm : ∀ t ∈ m.times, t.encodable = true) :
    (∀ t ∈ m'.times, t.encodable = true) ↔ ∀ t ∈ op.times m now, t.encodable = true := by
  cases op with
  | upsertIssuer record =>
    simp only [apply, Memory.upsertIssuer] at h
    split at h
    · cases h
    cases h
    constructor
    · intro hall t ht
      exact hall t (Memory.times_issuer (Finmap.lookup_insert _) ht)
    · intro hall t ht
      rcases Memory.mem_times_insert_issuer ht with ht | ht
      · exact hall t ht
      · exact hm t ht
  | upsertCertificate record =>
    simp only [apply, Memory.upsertCertificate] at h
    split at h
    · cases h
    cases h
    constructor
    · intro hall t ht
      exact hall t (Memory.times_certificate (Finmap.lookup_insert _) ht)
    · intro hall t ht
      rcases Memory.mem_times_insert_certificate ht with ht | ht
      · exact hall t ht
      · exact hm t ht
  | createCertificate record =>
    simp only [apply, Memory.createCertificate] at h
    split at h
    · cases h
    split at h
    · cases h
    cases h
    constructor
    · intro hall t ht
      exact hall t (Memory.times_certificate (Finmap.lookup_insert _) ht)
    · intro hall t ht
      rcases Memory.mem_times_insert_certificate ht with ht | ht
      · exact hall t ht
      · exact hm t ht
  | revokeCertificate serial reason revokedAt =>
    simp only [apply, Memory.revokeCertificate] at h
    split at h
    · cases h
    next record hrecord =>
    split at h
    · cases h
    split at h
    · cases h
    cases h
    constructor
    · intro hall t ht
      rw [List.mem_singleton.mp ht]
      exact hall revokedAt (Memory.times_certificate (Finmap.lookup_insert _)
        (by simp [CertificateRecord.times, Memory.revoked]))
    · intro hall t ht
      have hat : revokedAt.encodable = true := hall revokedAt (List.mem_singleton_self _)
      rcases Memory.mem_times_insert_certificate ht with ht | ht
      · -- the other times are those that the record had
        simp only [CertificateRecord.times, Memory.revoked, Option.toList_some, List.cons_append,
          List.nil_append, List.mem_cons, List.not_mem_nil, or_false] at ht
        have hold : ∀ t ∈ record.times, t.encodable = true :=
          fun t ht => hm t (Memory.times_certificate hrecord ht)
        rcases ht with rfl | rfl | rfl | rfl | rfl | rfl
        · exact hold _ (by simp [CertificateRecord.times])
        · exact hold _ (by simp [CertificateRecord.times])
        · exact hold _ (by simp [CertificateRecord.times])
        · exact hold _ (by simp [CertificateRecord.times])
        · exact hat
        · exact hat
      · exact hm t ht
  | appendAudit event =>
    cases h
    have hnew : ∀ t, t ∈ (m.appendAudit sha256 event now).times ↔ t ∈ m.times ∨
        t = if event.performedAt.isZero then now else event.performedAt := by
      intro t
      simp only [Memory.times, Memory.appendAudit, Memory.eventToKeep, List.map_append,
        List.map_cons, List.map_nil, List.mem_append, List.mem_singleton, or_assoc]
    constructor
    · intro hall t ht
      rw [List.mem_singleton.mp ht]
      exact hall _ ((hnew _).mpr (.inr rfl))
    · intro hall t ht
      rcases (hnew t).mp ht with ht | rfl
      · exact hm t ht
      · exact hall _ (List.mem_singleton_self _)

end Meets

theorem Memory.marshalJSON_isSome {m : Memory} :
    (∃ v, m.marshalJSON = some v) ↔ ∀ t ∈ m.times, t.encodable = true := by
  unfold Memory.marshalJSON
  rw [← List.all_eq_true]
  split
  · next h => exact iff_of_true ⟨_, rfl⟩ h
  · next h => exact iff_of_false (fun ⟨_, hv⟩ => by cases hv) h

/-- What is in a file can be written. -/
theorem Store.InSync.encodable {s : Store} (h : s.InSync) :
    ∀ t ∈ s.memory.times, t.encodable = true := by
  rw [InSync] at h
  split at h
  · rw [h]
    exact fun t ht => absurd ht (by simp [Memory.times, Map.toList])
  · exact Memory.marshalJSON_isSome.mp ⟨_, h⟩

/-- The operation changes nothing if it returns an error, and leaves memory and file in sync. -/
structure Store.AtomicStep (sha256 : List UInt8 → Vector UInt8 32) (s : Store) (op : Operation) :
    Prop where
  unchanged : ∀ err, (s.perform sha256 op).1 = .error err → (s.perform sha256 op).2 = s
  inSync : (s.perform sha256 op).2.InSync

/-- **When an operation changes all or nothing.** -/
theorem Store.perform_iff {sha256 : List UInt8 → Vector UInt8 32} {s : Store} (h : s.InSync)
    (op : Operation) : s.AtomicStep sha256 op ↔ op.Meets s.memory := by
  have hperform := s.perform_eq sha256 op
  cases happly : op.mutation.apply sha256 s.memory op.now with
  | error err =>
    rw [happly] at hperform
    refine iff_of_true ⟨fun _ _ => ?_, ?_⟩ (.inl (Mutation.apply_error_iff.mp ⟨err, happly⟩))
    · rw [hperform]
      rfl
    · rw [hperform]
      exact h
  | ok m' =>
    have hnot : ¬ op.mutation.Refused s.memory op.now := by
      rw [← @Mutation.apply_error_iff sha256 _ _ _, happly]
      rintro ⟨err, herr⟩
      cases herr
    have hheld := Mutation.apply_eq_iff happly
    have hencodable := Mutation.encodable_iff happly h.encodable
    rw [happly] at hperform
    simp only [Store.change, Store.persistLocked] at hperform
    -- an error leaves the memory changed, unless the change was none
    have herror : ∀ err, s.perform sha256 op = (.error err, { s with memory := m' }) →
        (s.AtomicStep sha256 op ↔ op.mutation.Held s.memory op.now) := by
      intro err heq
      rw [← hheld]
      constructor
      · intro hatomic
        have hsame := hatomic.unchanged err (by rw [heq])
        rw [heq] at hsame
        exact congrArg Store.memory hsame
      · intro hsame
        have hstate : (s.perform sha256 op).2 = s := by
          rw [heq, hsame]
        exact ⟨fun _ _ => hstate, by rw [hstate]; exact h⟩
    cases hmarshal : m'.marshalJSON with
    | none =>
      simp only [hmarshal] at hperform
      rw [herror _ hperform]
      have hbad : ¬ ∀ t ∈ op.mutation.times s.memory op.now, t.encodable = true := by
        rw [← hencodable, ← Memory.marshalJSON_isSome, hmarshal]
        rintro ⟨v, hv⟩
        cases hv
      constructor
      · exact fun hheld => .inr (.inl hheld)
      · rintro (hrefused | hheld | ⟨-, htimes⟩)
        · exact absurd hrefused hnot
        · exact hheld
        · exact absurd htimes hbad
    | some v =>
      simp only [hmarshal] at hperform
      have hgood : ∀ t ∈ op.mutation.times s.memory op.now, t.encodable = true := by
        rw [← hencodable, ← Memory.marshalJSON_isSome]
        exact ⟨v, hmarshal⟩
      cases hfailure : op.failure with
      | none =>
        simp only [hfailure] at hperform
        refine iff_of_true ⟨fun err herr => ?_, ?_⟩ (.inr (.inr ⟨hfailure, hgood⟩))
        · rw [hperform] at herr
          cases herr
        · rw [hperform]
          exact hmarshal
      | some step =>
        simp only [hfailure] at hperform
        rw [herror _ hperform]
        constructor
        · exact fun hheld => .inr (.inl hheld)
        · rintro (hrefused | hheld | ⟨hnone, -⟩)
          · exact absurd hrefused hnot
          · exact hheld
          · rw [hfailure] at hnone
            cases hnone

/-! ## Runs -/

section Runs

variable (sha256 : List UInt8 → Vector UInt8 32)

/-- In a run, every operation that returns an error changes nothing, and memory and file describe
the same state after every operation. -/
def Store.AllOrNothing : List Operation → Store → Prop
  | [], _ => True
  | op :: ops, s => s.AtomicStep sha256 op ∧ AllOrNothing ops (s.perform sha256 op).2

/-- In a run, every operation meets the condition. -/
def Store.AllMeet : List Operation → Store → Prop
  | [], _ => True
  | op :: ops, s => op.Meets s.memory ∧ AllMeet ops (s.perform sha256 op).2

end Runs

/-- **When all operations of a run change all or nothing**: exactly if each of them is refused,
stores what the memory already has, or can write the file. -/
theorem all_or_nothing_iff (sha256 : List UInt8 → Vector UInt8 32) (ops : List Operation)
    (s : Store) (h : s.InSync) : s.AllOrNothing sha256 ops ↔ s.AllMeet sha256 ops := by
  induction ops generalizing s with
  | nil => exact Iff.rfl
  | cons op ops ih =>
    simp only [Store.AllOrNothing, Store.AllMeet]
    constructor
    · rintro ⟨hatomic, hrest⟩
      exact ⟨(Store.perform_iff h op).mp hatomic, (ih _ hatomic.inSync).mp hrest⟩
    · rintro ⟨hmeets, hrest⟩
      have hatomic : s.AtomicStep sha256 op := (Store.perform_iff h op).mpr hmeets
      exact ⟨hatomic, (ih _ hatomic.inSync).mpr hrest⟩

/-- A client certificate of Alice. -/
def sampleRecord (serialNumber : String) : CertificateRecord where
  serialNumber := serialNumber
  certType := certTypeClient
  ownerID := "alice"
  subjectCN := "Alice"
  subjectEmail := "alice@bank.vn"
  notAfter := Time.unix 2000
  status := certStatusActive

/-- The certificate of Alice is created at a time. -/
def sampleCreate (serialNumber : String) (failure : Option PersistStep) : Operation where
  mutation := .createCertificate (sampleRecord serialNumber)
  now := Time.unix 1000
  failure := failure

theorem creates_all_or_nothing :
    ({} : Store).AllOrNothing sampleLibrary.sha256
      [sampleCreate "01" none, sampleCreate "02" none] := by
  refine (all_or_nothing_iff sampleLibrary.sha256 _ {} rfl).mpr ⟨.inr (.inr ⟨rfl, ?_⟩), .inl ?_,
    trivial⟩
  · decide +kernel
  · -- the second certificate is refused, as Alice has the first one
    exact .inr ⟨"01", sampleRecord "01", by decide +kernel, by decide +kernel⟩

/-- A certificate that could not be written blocks its owner, and there is no file. -/
theorem failed_create_blocks_owner :
    ¬ ({} : Store).AllOrNothing sampleLibrary.sha256 [sampleCreate "01" (some .rename)] ∧
      (({} : Store).perform sampleLibrary.sha256 (sampleCreate "01" (some .rename))).1 =
        .error (.external "replace CA store state") ∧
      (({} : Store).perform sampleLibrary.sha256 (sampleCreate "01" (some .rename))).2.file =
        none ∧
      ((({} : Store).perform sampleLibrary.sha256 (sampleCreate "01" (some .rename))).2.perform
        sampleLibrary.sha256 (sampleCreate "02" none)).1 =
          .error (wrap .activeCertificateExists ["owner_id=", "alice"]) := by
  have herror : (({} : Store).perform sampleLibrary.sha256 (sampleCreate "01" (some .rename))).1 =
      .error (.external "replace CA store state") := by decide +kernel
  refine ⟨?_, herror, ?_, by decide +kernel⟩
  · rintro ⟨hatomic, -⟩
    have hsame := hatomic.unchanged _ herror
    have hlookup : (({} : Store).perform sampleLibrary.sha256
        (sampleCreate "01" (some .rename))).2.memory.certificates.lookup "01" =
          some (sampleRecord "01") := by decide +kernel
    rw [hsame] at hlookup
    cases hlookup
  · decide +kernel

end Ca
