import MiniBanking.Ca.Restart
import MiniBanking.Concurrency.Past

/-!
# A revocation is final

The JSON store replaces whole records, and it reads them from its file after a restart. None of
this takes a revocation back: once a certificate is revoked, the store has it as revoked at the
same time and for the same reason, whatever the CA does and however often it is restarted, and
every call that is started later is told so.

## Main definitions

* `Memory.RevokedAt`, `Store.RevokedAt`: a certificate is revoked in the memory, and in the file
* `Life`: the CA works, and is restarted from its file
* `Reports`: the result of a call does not hide a revocation

## Main results

* `Memory.RevokedAt.apply`: no change of the memory takes a revocation back
* `Store.RevokedAt.reopened`: neither does a restart
* `revocation_permanent`: a certificate whose revocation succeeded is reported as revoked ever after
-/

namespace Ca

open Concurrency Go

/-! ## Records -/

/-- The memory has the certificate as revoked, since a time and for a reason. -/
def Memory.RevokedAt (m : Memory) (serial : String) (revokedAt : Time) (reason : String) : Prop :=
  ∃ r, m.certificates.lookup serial = some r ∧ r.RevokedAt revokedAt reason

/-- Every certificate is stored under its own serial number. -/
def Memory.Keyed (m : Memory) : Prop :=
  ∀ serial r, m.certificates.lookup serial = some r → r.serialNumber = serial

section Records

variable {m m' : Memory} {serial reason : String} {revokedAt : Time}

theorem Memory.RevokedAt.insert_of_ne (h : m.RevokedAt serial revokedAt reason) {serial' : String}
    (hne : serial ≠ serial') (r : CertificateRecord) :
    Memory.RevokedAt { m with certificates := m.certificates.insert serial' r } serial revokedAt
      reason := by
  obtain ⟨r', hr', hrevoked⟩ := h
  exact ⟨r', (Finmap.lookup_insert_of_ne _ hne).trans hr', hrevoked⟩

theorem Memory.Keyed.insert (h : m.Keyed) {serial' : String} {r : CertificateRecord}
    (hr : r.serialNumber = serial') :
    Memory.Keyed { m with certificates := m.certificates.insert serial' r } := by
  intro serial'' r' hr'
  by_cases heq : serial'' = serial'
  · subst heq
    rw [Finmap.lookup_insert] at hr'
    rw [← Option.some.inj hr', hr]
  · exact h _ _ ((Finmap.lookup_insert_of_ne _ heq).symm.trans hr')

theorem Memory.revoked_revokedAt (record : CertificateRecord) (reason : String) (revokedAt : Time) :
    (Memory.revoked record reason revokedAt).RevokedAt revokedAt reason := ⟨rfl, rfl, rfl⟩

/-- What is kept in place of a revoked certificate is revoked. -/
theorem CertificateRecord.RevokedAt.replacing {existing : CertificateRecord}
    (h : existing.RevokedAt revokedAt reason) (record : CertificateRecord) (now : Time) :
    (Memory.withDefaults (Memory.replacing existing record) now).RevokedAt revokedAt reason := by
  have hrevoked : Memory.isRevoked existing = true := by simp [Memory.isRevoked, h.status]
  have hne : certStatusRevoked ≠ "" := by decide
  constructor
  · simp [Memory.withDefaults, Memory.replacing, hrevoked, hne]
  · simpa [Memory.withDefaults, Memory.replacing, hrevoked] using h.since
  · simpa [Memory.withDefaults, Memory.replacing, hrevoked] using h.because

/-- **No change takes a revocation back.** -/
theorem Memory.RevokedAt.apply (h : m.RevokedAt serial revokedAt reason)
    {sha256 : List UInt8 → Vector UInt8 32} {now : Time} {op : Mutation}
    (happly : op.apply sha256 m now = .ok m') : m'.RevokedAt serial revokedAt reason := by
  obtain ⟨r, hr, hrevoked⟩ := h
  cases op with
  | upsertIssuer record =>
    simp only [Mutation.apply, Memory.upsertIssuer] at happly
    split at happly
    · cases happly
    cases happly
    exact ⟨r, hr, hrevoked⟩
  | upsertCertificate record =>
    simp only [Mutation.apply, Memory.upsertCertificate] at happly
    split at happly
    · cases happly
    cases happly
    by_cases heq : serial = record.serialNumber
    · -- the record replaces the revoked one
      subst heq
      refine ⟨_, Finmap.lookup_insert _, ?_⟩
      rw [Memory.certificateToKeep, hr]
      exact hrevoked.replacing record now
    · exact Memory.RevokedAt.insert_of_ne ⟨r, hr, hrevoked⟩ heq _
  | createCertificate record =>
    simp only [Mutation.apply, Memory.createCertificate] at happly
    split at happly
    · cases happly
    next hnew =>
    split at happly
    · cases happly
    cases happly
    have hne : serial ≠ record.serialNumber := by
      rintro rfl
      exact hnew (Finmap.mem_of_lookup_eq_some hr)
    exact Memory.RevokedAt.insert_of_ne ⟨r, hr, hrevoked⟩ hne _
  | revokeCertificate serial' reason' revokedAt' =>
    simp only [Mutation.apply, Memory.revokeCertificate] at happly
    split at happly
    · cases happly
    next record hrecord =>
    split at happly
    · cases happly
    next hnot =>
    split at happly
    · cases happly
    cases happly
    have hne : serial ≠ serial' := by
      rintro rfl
      obtain rfl := Option.some.inj (hr.symm.trans hrecord)
      exact hnot (by simp [Memory.isRevoked, hrevoked.status])
    exact Memory.RevokedAt.insert_of_ne ⟨r, hr, hrevoked⟩ hne _
  | appendAudit event =>
    cases happly
    exact ⟨r, hr, hrevoked⟩

theorem Memory.Keyed.apply (h : m.Keyed) {sha256 : List UInt8 → Vector UInt8 32} {now : Time}
    {op : Mutation} (happly : op.apply sha256 m now = .ok m') : m'.Keyed := by
  cases op with
  | upsertIssuer record =>
    simp only [Mutation.apply, Memory.upsertIssuer] at happly
    split at happly
    · cases happly
    cases happly
    exact h
  | upsertCertificate record =>
    simp only [Mutation.apply, Memory.upsertCertificate] at happly
    split at happly
    · cases happly
    cases happly
    exact h.insert (m.certificateToKeep_eq record now).1
  | createCertificate record =>
    simp only [Mutation.apply, Memory.createCertificate] at happly
    split at happly
    · cases happly
    split at happly
    · cases happly
    cases happly
    exact h.insert rfl
  | revokeCertificate serial' reason' revokedAt' =>
    simp only [Mutation.apply, Memory.revokeCertificate] at happly
    split at happly
    · cases happly
    next record hrecord =>
    split at happly
    · cases happly
    split at happly
    · cases happly
    cases happly
    have hserial : record.serialNumber = serial' := h _ _ hrecord
    exact h.insert hserial
  | appendAudit event =>
    cases happly
    exact h

/-! ## Restarts -/

/-- The memory with the type of a certificate that had none. -/
def Memory.typed (m : Memory) (serial : String) (record : CertificateRecord) : Memory :=
  if record.certType = "" then
    { m with
      certificates := m.certificates.insert serial { record with certType := certTypeClient } }
  else m

/-- A certificate that passed the checks is stored under its serial number, and gets a type. -/
theorem validateEntries_cons {now : Time} {serial' : String} {record : CertificateRecord}
    {entries : List (String × CertificateRecord)} {active : List (String × String)}
    (h : validateEntries now ((serial', record) :: entries) active m = .ok m') :
    record.serialNumber = serial' ∧
      ∃ active', validateEntries now entries active' (m.typed serial' record) = .ok m' := by
  rw [validateEntries] at h
  split at h
  · cases h
  next hserial =>
  simp only [Bool.or_eq_true, decide_eq_true_eq, not_or, not_not] at hserial
  refine ⟨hserial.2.symm, ?_⟩
  have htyped : (if record.certType = "" then
      { m with
        certificates := m.certificates.insert serial'
          { record with certType := if record.certType = "" then certTypeClient
            else record.certType } }
      else m) = m.typed serial' record := by
    unfold Memory.typed
    split
    · rfl
    · rfl
  simp only [htyped] at h
  generalize (if record.certType = "" then certTypeClient else record.certType) = certType at h
  split at h
  · cases h
  split at h
  · cases h
  split at h
  · split at h
    · cases h
    · exact ⟨_, h⟩
  · exact ⟨_, h⟩

/-- Every certificate that passed the checks is stored under its own serial number. -/
theorem validateEntries_keyed {now : Time} {entries : List (String × CertificateRecord)}
    {active : List (String × String)} (h : validateEntries now entries active m = .ok m')
    (hrest : ∀ serial r, m.certificates.lookup serial = some r →
      r.serialNumber = serial ∨ (serial, r) ∈ entries) : m'.Keyed := by
  induction entries generalizing active m with
  | nil =>
    cases h
    exact fun serial r hr => (hrest serial r hr).resolve_right (List.not_mem_nil)
  | cons entry entries ih =>
    obtain ⟨serial', record⟩ := entry
    obtain ⟨hserial, active', h⟩ := validateEntries_cons h
    refine ih h fun serial r hr => ?_
    have hold : ∀ r, m.certificates.lookup serial = some r →
        r.serialNumber = serial ∨ (serial, r) ∈ entries := by
      intro r hr
      rcases hrest serial r hr with hkey | hmem
      · exact .inl hkey
      rcases List.mem_cons.mp hmem with heq | hmem
      · obtain ⟨rfl, rfl⟩ := Prod.mk.inj heq
        exact .inl hserial
      · exact .inr hmem
    unfold Memory.typed at hr
    split at hr
    · by_cases heq : serial = serial'
      · subst heq
        rw [Finmap.lookup_insert] at hr
        obtain rfl := Option.some.inj hr
        exact .inl hserial
      · exact hold r ((Finmap.lookup_insert_of_ne _ heq).symm.trans hr)
    · exact hold r hr

/-- The checks take no revocation back. -/
theorem validateEntries_revokedAt {now : Time} {entries : List (String × CertificateRecord)}
    {active : List (String × String)} (h : validateEntries now entries active m = .ok m')
    (hm : m.RevokedAt serial revokedAt reason)
    (hrest : ∀ r, (serial, r) ∈ entries → r.RevokedAt revokedAt reason) :
    m'.RevokedAt serial revokedAt reason := by
  induction entries generalizing active m with
  | nil =>
    cases h
    exact hm
  | cons entry entries ih =>
    obtain ⟨serial', record⟩ := entry
    obtain ⟨-, active', h⟩ := validateEntries_cons h
    refine ih h ?_ fun r hr => hrest r (List.mem_cons_of_mem _ hr)
    unfold Memory.typed
    split
    · by_cases heq : serial = serial'
      · subst heq
        have hrecord := hrest record List.mem_cons_self
        exact ⟨_, Finmap.lookup_insert _, ⟨hrecord.status, hrecord.since, hrecord.because⟩⟩
      · exact hm.insert_of_ne heq _
    · exact hm

end Records

/-! ## The store -/

/-- The store has the certificate as revoked, in memory and in its file. -/
structure Store.RevokedAt (s : Store) (serial : String) (revokedAt : Time) (reason : String) :
    Prop where
  memory : s.memory.RevokedAt serial revokedAt reason
  file : ∃ v m, s.file = some v ∧ Memory.marshalJSON m = some v ∧
    m.RevokedAt serial revokedAt reason

section Store

variable {s s' : Store} {sha256 : List UInt8 → Vector UInt8 32} {serial reason : String}
  {revokedAt now : Time}

/-- Every change keeps the revocation, also if the file is not written. -/
theorem Store.RevokedAt.perform (h : s.RevokedAt serial revokedAt reason) (op : Operation) :
    (s.perform sha256 op).2.RevokedAt serial revokedAt reason := by
  rw [s.perform_eq]
  cases happly : op.mutation.apply sha256 s.memory op.now with
  | error err => exact h
  | ok m' =>
    have hm' := h.memory.apply happly
    simp only [change, persistLocked]
    split
    · exact ⟨hm', h.file⟩
    next v hv =>
    split
    · exact ⟨hm', h.file⟩
    · exact ⟨hm', v, m', rfl, hv, hm'⟩

theorem Store.RevokedAt.answer (h : s.RevokedAt serial revokedAt reason) (choice : StoreChoice)
    (st : Stmt) : (s.answer sha256 choice st).2.RevokedAt serial revokedAt reason := by
  rw [Store.answer_store]
  split
  · exact h
  · exact h.perform _

theorem Memory.Keyed.answer (h : s.memory.Keyed) (choice : StoreChoice) (st : Stmt) :
    (s.answer sha256 choice st).2.memory.Keyed := by
  rw [Store.answer_store]
  split
  · exact h
  next op _ =>
  rcases @Store.perform_memory sha256 s ⟨op, choice.now, choice.failure⟩ with ⟨-, hsame⟩ | happly
  · rw [hsame]
    exact h
  · exact h.apply happly

/-- **A restart keeps the revocation.** -/
theorem Store.RevokedAt.reopened (h : s.RevokedAt serial revokedAt reason)
    (hopen : newPersistentStore s.file now = .ok s') : s'.RevokedAt serial revokedAt reason := by
  obtain ⟨v, m, hfile, hmarshal, hrevoked⟩ := h.file
  rw [hfile] at hopen
  simp only [newPersistentStore, Memory.unmarshalJSON_marshalJSON hmarshal] at hopen
  cases hload : validateLoadedState m now with
  | error err =>
    rw [hload] at hopen
    cases hopen
  | ok memory =>
    rw [hload] at hopen
    cases hopen
    refine ⟨validateEntries_revokedAt hload hrevoked fun r hr => ?_, v, m, rfl, hmarshal, hrevoked⟩
    obtain ⟨r', hr', hrevoked'⟩ := hrevoked
    obtain rfl := Option.some.inj (hr'.symm.trans (Map.mem_toList.mp hr))
    exact hrevoked'

theorem Memory.Keyed.opened {file : Option Json} (hopen : newPersistentStore file now = .ok s) :
    s.memory.Keyed := by
  unfold newPersistentStore at hopen
  split at hopen
  · cases hopen
    exact fun serial r hr => by cases hr
  next v =>
  split at hopen
  · cases hopen
  next m hread =>
  cases hload : validateLoadedState m now with
  | error err =>
    rw [hload] at hopen
    cases hopen
  | ok memory =>
    rw [hload] at hopen
    cases hopen
    exact validateEntries_keyed hload fun serial r hr => .inr (Map.mem_toList.mpr hr)

/-- A revocation that succeeds is stored. -/
theorem Store.revokeCertificate_ok {record : CertificateRecord} {failure : Option PersistStep}
    (h : s.revokeCertificate serial reason revokedAt failure = (.ok record, s')) :
    record.RevokedAt revokedAt reason ∧ s'.RevokedAt serial revokedAt reason := by
  unfold Store.revokeCertificate at h
  split at h
  · cases h
  next record' memory hrevoke =>
  have hnew : record'.RevokedAt revokedAt reason ∧ memory.RevokedAt serial revokedAt reason := by
    unfold Memory.revokeCertificate at hrevoke
    split at hrevoke
    · cases hrevoke
    split at hrevoke
    · cases hrevoke
    split at hrevoke
    · cases hrevoke
    cases hrevoke
    have hrecord := Memory.revoked_revokedAt
    exact ⟨hrecord _ _ _, _, Finmap.lookup_insert _, hrecord _ _ _⟩
  simp only [persistLocked] at h
  split at h
  · cases h
  next v hv =>
  split at h
  · cases h
  cases h
  exact ⟨hnew.1, hnew.2, v, memory, rfl, hv, hnew.2⟩

end Store

/-! ## What calls are told -/

/-- What the CA says of a certificate that is revoked. -/
def ShowsRevoked (serial : String) (revokedAt : Time) (reason : String)
    (result : Except Error CertificateRecord) : Prop :=
  ∃ r, result = .ok r ∧ r.serialNumber = serial ∧ r.RevokedAt revokedAt reason

/-- The result of a call does not hide the revocation of a certificate. -/
def Reports (serial : String) (revokedAt : Time) (reason : String) : Request → Result → Prop
  | .verifyCertificate input, result => trimSpace input.serialNumber = serial →
    ∃ r, result = .record r ∧ (ShowsRevoked serial revokedAt reason r ∨
      ∃ role, r = .error (.text ("invalid persisted identity role " ++ role)))
  | .getCertificate serial', result | .checkRevocation serial', result =>
    trimSpace serial' = serial → ∃ r, result = .record r ∧
      (ShowsRevoked serial revokedAt reason r ∨
        ∃ role, r = .error (.text ("invalid persisted identity role " ++ role)))
  | .getCertificateDetail serial' _ _, result => trimSpace serial' = serial →
    ∃ r, result = .record r ∧ ShowsRevoked serial revokedAt reason r
  | .listCertificates _, result => ∃ records total, result = .records (.ok (records, total)) ∧
    ∀ r ∈ records, r.serialNumber = serial → r.RevokedAt revokedAt reason
  | .revokeCertificate serial' reason' _ _, result => trimSpace serial' = serial →
    ∃ err, result = .record (.error err) ∧ (trimSpace reason' ≠ "" →
      err = wrap .alreadyRevoked ["serial_number=", serial] ∨
      ∃ certType, certType ≠ certTypeClient ∧ err = wrap .certificateNotRevokable
        ["cert_type=", certType, " serial_number=", serial])
  | _, _ => True

section Reports

-- texts are not computed below
attribute [local irreducible] trimSpace toLower

variable {s : Service} {serial reason : String} {revokedAt : Time}

/-- The statement was answered by a store that has the certificate as revoked. -/
structure Informed (s : Service) (serial : String) (revokedAt : Time) (reason : String)
    (ev : Event (storeMachine s).toWorld) : Prop where
  revoked : ev.env.store.RevokedAt serial revokedAt reason
  keyed : ev.env.store.memory.Keyed
  answered : ∃ choice, ev.reply = (ev.env.store.answer s.lib.sha256 choice ev.stmt).1

/-- A list of statements of calls of the CA. -/
abbrev StoreLog (s : Service) : Type := List (Event (storeMachine s).toWorld)

/-- What is read of the certificate. -/
theorem Informed.read {e : StoreEnv} {reply : Except Error CertificateRecord}
    (h : Informed s serial revokedAt reason ⟨.getCertificate serial, e, reply⟩) :
    ∃ r, reply = .ok r ∧ r.serialNumber = serial ∧ r.RevokedAt revokedAt reason := by
  obtain ⟨choice, hreply⟩ := h.answered
  obtain ⟨r, hr, hrevoked⟩ := h.revoked.memory
  have hget : reply = e.store.memory.getCertificate serial := hreply
  refine ⟨r, ?_, h.keyed serial r hr, hrevoked⟩
  rw [hget, Memory.getCertificate, hr]

theorem verifyCertificate_shows {input : VerifyInput}
    (hserial : trimSpace input.serialNumber = serial) (hne : serial ≠ "") {log : StoreLog s}
    {result : Except Error CertificateRecord}
    (hreturns : Program.Returns (W := (storeMachine s).toWorld) (Service.verifyCertificate input)
      log result) (hlog : ∀ ev ∈ log, Informed s serial revokedAt reason ev) :
    ShowsRevoked serial revokedAt reason result ∨
      ∃ role, result = .error (.text ("invalid persisted identity role " ++ role)) := by
  subst hserial
  unfold Service.verifyCertificate at hreturns
  simp only [if_neg hne] at hreturns
  obtain ⟨e, reply, log, rfl, h₁⟩ := Program.returns_issue.mp hreturns
  obtain ⟨hread, -⟩ := List.forall_mem_cons.mp hlog
  obtain ⟨r, rfl, hkey, hrevoked⟩ := hread.read
  simp only at h₁
  split at h₁
  · obtain ⟨-, rfl⟩ := Program.returns_ret.mp h₁
    exact .inr ⟨_, rfl⟩
  obtain ⟨e₁, now, log₁, rfl, h₂⟩ := Program.returns_issue.mp h₁
  obtain ⟨e₂, now₂, log₂, rfl, h₃⟩ := Program.returns_issue.mp h₂
  obtain ⟨log₃, u, log₄, -, -, h₄⟩ := Program.returns_bind.mp h₃
  obtain ⟨-, rfl⟩ := Program.returns_ret.mp h₄
  exact .inl ⟨_, rfl, hkey, CertificateRecord.RevokedAt.resolveStatus ⟨hrevoked.status,
    hrevoked.since, hrevoked.because⟩ now, hrevoked.since, hrevoked.because⟩

theorem getCertificateDetail_shows {serial' requestID performedBy : String}
    (hserial : trimSpace serial' = serial) (hne : serial ≠ "") {log : StoreLog s}
    {result : Except Error CertificateRecord}
    (hreturns : Program.Returns (W := (storeMachine s).toWorld)
      (Service.getCertificateDetail serial' requestID performedBy) log result)
    (hlog : ∀ ev ∈ log, Informed s serial revokedAt reason ev) :
    ShowsRevoked serial revokedAt reason result := by
  subst hserial
  unfold Service.getCertificateDetail at hreturns
  simp only [if_neg hne] at hreturns
  obtain ⟨e, reply, log, rfl, h₁⟩ := Program.returns_issue.mp hreturns
  obtain ⟨hread, -⟩ := List.forall_mem_cons.mp hlog
  obtain ⟨r, rfl, hkey, hrevoked⟩ := hread.read
  obtain ⟨e₁, now, log₁, rfl, h₂⟩ := Program.returns_issue.mp h₁
  obtain ⟨e₂, now₂, log₂, rfl, h₃⟩ := Program.returns_issue.mp h₂
  obtain ⟨log₃, u, log₄, -, -, h₄⟩ := Program.returns_bind.mp h₃
  obtain ⟨-, rfl⟩ := Program.returns_ret.mp h₄
  exact ⟨_, rfl, hkey, hrevoked.resolveStatus now, hrevoked.since, hrevoked.because⟩

/-- The records of a page have statuses of some times. -/
theorem resolveAll_mem {records out : List CertificateRecord} {log : StoreLog s}
    (hreturns : Program.Returns (W := (storeMachine s).toWorld) (Service.resolveAll records) log
      out) {r : CertificateRecord} (hr : r ∈ out) :
    ∃ r' ∈ records, ∃ now, r = Service.resolved r' now := by
  induction records generalizing log out with
  | nil =>
    obtain ⟨-, rfl⟩ := Program.returns_ret.mp hreturns
    cases hr
  | cons record records ih =>
    obtain ⟨e, now, log₁, rfl, h₁⟩ := Program.returns_issue.mp hreturns
    obtain ⟨log₂, rest, log₃, -, hrest, h₂⟩ := Program.returns_bind.mp h₁
    obtain ⟨-, rfl⟩ := Program.returns_ret.mp h₂
    rcases List.mem_cons.mp hr with rfl | hr
    · exact ⟨record, List.mem_cons_self, now, rfl⟩
    · obtain ⟨r', hr', hresolved⟩ := ih hrest hr
      exact ⟨r', List.mem_cons_of_mem _ hr', hresolved⟩

/-- A page lists certificates as the memory has them, with their statuses. -/
theorem mem_listCertificates {m : Memory} {filter : ListFilter} {now : Time}
    {r : CertificateRecord} (hr : r ∈ (m.listCertificates filter now).1) :
    ∃ serial r', m.certificates.lookup serial = some r' ∧
      r = withStatus r' (resolveRecordStatus r' now) := by
  have hmatched : r ∈ m.matched filter now :=
    (List.mergeSort_perm _ _).subset (List.mem_of_mem_drop (List.mem_of_mem_take hr))
  obtain ⟨r', hr', rfl⟩ := List.mem_map.mp hmatched
  obtain ⟨⟨serial, r''⟩, hentry, rfl⟩ := List.mem_map.mp (List.mem_of_mem_filter hr')
  exact ⟨serial, r'', Map.mem_toList.mp hentry, rfl⟩

theorem listCertificates_shows {filter : ListFilter} {log : StoreLog s}
    {result : Except Error (List CertificateRecord × ℕ)}
    (hreturns : Program.Returns (W := (storeMachine s).toWorld) (Service.listCertificates filter)
      log result) (hlog : ∀ ev ∈ log, Informed s serial revokedAt reason ev) :
    ∃ records total, result = .ok (records, total) ∧
      ∀ r ∈ records, r.serialNumber = serial → r.RevokedAt revokedAt reason := by
  obtain ⟨e, reply, log, rfl, h₁⟩ := Program.returns_issue.mp hreturns
  obtain ⟨hread, -⟩ := List.forall_mem_cons.mp hlog
  obtain ⟨choice, hreply⟩ := hread.answered
  obtain rfl : reply = .ok (e.store.memory.listCertificates _ choice.now) := hreply
  obtain ⟨log₁, records, log₂, -, hrecords, h₂⟩ := Program.returns_bind.mp h₁
  obtain ⟨-, rfl⟩ := Program.returns_ret.mp h₂
  refine ⟨records, _, rfl, fun r hr hserial => ?_⟩
  obtain ⟨r', hr', now, rfl⟩ := resolveAll_mem hrecords hr
  obtain ⟨serial', r'', hr'', rfl⟩ := mem_listCertificates hr'
  -- the record is the one that is revoked
  obtain ⟨r₀, hr₀, hrevoked⟩ := hread.revoked.memory
  have hkey : serial' = serial := (hread.keyed serial' r'' hr'').symm.trans hserial
  subst hkey
  obtain rfl := Option.some.inj (hr''.symm.trans hr₀)
  have hstatus : CertificateRecord.RevokedAt
      (withStatus r'' (resolveRecordStatus r'' choice.now)) revokedAt reason :=
    ⟨hrevoked.resolveRecordStatus _, hrevoked.since, hrevoked.because⟩
  exact ⟨hstatus.resolveStatus now, hrevoked.since, hrevoked.because⟩

theorem revokeCertificate_refused {serial' reason' requestID performedBy : String}
    (hserial : trimSpace serial' = serial) (hne : serial ≠ "") {log : StoreLog s}
    {result : Except Error CertificateRecord}
    (hreturns : Program.Returns (W := (storeMachine s).toWorld)
      (Service.revokeCertificate serial' reason' requestID performedBy) log result)
    (hlog : ∀ ev ∈ log, Informed s serial revokedAt reason ev) :
    ∃ err, result = .error err ∧ (trimSpace reason' ≠ "" →
      err = wrap .alreadyRevoked ["serial_number=", serial] ∨
      ∃ certType, certType ≠ certTypeClient ∧ err = wrap .certificateNotRevokable
        ["cert_type=", certType, " serial_number=", serial]) := by
  subst hserial
  unfold Service.revokeCertificate at hreturns
  simp only [if_neg hne] at hreturns
  split at hreturns
  · next hblank =>
    obtain ⟨-, rfl⟩ := Program.returns_ret.mp hreturns
    exact ⟨_, rfl, fun hreason => absurd hblank hreason⟩
  obtain ⟨e, reply, log, rfl, h₁⟩ := Program.returns_issue.mp hreturns
  obtain ⟨hread, hlog₁⟩ := List.forall_mem_cons.mp hlog
  obtain ⟨r, rfl, hkey, hrevoked⟩ := hread.read
  simp only at h₁
  split at h₁
  · next htype =>
    obtain ⟨-, rfl⟩ := Program.returns_ret.mp h₁
    exact ⟨_, rfl, fun _ => .inr ⟨_, htype, rfl⟩⟩
  obtain ⟨e₁, now, log₁, rfl, h₂⟩ := Program.returns_issue.mp h₁
  obtain ⟨e₂, reply, log₂, rfl, h₃⟩ := Program.returns_issue.mp h₂
  obtain ⟨-, hlog₂⟩ := List.forall_mem_cons.mp hlog₁
  obtain ⟨hrevoke, -⟩ := List.forall_mem_cons.mp hlog₂
  obtain ⟨choice, hreply⟩ := hrevoke.answered
  -- the store finds the certificate revoked
  obtain ⟨r', hr', hrevoked'⟩ := hrevoke.revoked.memory
  have hanswer : reply = .error (wrap .alreadyRevoked ["serial_number=", trimSpace serial']) := by
    have hstore : reply = (e₂.store.revokeCertificate (trimSpace serial') (trimSpace reason') now
        choice.failure).1 := hreply
    have hmemory : e₂.store.memory.revokeCertificate (trimSpace serial') (trimSpace reason') now =
        .error (wrap .alreadyRevoked ["serial_number=", trimSpace serial']) := by
      unfold Memory.revokeCertificate
      rw [hr']
      simp [Memory.isRevoked, hrevoked'.status]
    rw [hstore]
    unfold Store.revokeCertificate
    rw [hmemory]
  subst hanswer
  obtain ⟨-, rfl⟩ := Program.returns_ret.mp h₃
  exact ⟨_, rfl, fun _ => .inl rfl⟩

end Reports

/-! ## The life of the CA -/

/-- The CA works, and is restarted: its calls end, and the store is opened from its file. -/
inductive Life (s : Service) (u : State (storeMachine s)) : State (storeMachine s) → Prop
  | refl : Life s u u
  | step {v w a} (h : Life s u v) (hn : next v a = some w) : Life s u w
  | restart {v store now} (h : Life s u v) (hlater : ¬ now.before v.env.clock)
      (hopen : newPersistentStore v.env.store.file now = .ok store) :
      Life s u ⟨StoreEnv.mk store now, ∅⟩

section Life

variable {s : Service} {u v w : State (storeMachine s)} {serial reason : String} {revokedAt : Time}

theorem Life.trans (h : Life s u v) (h' : Life s v w) : Life s u w := by
  induction h' with
  | refl => exact h
  | step _ hn ih => exact ih.step hn
  | restart _ hlater hopen ih => exact ih.restart hlater hopen

theorem Life.of_leads (h : Leads u v) : Life s u v := by
  obtain ⟨acts, hs⟩ := h
  induction hs with
  | nil => exact .refl
  | snoc _ hn ih => exact ih.step hn

/-- The calls were started since the last restart. -/
theorem Life.reachable {e₀ : StoreEnv} (h : Life s ⟨e₀, ∅⟩ v) : ∃ e, Reachable e v := by
  induction h with
  | refl => exact ⟨e₀, [], .nil⟩
  | step _ hn ih =>
    obtain ⟨e, he⟩ := ih
    exact ⟨e, he.next hn⟩
  | restart => exact ⟨_, [], .nil⟩

/-- A step answers a statement at most. -/
theorem store_next {a : Act (storeMachine s)} (hn : next v a = some w) :
    w.env.store = v.env.store ∨
      ∃ choice st, w.env.store = (v.env.store.answer s.lib.sha256 choice st).2 := by
  obtain ⟨j, q, rfl, -, rfl⟩ | ⟨j, choice, q, st, k, loc, log, r, env, loc', rfl, -, hx, rfl⟩ |
    ⟨m, env, rfl, -, rfl⟩ := next_cases hn
  · exact .inl rfl
  · simp only [storeMachine] at hx
    split at hx
    · cases hx
    cases hx
    exact .inr ⟨choice, st, rfl⟩
  · exact m.elim

theorem Life.keyed (h : Life s u v) (hu : u.env.store.memory.Keyed) :
    v.env.store.memory.Keyed := by
  induction h with
  | refl => exact hu
  | step _ hn ih =>
    obtain hsame | ⟨choice, st, hanswer⟩ := store_next hn
    · rw [hsame]
      exact ih
    · rw [hanswer]
      exact ih.answer choice st
  | restart _ _ hopen => exact .opened hopen

/-- **The store keeps a revocation for the whole life of the CA.** -/
theorem Life.keepsRevoked (h : Life s u v) (hu : u.env.store.RevokedAt serial revokedAt reason) :
    v.env.store.RevokedAt serial revokedAt reason := by
  induction h with
  | refl => exact hu
  | step _ hn ih =>
    obtain hsame | ⟨choice, st, hanswer⟩ := store_next hn
    · rw [hsame]
      exact ih
    · rw [hanswer]
      exact ih.answer choice st
  | restart _ _ hopen ih => exact ih.reopened hopen

/-- A revocation that succeeded. -/
def revocation (s : Service) (serial reason : String) (revokedAt : Time) (e : StoreEnv)
    (record : CertificateRecord) : Event (storeMachine s).toWorld :=
  ⟨Stmt.revokeCertificate serial reason revokedAt, e, Except.ok record⟩

/-- What was revoked in this run is revoked. -/
theorem revokedAt_of_issued {e₀ : StoreEnv} (h : Reachable e₀ v) {i : ℕ} {e : StoreEnv}
    {record : CertificateRecord}
    (hev : v.Issued i (revocation s serial reason revokedAt e record)) :
    record.RevokedAt revokedAt reason ∧ v.env.store.RevokedAt serial revokedAt reason := by
  refine h.induct (P := fun v => v.Issued i (revocation s serial reason revokedAt e record) →
    record.RevokedAt revokedAt reason ∧ v.env.store.RevokedAt serial revokedAt reason) ?_ ?_ hev
  · rintro ⟨c, hc, -⟩
    cases hc
  intro v w a _ ih hn hev
  obtain hev | ⟨choice, loc, loc', -, henv, hx⟩ := Issued.of_next hn hev
  · obtain ⟨hrecord, hstore⟩ := ih hev
    exact ⟨hrecord, (Life.refl.step hn).keepsRevoked hstore⟩
  · simp only [storeMachine] at hx
    split at hx
    · cases hx
    obtain ⟨hreply, henv'⟩ := Prod.mk.inj (Option.some.inj hx)
    have hrevoke : Store.revokeCertificate (StoreEnv.store v.env) serial reason revokedAt
        choice.failure = (.ok record, StoreEnv.store w.env) := by
      rw [← (Prod.mk.inj henv').1]
      exact Prod.ext hreply rfl
    exact Store.revokeCertificate_ok hrevoke

/-- What a successful revocation issued. -/
theorem revokeCertificate_issues {serial reason requestID performedBy : String} {log : StoreLog s}
    {record : CertificateRecord}
    (hreturns : Program.Returns (W := (storeMachine s).toWorld)
      (Service.revokeCertificate serial reason requestID performedBy) log (.ok record)) :
    trimSpace serial ≠ "" ∧ ∃ e revokedAt,
      revocation s (trimSpace serial) (trimSpace reason) revokedAt e record ∈ log := by
  unfold Service.revokeCertificate at hreturns
  simp only at hreturns
  split at hreturns
  · cases (Program.returns_ret.mp hreturns).2
  next hserial =>
  split at hreturns
  · cases (Program.returns_ret.mp hreturns).2
  obtain ⟨e, reply, log, rfl, h₁⟩ := Program.returns_issue.mp hreturns
  split at h₁
  · cases (Program.returns_ret.mp h₁).2
  split at h₁
  · cases (Program.returns_ret.mp h₁).2
  obtain ⟨e₁, now, log₁, rfl, h₂⟩ := Program.returns_issue.mp h₁
  obtain ⟨e₂, reply, log₂, rfl, h₃⟩ := Program.returns_issue.mp h₂
  split at h₃
  · cases (Program.returns_ret.mp h₃).2
  obtain ⟨log₃, u, log₄, -, -, h₄⟩ := Program.returns_bind.mp h₃
  cases (Program.returns_ret.mp h₄).2
  exact ⟨hserial, e₂, now, List.mem_cons_of_mem _ (List.mem_cons_of_mem _ List.mem_cons_self)⟩

end Life

section Permanent

attribute [local irreducible] trimSpace toLower

variable {s : Service} {serial reason : String} {revokedAt : Time}

/-- Calls that only see stores with the revocation report it. -/
theorem reports_of_informed (hne : serial ≠ "") (q : Request) {log : StoreLog s} {result : Result}
    (hreturns : Program.Returns (W := (storeMachine s).toWorld) (s.program q) log result)
    (hlog : ∀ ev ∈ log, Informed s serial revokedAt reason ev) :
    Reports serial revokedAt reason q result := by
  cases q with
  | verifyCertificate input =>
    intro hserial
    obtain ⟨before, r, after, rfl, h, h'⟩ := Program.returns_bind.mp hreturns
    obtain ⟨-, rfl⟩ := Program.returns_ret.mp h'
    exact ⟨r, rfl, verifyCertificate_shows hserial hne h fun ev hev =>
      hlog ev (List.mem_append_left _ hev)⟩
  | getCertificate serial' =>
    intro hserial
    obtain ⟨before, r, after, rfl, h, h'⟩ := Program.returns_bind.mp hreturns
    obtain ⟨-, rfl⟩ := Program.returns_ret.mp h'
    exact ⟨r, rfl, verifyCertificate_shows hserial hne h fun ev hev =>
      hlog ev (List.mem_append_left _ hev)⟩
  | checkRevocation serial' =>
    intro hserial
    obtain ⟨before, r, after, rfl, h, h'⟩ := Program.returns_bind.mp hreturns
    obtain ⟨-, rfl⟩ := Program.returns_ret.mp h'
    exact ⟨r, rfl, verifyCertificate_shows hserial hne h fun ev hev =>
      hlog ev (List.mem_append_left _ hev)⟩
  | getCertificateDetail serial' requestID performedBy =>
    intro hserial
    obtain ⟨before, r, after, rfl, h, h'⟩ := Program.returns_bind.mp hreturns
    obtain ⟨-, rfl⟩ := Program.returns_ret.mp h'
    exact ⟨r, rfl, getCertificateDetail_shows hserial hne h fun ev hev =>
      hlog ev (List.mem_append_left _ hev)⟩
  | listCertificates filter =>
    obtain ⟨before, r, after, rfl, h, h'⟩ := Program.returns_bind.mp hreturns
    obtain ⟨-, rfl⟩ := Program.returns_ret.mp h'
    obtain ⟨records, total, rfl, hrecords⟩ := listCertificates_shows h fun ev hev =>
      hlog ev (List.mem_append_left _ hev)
    exact ⟨records, total, rfl, hrecords⟩
  | revokeCertificate serial' reason' requestID performedBy =>
    intro hserial
    obtain ⟨before, r, after, rfl, h, h'⟩ := Program.returns_bind.mp hreturns
    obtain ⟨-, rfl⟩ := Program.returns_ret.mp h'
    obtain ⟨err, rfl, herr⟩ := revokeCertificate_refused hserial hne h fun ev hev =>
      hlog ev (List.mem_append_left _ hev)
    exact ⟨err, rfl, herr⟩
  | initializeIssuerChain | registerUser | listAuditEvents | appendExternalAudit => trivial

/-- **A revocation is permanent.** Once the CA has said that it revoked a certificate, its store
has it as revoked, at the time and for the reason that were given, and every call that is started
later reports so, whatever was called and however often the CA was restarted in between. -/
theorem revocation_permanent (s : Service) (file : Option Json) (store : Store) (now : Time)
    (hopen : newPersistentStore file now = .ok store) (u v w : State (storeMachine s))
    (hu : Life s ⟨StoreEnv.mk store now, ∅⟩ u) (i : ℕ) (c : Call (storeMachine s))
    (hc : u.call i = some c) (serial reason requestID performedBy : String)
    (hq : c.request = Request.revokeCertificate serial reason requestID performedBy)
    (record : CertificateRecord) (hrecord : c.rest.result = some (Result.record (.ok record)))
    (hv : Life s u v) (hw : Leads v w) :
    ∃ revokedAt, record.RevokedAt revokedAt (trimSpace reason) ∧
      w.env.store.RevokedAt (trimSpace serial) revokedAt (trimSpace reason) ∧
      ∀ j c' result, v.call j = none → w.call j = some c' → c'.rest.result = some result →
        Reports (trimSpace serial) revokedAt (trimSpace reason) c'.request result := by
  obtain ⟨e, hreach⟩ := hu.reachable
  have hreturns := hreach.returns hc hrecord
  rw [hq] at hreturns
  obtain ⟨before, r, after, hlog, h, h'⟩ := Program.returns_bind.mp hreturns
  obtain ⟨-, hr⟩ := Program.returns_ret.mp h'
  obtain rfl := Result.record.inj hr
  obtain ⟨hne, e', revokedAt, hev⟩ := revokeCertificate_issues h
  obtain ⟨hrevoked, hstore⟩ := revokedAt_of_issued hreach
    ⟨c, hc, hlog ▸ List.mem_append_left _ hev⟩
  have hkeyed := hu.keyed (.opened hopen)
  have hlater : ∀ x, Leads v x → Life s u x := fun x hx => hv.trans (Life.of_leads hx)
  refine ⟨revokedAt, hrevoked, (hlater w hw).keepsRevoked hstore, fun j c' result hnew hc' ha => ?_⟩
  obtain ⟨e₀, hreach'⟩ := (hu.trans (hlater w hw)).reachable
  refine reports_of_informed hne _ (hreach'.returns hc' ha) fun ev hev => ?_
  -- what the call found is a store of the life after the revocation
  obtain ⟨x, hx, henv⟩ := hw.issued_since hnew ⟨c', hc', hev⟩
  obtain ⟨others, choice, loc, env, loc', hexec⟩ := hreach'.log_exec ⟨c', hc', hev⟩
  simp only [storeMachine] at hexec
  split at hexec
  · cases hexec
  obtain ⟨hreply, -⟩ := Prod.mk.inj (Option.some.inj hexec)
  constructor
  · rw [← henv]
    exact (hlater x hx).keepsRevoked hstore
  · rw [← henv]
    exact (hlater x hx).keyed hkeyed
  · exact ⟨choice, hreply.symm⟩

end Permanent

section Sample

/-- The record of a result. -/
def Result.record? : Result → Option CertificateRecord
  | .record (.ok r) => some r
  | _ => none

theorem Result.eq_of_record? {result : Result} {r : CertificateRecord}
    (h : result.record? = some r) : result = .record (.ok r) := by
  unfold record? at h
  split at h
  · cases h
    rfl
  · cases h

/-- The certificate of Alice is all that is stored. -/
def sampleStored : Memory where
  certificates := (∅ : Map CertificateRecord).insert "01" (sampleRecord "01")

/-- Alice loses her key. -/
def lostKey : List (Act (storeMachine sampleService)) :=
  .spawn 0 (.revokeCertificate "01" "lost" "" "") ::
    List.replicate 4 (.run 0 { now := Time.unix 6 })

/-- The certificate is asked for. -/
def askedLater : List (Act (storeMachine sampleService)) :=
  .spawn 0 (.verifyCertificate { serialNumber := " 01" }) ::
    List.replicate 4 (.run 0 { now := Time.unix 9000 })

/-- The CA is started from a file, and a first call ends. -/
def started (file : Option Json) (now : Time) (acts : List (Act (storeMachine sampleService))) :
    Option (StoreEnv × CertificateRecord) :=
  (newPersistentStore file now).toOption.bind fun store =>
    (runAll ⟨StoreEnv.mk store now, ∅⟩ acts).bind fun u =>
      ((u.result 0).bind Result.record?).map fun r => (u.env, r)

theorem started_cases {file : Option Json} {now : Time}
    {acts : List (Act (storeMachine sampleService))} {e : StoreEnv} {r : CertificateRecord}
    (h : started file now acts = some (e, r)) :
    ∃ store u c, newPersistentStore file now = .ok store ∧
      Steps ⟨StoreEnv.mk store now, ∅⟩ acts u ∧ u.env = e ∧ u.call 0 = some c ∧
      c.rest.result = some (.record (.ok r)) := by
  obtain ⟨store, hopen, h⟩ := Option.bind_eq_some_iff.mp h
  obtain ⟨u, hu, h⟩ := Option.bind_eq_some_iff.mp h
  obtain ⟨r', hr, heq⟩ := Option.map_eq_some_iff.mp h
  obtain ⟨rfl, rfl⟩ := Prod.mk.inj heq
  obtain ⟨result, hresult, hr⟩ := Option.bind_eq_some_iff.mp hr
  rw [Result.eq_of_record? hr] at hresult
  obtain ⟨c, hc, hrest⟩ := Option.bind_eq_some_iff.mp hresult
  refine ⟨store, u, c, ?_, steps_of_runAll hu, rfl, hc, hrest⟩
  cases hnew : newPersistentStore file now with
  | error err =>
    rw [hnew] at hopen
    cases hopen
  | ok store' =>
    rw [hnew] at hopen
    rw [Option.some.inj hopen]

theorem lostKey_starts : ∃ e r e' r',
    started sampleStored.marshalJSON (Time.unix 0) lostKey = some (e, r) ∧
      e.clock = Time.unix 6 ∧ started e.store.file (Time.unix 8000) askedLater = some (e', r') := by
  have hstarts : ((started sampleStored.marshalJSON (Time.unix 0) lostKey).map fun p =>
      (p.1.clock, (started p.1.store.file (Time.unix 8000) askedLater).isSome)) =
        some (Time.unix 6, true) := by
    decide +kernel
  obtain ⟨⟨e, r⟩, hstarted, hview⟩ := Option.map_eq_some_iff.mp hstarts
  obtain ⟨hclock, hsome⟩ := Prod.mk.inj hview
  obtain ⟨⟨e', r'⟩, hlater⟩ := Option.isSome_iff_exists.mp hsome
  exact ⟨e, r, e', r', hstarted, hclock, hlater⟩

/-- The certificate of Alice is found revoked after a restart. -/
theorem revocation_permanent_of_lostKey : ∃ (e e' : StoreEnv) (r r' : CertificateRecord),
    started sampleStored.marshalJSON (Time.unix 0) lostKey = some (e, r) ∧
      started e.store.file (Time.unix 8000) askedLater = some (e', r') ∧
      r'.status = certStatusRevoked ∧ r'.revocationReason = trimSpace "lost" := by
  obtain ⟨e, r, e', r', hstarted, hclock, hlater⟩ := lostKey_starts
  obtain ⟨store, u, c, hopen, hu, rfl, hc, hrest⟩ := started_cases hstarted
  obtain ⟨store', w, c', hopen', hw, -, hc', hrest'⟩ := started_cases hlater
  have hq : c.request = .revokeCertificate "01" "lost" "" "" := by
    have hspawn := hu.spawned hc
    simp only [lostKey, List.mem_cons, List.mem_replicate, reduceCtorEq, and_false,
      or_false] at hspawn
    exact (Act.spawn.inj hspawn).2
  have hq' : c'.request = .verifyCertificate { serialNumber := " 01" } := by
    have hspawn := hw.spawned hc'
    simp only [askedLater, List.mem_cons, List.mem_replicate, reduceCtorEq, and_false,
      or_false] at hspawn
    exact (Act.spawn.inj hspawn).2
  have hbefore : ¬ (Time.unix 8000).before u.env.clock := by
    rw [hclock]
    decide +kernel
  obtain ⟨revokedAt, -, -, hreports⟩ := revocation_permanent sampleService _ store (Time.unix 0)
    hopen u _ w (Life.of_leads ⟨_, hu⟩) 0 c hc _ _ _ _ hq r hrest
    (Life.refl.restart hbefore hopen') ⟨_, hw⟩
  have hreport := hreports 0 c' _ rfl hc' hrest'
  rw [hq'] at hreport
  obtain ⟨result, heq, hshown | ⟨role, hrole⟩⟩ := hreport (by decide +kernel)
  · obtain ⟨r'', rfl, -, hrevoked⟩ := hshown
    obtain rfl := Except.ok.inj (Result.record.inj heq)
    exact ⟨u.env, e', r, r', hstarted, hlater, hrevoked.status, hrevoked.because⟩
  · rw [hrole] at heq
    cases Result.record.inj heq

end Sample

end Ca
