import MiniBanking.Audit.Append
import MiniBanking.Ca.Query
import MiniBanking.Ca.Statement

/-!
# Restarts of the JSON store

A store that is opened reads its file and checks what it finds. Every operation of the CA keeps
what is checked, unless a CA certificate without a common name is stored or the file is not
written.

## Main definitions

* `newPersistentStore`, `validateLoadedState`: a store is opened
* `Memory.Valid`: what is checked
* `storeMachine`: the operations of the CA on the JSON store, interleaved
* `Restarts`: the store that is opened has what the memory had, and its log is found in order
* `MeetsAct`: a step that writes the file and stores no CA certificate without a name

## Main results

* `validateLoadedState_ok`: a valid state passes the checks
* `Kept.perform`: the operations keep a state valid
* `restarts_of_meets`: a store can be opened again after every run of such steps
-/

namespace Ca

open Concurrency Go

/-! ## Opening a store -/

/-- The checks of some certificates. `active` has the serial numbers of the active ones that were
checked, by owner. -/
def validateEntries (now : Time) : List (String × CertificateRecord) →
    (active : List (String × String)) → Memory → Except Error Memory
  | [], _, m => .ok m
  | (serial, record) :: entries, active, m =>
    if serial = "" || record.serialNumber = "" || serial ≠ record.serialNumber then
      .error (.text ("invalid CA store state: serial key " ++ serial ++
        " does not match record serial " ++ record.serialNumber))
    else
      let certType := if record.certType = "" then certTypeClient else record.certType
      let m := if record.certType = "" then
          { m with certificates := m.certificates.insert serial { record with certType } }
        else m
      if record.subjectCN = "" then
        .error (.text ("invalid CA store state: certificate " ++ serial ++
          " is missing subject metadata"))
      else if certType = certTypeClient && (record.ownerID = "" || record.subjectEmail = "") then
        .error (.text ("invalid CA store state: client certificate " ++ serial ++
          " is missing owner/email metadata"))
      else if certType = certTypeClient && isActive record now then
        match active.lookup record.ownerID with
        | some previous =>
          .error (wrap .activeCertificateExists
            ["owner_id=", record.ownerID, " serials=", previous, ",", serial])
        | none => validateEntries now entries ((record.ownerID, serial) :: active) m
      else validateEntries now entries active m

def validateLoadedState (m : Memory) (now : Time) : Except Error Memory :=
  validateEntries now m.certificates.toList [] m

/-- `NewPersistentStore`: the store of a file, if there is one. -/
def newPersistentStore (file : Option Json) (now : Time) : Except Error Store :=
  match file with
  | none => .ok {}
  | some v =>
    match Memory.unmarshalJSON v with
    | none => .error (.external "decode CA store state")
    | some m => (validateLoadedState m now).map fun memory => { memory, file }

/-! ## What is checked -/

/-- The certificate has the texts that are checked. -/
structure CertificateRecord.Complete (r : CertificateRecord) : Prop where
  certType : r.certType ≠ ""
  subjectCN : r.subjectCN ≠ ""
  client : r.certType = certTypeClient → r.ownerID ≠ "" ∧ r.subjectEmail ≠ ""

/-- The certificate is one of a client that is active. -/
def ActiveClient (r : CertificateRecord) (now : Time) : Prop :=
  r.certType = certTypeClient ∧ isActive r now = true

/-- What is checked of a state. -/
structure Memory.Valid (m : Memory) (now : Time) : Prop where
  serial : ∀ serial r, m.certificates.lookup serial = some r →
    serial ≠ "" ∧ r.serialNumber = serial
  complete : ∀ serial r, m.certificates.lookup serial = some r → r.Complete
  unique : ∀ serial serial' r r', m.certificates.lookup serial = some r →
    m.certificates.lookup serial' = some r' → r.ownerID = r'.ownerID →
    ActiveClient r now → ActiveClient r' now → serial = serial'

theorem validateEntries_ok {m : Memory} {now : Time} (h : m.Valid now)
    {entries : List (String × CertificateRecord)} {active : List (String × String)}
    (hentries : ∀ e ∈ entries, m.certificates.lookup e.1 = some e.2)
    (hkeys : (entries.map Prod.fst).Nodup)
    (hactive : ∀ owner serial, (owner, serial) ∈ active → serial ∉ entries.map Prod.fst ∧
      ∃ r, m.certificates.lookup serial = some r ∧ r.ownerID = owner ∧ ActiveClient r now) :
    validateEntries now entries active m = .ok m := by
  induction entries generalizing active with
  | nil => rfl
  | cons entry entries ih =>
    obtain ⟨serial, record⟩ := entry
    rw [List.map_cons, List.nodup_cons] at hkeys
    obtain ⟨hnew, hkeys⟩ := hkeys
    obtain ⟨hlookup, hentries⟩ := List.forall_mem_cons.mp hentries
    obtain ⟨hserial, hrecord⟩ := h.serial serial record hlookup
    obtain ⟨htype, hcn, hclient⟩ := h.complete serial record hlookup
    have hrest : ∀ owner serial', (owner, serial') ∈ active →
        serial' ∉ entries.map Prod.fst ∧
          ∃ r, m.certificates.lookup serial' = some r ∧ r.ownerID = owner ∧ ActiveClient r now := by
      intro owner serial' hmem
      obtain ⟨hnotMem, hr⟩ := hactive owner serial' hmem
      exact ⟨fun hmem => hnotMem (List.mem_cons_of_mem _ hmem), hr⟩
    rw [validateEntries]
    simp only [hrecord, hserial, htype, hcn, if_false, decide_false, Bool.or_self, ne_eq,
      not_true_eq_false, Bool.false_eq_true]
    by_cases hctype : record.certType = certTypeClient
    swap
    · simp only [hctype, decide_false, Bool.false_and, Bool.false_eq_true, if_false]
      exact ih hentries hkeys hrest
    obtain ⟨howner, hemail⟩ := hclient hctype
    simp only [hctype, howner, hemail, decide_true, decide_false, Bool.or_self, Bool.and_false,
      Bool.false_eq_true, if_false, Bool.true_and]
    split
    swap
    · exact ih hentries hkeys hrest
    next hisActive =>
    have hthis : ActiveClient record now := ⟨hctype, hisActive⟩
    split
    · next previous hprevious =>
      -- the owner would have two active certificates
      obtain ⟨before, after, hsplit, -⟩ := List.lookup_eq_some_iff.mp hprevious
      have hmem : (record.ownerID, previous) ∈ active := by simp [hsplit]
      obtain ⟨hnotMem, r, hr, hrowner, hractive⟩ := hactive _ previous hmem
      have heq := h.unique serial previous record r hlookup hr hrowner.symm hthis hractive
      rw [heq] at hnotMem
      exact absurd List.mem_cons_self hnotMem
    · refine ih hentries hkeys fun owner serial' hmem => ?_
      rcases List.mem_cons.mp hmem with heq | hmem
      · obtain ⟨rfl, rfl⟩ := Prod.mk.inj heq
        exact ⟨hnew, record, hlookup, rfl, hthis⟩
      · exact hrest owner serial' hmem

/-- **A valid state passes the checks** and is not changed by them. -/
theorem validateLoadedState_ok {m : Memory} {now : Time} (h : m.Valid now) :
    validateLoadedState m now = .ok m :=
  validateEntries_ok h (fun _ he => Map.mem_toList.mp he) m.certificates.nodup_toList
    fun _ _ hmem => absurd hmem List.not_mem_nil

/-- **A valid state is read from its file.** -/
theorem newPersistentStore_ok {s : Store} {now : Time} (hsync : s.InSync)
    (hvalid : s.memory.Valid now) : newPersistentStore s.file now = .ok s := by
  obtain ⟨memory, file⟩ := s
  cases file with
  | none =>
    have hempty : memory = {} := hsync
    rw [hempty]
    rfl
  | some v =>
    have hread := Memory.unmarshalJSON_marshalJSON (show memory.marshalJSON = some v from hsync)
    simp only [newPersistentStore, hread, validateLoadedState_ok hvalid]
    rfl

/-- A certificate that is active was active before. -/
theorem isActive_of_le {r : CertificateRecord} {now now' : Time} (h : ¬ now'.before now)
    (hactive : isActive r now' = true) : isActive r now = true := by
  rw [Time.before_iff] at h
  have hafter : now.after r.notAfter = true → now'.after r.notAfter = true := by
    rw [Time.after_iff, Time.after_iff]
    omega
  obtain ⟨hrevoked, hexpired, hstatus⟩ := isActive_iff.mp hactive
  exact isActive_iff.mpr ⟨hrevoked, fun ⟨hzero, hnow⟩ => hexpired ⟨hzero, hafter hnow⟩, hstatus⟩

theorem Memory.Valid.mono {m : Memory} {now now' : Time} (h : m.Valid now)
    (hle : ¬ now'.before now) : m.Valid now' where
  serial := h.serial
  complete := h.complete
  unique serial serial' r r' hr hr' howner hactive hactive' :=
    h.unique serial serial' r r' hr hr' howner ⟨hactive.1, isActive_of_le hle hactive.2⟩
      ⟨hactive'.1, isActive_of_le hle hactive'.2⟩

/-! ## The operations keep a state valid -/

/-- What the operations of the CA store. -/
def Mutation.Fits : Mutation → Prop
  | .upsertCertificate record => record.certType ≠ certTypeClient ∧ record.Complete
  | .createCertificate record => record.serialNumber ≠ "" ∧ record.Complete
  | _ => True

section Valid

variable {m m' : Memory} {now : Time}

/-- A certificate is stored, and no other one is active for its owner. -/
theorem Memory.Valid.insert (h : m.Valid now) {serial : String} {r : CertificateRecord}
    (hserial : serial ≠ "" ∧ r.serialNumber = serial) (hcomplete : r.Complete)
    (hunique : ∀ serial' r', serial' ≠ serial → m.certificates.lookup serial' = some r' →
      r'.ownerID = r.ownerID → ActiveClient r' now → ¬ ActiveClient r now) :
    { m with certificates := m.certificates.insert serial r }.Valid now := by
  have hlookup : ∀ serial' r', (m.certificates.insert serial r).lookup serial' = some r' →
      serial' = serial ∧ r' = r ∨ serial' ≠ serial ∧ m.certificates.lookup serial' = some r' := by
    intro serial' r' hr'
    by_cases heq : serial' = serial
    · rw [heq, Finmap.lookup_insert] at hr'
      exact .inl ⟨heq, (Option.some.inj hr').symm⟩
    · rw [Finmap.lookup_insert_of_ne _ heq] at hr'
      exact .inr ⟨heq, hr'⟩
  constructor
  · intro serial' r' hr'
    rcases hlookup _ _ hr' with ⟨rfl, rfl⟩ | ⟨-, hr'⟩
    · exact hserial
    · exact h.serial _ _ hr'
  · intro serial' r' hr'
    rcases hlookup _ _ hr' with ⟨rfl, rfl⟩ | ⟨-, hr'⟩
    · exact hcomplete
    · exact h.complete _ _ hr'
  · intro serial₁ serial₂ r₁ r₂ hr₁ hr₂ howner hactive₁ hactive₂
    rcases hlookup _ _ hr₁ with ⟨rfl, rfl⟩ | ⟨hne₁, hold₁⟩
    · rcases hlookup _ _ hr₂ with ⟨rfl, rfl⟩ | ⟨hne₂, hold₂⟩
      · rfl
      · exact absurd hactive₁ (hunique _ _ hne₂ hold₂ howner.symm hactive₂)
    · rcases hlookup _ _ hr₂ with ⟨rfl, rfl⟩ | ⟨hne₂, hold₂⟩
      · exact absurd hactive₂ (hunique _ _ hne₁ hold₁ howner hactive₁)
      · exact h.unique _ _ _ _ hold₁ hold₂ howner hactive₁ hactive₂

/-- What is kept of a certificate as it was given. -/
theorem Memory.certificateToKeep_eq (m : Memory) (record : CertificateRecord) (now : Time) :
    (m.certificateToKeep record now).serialNumber = record.serialNumber ∧
      (m.certificateToKeep record now).certType = record.certType ∧
      (m.certificateToKeep record now).subjectCN = record.subjectCN := by
  unfold certificateToKeep
  split
  · next existing _ =>
    have hreplacing : (replacing existing record).serialNumber = record.serialNumber ∧
        (replacing existing record).certType = record.certType ∧
        (replacing existing record).subjectCN = record.subjectCN := by
      by_cases hrevoked : isRevoked existing = true
      · simp [replacing, hrevoked]
      · simp [replacing, hrevoked]
    exact hreplacing
  · exact ⟨rfl, rfl, rfl⟩

/-- **The operations keep a state valid.** -/
theorem Memory.Valid.apply {sha256 : List UInt8 → Vector UInt8 32} {op : Mutation}
    (h : m.Valid now) (hfits : op.Fits) (happly : op.apply sha256 m now = .ok m') :
    m'.Valid now := by
  cases op with
  | upsertIssuer record =>
    simp only [Mutation.apply, Memory.upsertIssuer] at happly
    split at happly
    · cases happly
    cases happly
    exact ⟨h.serial, h.complete, h.unique⟩
  | upsertCertificate record =>
    simp only [Mutation.apply, Memory.upsertCertificate] at happly
    split at happly
    · cases happly
    next hblank =>
    cases happly
    obtain ⟨hclient, hcomplete⟩ := hfits
    obtain ⟨hserial, htype, hcn⟩ := m.certificateToKeep_eq record now
    have hne : record.serialNumber ≠ "" := by
      intro hempty
      rw [hempty] at hblank
      exact hblank (by decide)
    refine h.insert ⟨hne, hserial⟩ ⟨?_, ?_, ?_⟩ ?_
    · rw [htype]
      exact hcomplete.certType
    · rw [hcn]
      exact hcomplete.subjectCN
    · rw [htype]
      exact fun htype => absurd htype hclient
    · intro _ _ _ _ _ _ hactive
      rw [ActiveClient, htype] at hactive
      exact hclient hactive.1
  | createCertificate record =>
    simp only [Mutation.apply, Memory.createCertificate] at happly
    split at happly
    · cases happly
    split at happly
    · cases happly
    next hfree =>
    cases happly
    refine h.insert ⟨hfits.1, rfl⟩ hfits.2 fun serial' r' _ hr' howner hactive' hactive => hfree ?_
    refine Map.any_toList.mpr ⟨serial', r', hr', ?_⟩
    simp only [Memory.blocks, hactive.1, hactive'.1, howner, hactive'.2, decide_true,
      Bool.and_self]
  | revokeCertificate serial reason revokedAt =>
    simp only [Mutation.apply, Memory.revokeCertificate] at happly
    split at happly
    · cases happly
    next record hrecord =>
    split at happly
    · cases happly
    split at happly
    · cases happly
    cases happly
    obtain ⟨hne, hserial⟩ := h.serial serial record hrecord
    obtain ⟨htype, hcn, hclient⟩ := h.complete serial record hrecord
    refine h.insert ⟨hne, hserial⟩ ⟨htype, hcn, hclient⟩ fun _ _ _ _ _ _ hactive => ?_
    -- a revoked certificate is not active
    obtain ⟨⟨hnone, -⟩, -⟩ := isActive_iff.mp hactive.2
    cases hnone
  | appendAudit event =>
    cases happly
    exact ⟨h.serial, h.complete, h.unique⟩

end Valid

/-! ## The chain of the log -/

theorem rowsFrom_append (index : ℕ) (events : List StoredEvent) (e : StoredEvent) :
    rowsFrom index (events ++ [e]) = rowsFrom index events ++ [e.row (index + events.length)] := by
  induction events generalizing index with
  | nil => rfl
  | cons e' events ih =>
    simp only [List.cons_append, rowsFrom, ih, List.length_cons]
    rw [Nat.add_assoc, Nat.add_comm 1]

theorem map_hash_rowsFrom (index : ℕ) (events : List StoredEvent) :
    (rowsFrom index events).map (·.hash) = events.map (·.hash) := by
  induction events generalizing index with
  | nil => rfl
  | cons e events ih => simp only [rowsFrom, List.map_cons, ih, StoredEvent.row]

theorem length_rowsFrom (index : ℕ) (events : List StoredEvent) :
    (rowsFrom index events).length = events.length := by
  have h := congrArg List.length (map_hash_rowsFrom index events)
  rwa [List.length_map, List.length_map] at h

section Log

variable {sha256 : List UInt8 → Vector UInt8 32} {m m' : Memory} {now : Time}

/-- The log is a chain. -/
def Memory.Chained (sha256 : List UInt8 → Vector UInt8 32) (m : Memory) : Prop :=
  Audit.Chain (auditChainHash sha256) (rowsFrom 0 m.auditLog) (m.auditLog.length + 1)

theorem Memory.Chained.appendAudit (h : m.Chained sha256) (event : TimedEvent) :
    (m.appendAudit sha256 event now).Chained sha256 := by
  have hhead : m.headHash = Audit.headHash (Audit.lastHash (rowsFrom 0 m.auditLog)) := by
    rw [Audit.lastHash_eq h.ordered, ← List.getLast?_map, map_hash_rowsFrom, List.getLast?_map,
      Memory.headHash]
  unfold Memory.Chained Memory.appendAudit
  simp only [rowsFrom_append, List.length_append, List.length_singleton, Nat.zero_add]
  refine (h.mono (by omega)).snoc ?_
  constructor
  · intro r hr
    have := h.bound r hr
    show r.seq < (m.auditLog.length : ℤ) + 1
    omega
  · show (m.auditLog.length : ℤ) + 1 < _
    omega
  · exact hhead
  · refine ⟨fun hempty => ?_, rfl⟩
    have hlength := @Audit.length_chainHash sha256 m.headHash (auditHashFields event.toAuditEvent)
    rw [show Audit.chainHash sha256 m.headHash (auditHashFields event.toAuditEvent) = "" from
      hempty] at hlength
    cases hlength

theorem Memory.Chained.apply {op : Mutation} (h : m.Chained sha256)
    (happly : op.apply sha256 m now = .ok m') : m'.Chained sha256 := by
  cases op with
  | upsertIssuer record =>
    simp only [Mutation.apply, Memory.upsertIssuer] at happly
    split at happly
    · cases happly
    cases happly
    exact h
  | upsertCertificate record =>
    simp only [Mutation.apply, Memory.upsertCertificate] at happly
    split at happly
    · cases happly
    cases happly
    exact h
  | createCertificate record =>
    simp only [Mutation.apply, Memory.createCertificate] at happly
    split at happly
    · cases happly
    split at happly
    · cases happly
    cases happly
    exact h
  | revokeCertificate serial reason revokedAt =>
    simp only [Mutation.apply, Memory.revokeCertificate] at happly
    split at happly
    · cases happly
    split at happly
    · cases happly
    split at happly
    · cases happly
    cases happly
    exact h
  | appendAudit event =>
    cases happly
    exact h.appendAudit event

/-- **A chained log is found in order.** -/
theorem Memory.Chained.verify (h : m.Chained sha256) :
    m.verifyAuditChain sha256 = { ok := true, checked := m.auditLog.length } := by
  have hverify := Audit.Chain.verify h
  rw [Audit.verify, Audit.bySeq_eq h.ordered, length_rowsFrom] at hverify
  exact verifyEvents_ok hverify

end Log

/-! ## Runs of the CA on a JSON store -/

/-- The change that a statement asks for. -/
def Stmt.mutation : Stmt → Option Mutation
  | .upsertIssuer record => some (.upsertIssuer record)
  | .upsertCertificate record => some (.upsertCertificate record)
  | .createCertificate record => some (.createCertificate record)
  | .revokeCertificate serial reason revokedAt => some (.revokeCertificate serial reason revokedAt)
  | .appendAudit event => some (.appendAudit event)
  | _ => none

/-- What decides the outcome of a statement: the time, the step at which the file is not written,
and what the signer answers. -/
structure StoreChoice where
  now : Time
  failure : Option PersistStep := none
  signed : Except Error Issued := .error (.external "sign")

/-- The reply of the store to a statement, and the store after it. -/
def Store.answer (sha256 : List UInt8 → Vector UInt8 32) (s : Store) (choice : StoreChoice) :
    (st : Stmt) → Reply st × Store
  | .now => (choice.now, s)
  | .sign _ => (choice.signed, s)
  | .upsertIssuer record => s.upsertIssuer record choice.now choice.failure
  | .upsertCertificate record => s.upsertCertificate record choice.now choice.failure
  | .createCertificate record => s.createCertificate record choice.now choice.failure
  | .getCertificate serial => (s.memory.getCertificate serial, s)
  | .listCertificates filter => (.ok (s.memory.listCertificates filter choice.now), s)
  | .revokeCertificate serial reason revokedAt =>
    s.revokeCertificate serial reason revokedAt choice.failure
  | .appendAudit event => s.appendAudit sha256 event choice.now choice.failure
  | .listAudit filter => (.ok (s.memory.listAudit filter), s)

/-- A store, and the time of its last operation. -/
structure StoreEnv where
  store : Store := {}
  clock : Time

/-- The operations of the CA on the JSON store. The clock never goes back. -/
def storeMachine (s : Service) : Machine where
  S := signature
  Env := StoreEnv
  Loc := Unit
  Choice := StoreChoice
  exec _ st choice e _ :=
    if choice.now.before e.clock then none
    else
      let (reply, store) := e.store.answer s.lib.sha256 choice st
      some (reply, { store, clock := choice.now }, ())
  Tick := Empty
  Request := Request
  Result := Result
  program := s.program
  start := ()
  tick m := m.elim

/-- The CA certificate that is stored has a common name. -/
def Mutation.Named : Mutation → Prop
  | .upsertCertificate record => record.subjectCN ≠ ""
  | _ => True

/-- The change is refused, or it stores no CA certificate without a common name and the file is
written if there is something new. -/
def Operation.Reloads (op : Operation) (m : Memory) : Prop :=
  op.mutation.Refused m op.now ∨ op.mutation.Named ∧ op.Meets m

/-- A step whose change, if it is one, can be read again. -/
def MeetsAct {s : Service} (u : State (storeMachine s)) : Act (storeMachine s) → Prop
  | .run i choice => ∀ c st op, u.call i = some c → c.rest.head = some st →
      st.mutation = some op →
      Operation.Reloads ⟨op, choice.now, choice.failure⟩ u.env.store.memory
  | _ => True

/-- At every later time the file is opened as a store with the same content, whose log is found in
order. -/
def Restarts (s : Service) (e : StoreEnv) : Prop :=
  ∀ now, ¬ now.before e.clock → ∃ reloaded, newPersistentStore e.store.file now = .ok reloaded ∧
    reloaded.memory = e.store.memory ∧
    reloaded.memory.verifyAuditChain s.lib.sha256 =
      { ok := true, checked := e.store.memory.auditLog.length }

/-- What a store keeps that can be opened again. -/
structure Kept (s : Service) (e : StoreEnv) : Prop where
  inSync : e.store.InSync
  valid : e.store.memory.Valid e.clock
  chained : e.store.memory.Chained s.lib.sha256

theorem Kept.restarts {s : Service} {e : StoreEnv} (h : Kept s e) : Restarts s e :=
  fun _ hlater =>
    ⟨e.store, newPersistentStore_ok h.inSync (h.valid.mono hlater), rfl, h.chained.verify⟩

/-- The CA with an empty store. -/
def newStore (s : Service) (clock : Time) : State (storeMachine s) := ⟨StoreEnv.mk {} clock, ∅⟩

section Runs

variable {s : Service} {e : StoreEnv}

theorem kept_newStore (clock : Time) : Kept s (newStore s clock).env := by
  constructor
  · rfl
  · constructor
    · intro serial r hr
      cases hr
    · intro serial r hr
      cases hr
    · intro serial serial' r r' hr
      cases hr
  · exact ⟨List.Pairwise.nil, nofun, trivial, nofun⟩

/-- What a change leaves of the store. -/
theorem Store.perform_memory {sha256 : List UInt8 → Vector UInt8 32} (store : Store)
    (op : Operation) : (∃ err, op.mutation.apply sha256 store.memory op.now = .error err) ∧
      (store.perform sha256 op).2 = store ∨
    op.mutation.apply sha256 store.memory op.now = .ok (store.perform sha256 op).2.memory := by
  rw [store.perform_eq]
  cases op.mutation.apply sha256 store.memory op.now with
  | error err => exact .inl ⟨⟨err, rfl⟩, rfl⟩
  | ok m' =>
    right
    simp only [change, persistLocked]
    split
    · rfl
    · split <;> rfl

/-- **The changes keep a store such that it can be opened again.** -/
theorem Kept.perform (h : Kept s e) {op : Operation} (hlater : ¬ op.now.before e.clock)
    (hfits : op.mutation.Named → op.mutation.Fits) (hmeets : op.Reloads e.store.memory) :
    Kept s { store := (e.store.perform s.lib.sha256 op).2, clock := op.now } := by
  have hvalid := h.valid.mono hlater
  rcases @Store.perform_memory s.lib.sha256 e.store op with ⟨-, hsame⟩ | happly
  · rw [hsame]
    exact ⟨h.inSync, hvalid, h.chained⟩
  rcases hmeets with hrefused | ⟨hnamed, hmeets⟩
  · obtain ⟨err, herr⟩ := (@Mutation.apply_error_iff s.lib.sha256 _ _ _).mpr hrefused
    rw [happly] at herr
    cases herr
  · have hatomic : e.store.AtomicStep s.lib.sha256 op := (Store.perform_iff h.inSync op).mpr hmeets
    exact ⟨hatomic.inSync, hvalid.apply (hfits hnamed) happly, h.chained.apply happly⟩

/-- The certificate of a CA can be stored, if it has a name. -/
theorem fits_issuerCertificateRecord {issuerID parentIssuerID certType : String} {ca : RootCA}
    {parent : Option RootCA} {now : Time} (hclient : certType ≠ certTypeClient)
    (hne : certType ≠ "")
    (hnamed : (Mutation.upsertCertificate
      (issuerCertificateRecord issuerID parentIssuerID certType ca parent now)).Named) :
    (Mutation.upsertCertificate
      (issuerCertificateRecord issuerID parentIssuerID certType ca parent now)).Fits :=
  ⟨hclient, hne, hnamed, fun htype => absurd htype hclient⟩

/-- What a call asks for can be stored, if its CA certificates have names. -/
theorem Service.Asks.fits {q : Request} {st : Stmt} (h : s.Asks q st) {op : Mutation}
    (hop : st.mutation = some op) (hnamed : op.Named) : op.Fits := by
  cases h with
  | upsertRootCA now hroot =>
    cases hop
    exact fits_issuerCertificateRecord (by decide) (by decide) hnamed
  | upsertClientCA now =>
    cases hop
    exact fits_issuerCertificateRecord (by decide) (by decide) hnamed
  | @createCertificate input input' csr hinput cert now =>
    cases hop
    obtain ⟨-, -, howner, hcn, hemail⟩ := s.checkInput_ok hinput
    refine ⟨fun hempty => ?_, ?_, hcn, fun _ => ⟨howner, ?_⟩⟩
    · exact cert.positive (hex_injective (hempty : hex cert.serialNumber = hex []))
    · show certTypeClient ≠ ""
      decide
    · show input'.subjectEmail ≠ ""
      intro hempty
      rw [hempty] at hemail
      cases hemail
  | now | sign | getCertificate | listCertificates | listAudit => cases hop
  | upsertIssuer | revokeCertificate | appendIssued | appendRecord | appendExternal
  | appendExternalAt =>
    cases hop
    trivial

/-- The store after a statement. -/
theorem Store.answer_store (sha256 : List UInt8 → Vector UInt8 32) (store : Store)
    (choice : StoreChoice) (st : Stmt) : (store.answer sha256 choice st).2 =
      match st.mutation with
      | none => store
      | some op => (store.perform sha256 ⟨op, choice.now, choice.failure⟩).2 := by
  cases st <;> rfl

/-- Every statement keeps a store such that it can be opened again. -/
theorem Kept.answer (h : Kept s e) {choice : StoreChoice} {q : Request} {st : Stmt}
    (hlater : ¬ choice.now.before e.clock) (hasks : s.Asks q st)
    (hmeets : ∀ op, st.mutation = some op →
      Operation.Reloads ⟨op, choice.now, choice.failure⟩ e.store.memory) :
    Kept s { store := (e.store.answer s.lib.sha256 choice st).2, clock := choice.now } := by
  rw [Store.answer_store]
  -- only the changes of the store matter
  cases hop : st.mutation with
  | none => exact ⟨h.inSync, h.valid.mono hlater, h.chained⟩
  | some op =>
    exact @Kept.perform s e h ⟨op, choice.now, choice.failure⟩ hlater (hasks.fits hop)
      (hmeets op hop)

/-- **A store can be opened again after every run** whose steps store no CA certificate without a
name and write the file. -/
theorem restarts_of_meets (s : Service) (clock : Time) (acts : List (Act (storeMachine s)))
    (u : State (storeMachine s)) (hs : Steps (newStore s clock) acts u)
    (hmeets : ∀ n a v w, TakenAt (newStore s clock) acts n a v w → MeetsAct v a) :
    Restarts s u.env := by
  suffices h : Kept s u.env ∧
      ∀ i c, u.call i = some c → c.rest.Issues (s.Asks c.request) from h.1.restarts
  induction hs with
  | nil => exact ⟨kept_newStore clock, fun i c hc => by cases hc⟩
  | @snoc acts a v w hs hn ih =>
    obtain ⟨hkept, hcalls⟩ := ih fun n a' v' w' htaken => hmeets n a' v' w' (htaken.snoc a)
    have hact := hmeets _ _ _ _ (TakenAt.last hs hn)
    obtain ⟨j, q, rfl, -, rfl⟩ | ⟨j, choice, q, st, k, loc, log, r, env, loc', rfl, hj, hx, rfl⟩ |
      ⟨m, env, rfl, hm, rfl⟩ := next_cases hn
    · refine ⟨hkept, fun i c hc => ?_⟩
      rw [State.call_put] at hc
      split at hc
      · cases hc
        exact s.asks q
      · exact hcalls i c hc
    · obtain ⟨hasks, hrest⟩ := hcalls j _ hj
      simp only [storeMachine] at hx
      split at hx
      · cases hx
      next hlater =>
      cases hx
      refine ⟨?_, fun i c hc => ?_⟩
      · exact hkept.answer hlater hasks fun op hop => hact _ st op hj rfl hop
      · rw [State.call_put] at hc
        split at hc
        · cases hc
          exact hrest _
        · exact hcalls i c hc
    · exact m.elim

end Runs

section Samples

/-- A registration that the gateway reports. -/
def sampleApproval : TimedEvent where
  serialNumber := "RA"
  action := "ra_registration_approved"
  performedBy := "ra:otp"
  performedAt := Time.unix 1

theorem program_sampleApproval (s : Service) :
    s.program (.appendExternalAudit sampleApproval) =
      .call (.appendAudit sampleApproval) fun r => .ret (.done r) := by
  have haction : trimSpace (toLower "ra_registration_approved") = "ra_registration_approved" := by
    decide +kernel
  have hevent : Service.withAction sampleApproval = sampleApproval := by
    simp only [Service.withAction, sampleApproval, haction]
  have hexternal : externalAuditActions.contains sampleApproval.action = true := by decide
  have hactor : trimSpace sampleApproval.performedBy ≠ "" := by decide +kernel
  have htime : sampleApproval.performedAt.isZero = false := by decide +kernel
  simp only [Service.program, Service.appendExternalAudit, hevent, hexternal, hactor, htime,
    Bool.not_true, Bool.false_eq_true, if_false]
  rfl

/-- A store with one event can be opened again. -/
theorem restarts_with_one_event : ∃ acts u,
    Steps (newStore sampleService (Time.unix 0)) acts u ∧
      u.env.store.memory.auditLog.length = 1 ∧ Restarts sampleService u.env := by
  have hruns : (runAll (newStore sampleService (Time.unix 0))
      [.spawn 0 (.appendExternalAudit sampleApproval), .run 0 { now := Time.unix 5 }]).map
        (·.env.store.memory.auditLog.length) = some 1 := by
    decide +kernel
  obtain ⟨u, hs, hlength⟩ := steps_of_view hruns
  refine ⟨_, u, hs, hlength, restarts_of_meets _ _ _ u hs fun n a v w htaken => ?_⟩
  have hact := htaken.act
  match n with
  | 0 =>
    obtain rfl := Option.some.inj hact
    trivial
  | 1 =>
    obtain rfl := Option.some.inj hact
    intro c st op hc hst hop
    -- the call was started in the step before
    obtain rfl := htaken.before.det (Steps.single rfl)
    rw [State.call_put_self] at hc
    obtain rfl := Option.some.inj hc
    dsimp only [storeMachine] at hst
    rw [program_sampleApproval] at hst
    obtain rfl := Option.some.inj hst
    obtain rfl := Option.some.inj hop
    exact .inr ⟨trivial, .inr (.inr ⟨rfl, by decide +kernel⟩)⟩
  | n + 2 => cases hact

/-- A deployment whose CA certificate has no common name. -/
def namelessService : Service := { sampleService with signerCA := sampleCA "" 1 }

/-- After its CA certificate was stored the store of such a deployment is not opened again. -/
theorem restart_refused : ∃ acts u,
    Steps (newStore namelessService (Time.unix 0)) acts u ∧
      newPersistentStore u.env.store.file (Time.unix 10) =
        .error (.text "invalid CA store state: certificate 01 is missing subject metadata") ∧
      ¬ Restarts namelessService u.env := by
  have hruns : (runAll (newStore namelessService (Time.unix 0))
      [.spawn 0 .initializeIssuerChain, .run 0 { now := Time.unix 5 },
        .run 0 { now := Time.unix 5 }, .run 0 { now := Time.unix 5 }]).map (fun u => (u.env.clock,
          (newPersistentStore u.env.store.file (Time.unix 10)).map fun _ => ())) =
        some (Time.unix 5, .error
          (.text "invalid CA store state: certificate 01 is missing subject metadata")) := by
    decide +kernel
  obtain ⟨u, hs, hview⟩ := steps_of_view hruns
  obtain ⟨hclock, hopened⟩ := Prod.mk.inj hview
  have hrefused : newPersistentStore u.env.store.file (Time.unix 10) =
      .error (.text "invalid CA store state: certificate 01 is missing subject metadata") := by
    cases hresult : newPersistentStore u.env.store.file (Time.unix 10) with
    | ok reloaded =>
      rw [hresult] at hopened
      cases hopened
    | error err =>
      rw [hresult] at hopened
      exact congrArg _ (Except.error.inj hopened)
  refine ⟨_, u, hs, hrefused, fun hrestarts => ?_⟩
  obtain ⟨reloaded, hok, -⟩ := hrestarts (Time.unix 10) (by rw [hclock]; decide +kernel)
  rw [hrefused] at hok
  cases hok

end Samples

end Ca
