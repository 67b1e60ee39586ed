import MiniBanking.Audit.Append
import MiniBanking.Audit.Services

/-!
# Logs that nobody has changed

The services hash the texts of an event, and the replay hashes what the columns give back. The
two agree on the events whose texts the columns give back as they were: a `uuid` is printed in one
form only, and a `varchar(n)` cuts blanks off what is too long.

## Main definitions

* `Journal.Sound`: the replay accepts the log after every run of such events
* `Bank.journal`, `Kdc.journal`: the logs of the bank and of the KDC
* `Bank.AuditEvent.Canonical`, `Kdc.AuditInput.Canonical`: events whose texts are given back

## Main results

* `journals_sound`: the replays accept every log of canonical events
-/

namespace Audit

open Concurrency Go Postgres

/-- **No false alarm**: however the transactions on an empty log are interleaved, the replay finds
every row in order if all the events are `good`. -/
def Journal.Sound {E R : Type} (J : Journal E R) (H : String → List String → String)
    (replay : List R → Verification) (good : E → Prop) : Prop :=
  ∀ (n : ℤ) (acts : List (Act (appendMachine J H))) (s : State (appendMachine J H)),
    Steps (logWith J H [] n) acts s → (∀ i e, .spawn i e ∈ acts → good e) →
    replay s.env.rows = { ok := true, checked := s.env.rows.length }

/-- Reading back keeps a log in order. -/
theorem Journal.sound_of {E R : Type} {J : Journal E R} {sha256 : List UInt8 → Vector UInt8 32}
    {good : E → Prop} (h : ∀ e, good e → J.ReadsBack e) :
    J.Sound (chainHash sha256) (fun rs => verify (chainHash sha256) (J.table.rows rs)) good :=
  fun _ _ _ hs hgood => verify_appended length_chainHash hs fun i e he => h e (hgood i e he)

/-! ## What the columns give back -/

/-- The column keeps the text, if it takes it. -/
def KeptBy {α : Type} (column : String → Option α) (text : α → String) (s : String) : Prop :=
  ∀ a, column s = some a → text a = s

instance {α : Type} (column : String → Option α) (text : α → String) (s : String) :
    Decidable (KeptBy column text s) :=
  decidable_of_iff (∀ a ∈ column s, text a = s) Iff.rfl

theorem KeptBy.coalesce {α : Type} {column : String → Option α} {text : α → String} {s : String}
    (h : KeptBy column text s) {a : Option α} (ha : nullif column s = some a) :
    Postgres.coalesce text a = s := by
  obtain ⟨rfl, hnil⟩ | ⟨-, b, hb, htext⟩ := @coalesce_nullif _ _ text _ _ ha
  · exact hnil
  · rw [htext, h b hb]

theorem keptBy_text (s : String) : KeptBy Text.of (·.1) s := fun _ => Text.of_eq

/-- A text that is not too long is kept. -/
theorem keptBy_varchar {n : ℕ} {s : String} (h : s.toList.length ≤ n) :
    KeptBy (Varchar.of n) (·.1) s :=
  fun _ ha => varcharIn_eq (Varchar.of_eq ha) h

/-- A text of a check is kept if all the texts of the check are short of the column. -/
theorem keptBy_checked {n : ℕ} {values : List String} (h : ∀ v ∈ values, v.toList.length < n)
    (s : String) : KeptBy (Checked.of n values) (·.1) s := by
  intro a ha
  have hin := Checked.of_eq ha
  have hlt := h a.1 a.2.2
  refine varcharIn_eq hin ?_
  -- what is cut is as long as the column
  obtain ⟨s', hs, hcut⟩ := Option.bind_eq_some_iff.mp hin
  rw [textIn_eq hs] at hcut
  by_contra hlong
  rw [if_neg hlong] at hcut
  split at hcut
  · rw [← Option.some.inj hcut, String.toList_ofList, List.length_take] at hlt
    omega
  · cases hcut

end Audit

namespace Bank

open Audit Concurrency Go Postgres

/-- What the columns make of an event. -/
theorem AuditEvent.row_eq {e : AuditEvent} {prevHash hash : String} {n : ℤ} {id : Uuid}
    {r : AuditRow} (h : e.row prevHash hash n id = some r) :
    r.seq = n ∧ Checked.of 40 auditActions e.action = some r.action ∧
      nullif uuidIn e.userID = some r.userID ∧ nullif uuidIn e.accountID = some r.accountID ∧
      nullif uuidIn e.transactionID = some r.transactionID ∧
      nullif (Varchar.of 128) e.certSerial = some r.certSerial ∧
      nullif (Varchar.of 64) e.requestID = some r.requestID ∧
      nullif Text.of e.reason = some r.reason ∧
      (∃ v, Varchar.of 64 prevHash = some v ∧ r.prevHash = some v) ∧
      ∃ v, Varchar.of 64 hash = some v ∧ r.hash = some v := by
  simp only [AuditEvent.row, Option.bind_eq_bind, Option.bind_eq_some_iff, Option.pure_def,
    Option.some.injEq] at h
  obtain ⟨-, -, a, ha, u, hu, ac, hac, t, ht, c, hc, q, hq, w, hw, p, hp, v, hv, rfl⟩ := h
  exact ⟨rfl, ha, hu, hac, ht, hc, hq, hw, ⟨p, hp, rfl⟩, v, hv, rfl⟩

/-- The log of the bank. -/
def journal : Journal AuditEvent AuditRow where
  table := auditTable
  fields := auditHashFields
  row := AuditEvent.row
  read_row h hprev hhash := by
    obtain ⟨hseq, -, -, -, -, -, -, -, ⟨p, hp, hp'⟩, v, hv, hv'⟩ := AuditEvent.row_eq h
    refine ⟨hseq, ?_, ?_⟩
    · simp only [auditTable, hp', coalesce]
      exact keptBy_varchar hprev p hp
    · simp only [auditTable, hv', coalesce]
      exact keptBy_varchar hhash v hv
  length_hash r := length_coalesce_varchar r.hash

/-- The columns give back the texts of the event: ids that are written as `uuid` prints them, and
no serial number or request id that is too long by blanks. -/
structure AuditEvent.Canonical (e : AuditEvent) : Prop where
  userID : KeptBy uuidIn Uuid.text e.userID
  accountID : KeptBy uuidIn Uuid.text e.accountID
  transactionID : KeptBy uuidIn Uuid.text e.transactionID
  certSerial : KeptBy (Varchar.of 128) (·.1) e.certSerial
  requestID : KeptBy (Varchar.of 64) (·.1) e.requestID

theorem AuditEvent.Canonical.readsBack {e : AuditEvent} (h : e.Canonical) :
    journal.ReadsBack e := by
  intro prevHash hash n id r hr
  obtain ⟨-, ha, hu, hac, ht, hc, hq, hw, -⟩ := AuditEvent.row_eq hr
  have haction : r.action.1 = e.action := keptBy_checked (by decide) e.action r.action ha
  show r.fields = auditHashFields e
  rw [AuditRow.fields, haction, h.userID.coalesce hu, h.accountID.coalesce hac,
    h.transactionID.coalesce ht, h.certSerial.coalesce hc, h.requestID.coalesce hq,
    (keptBy_text e.reason).coalesce hw, auditHashFields]

theorem journal_sound (svc : Service) :
    journal.Sound (auditChainHash svc) (verifyAuditChain svc) AuditEvent.Canonical :=
  Journal.sound_of fun _ => AuditEvent.Canonical.readsBack

end Bank

namespace Kdc

open Audit Concurrency Go Postgres

/-- What the columns make of an event. -/
theorem AuditInput.row_eq {e : AuditInput} {prevHash hash : String} {n : ℤ} {id : Uuid}
    {r : AuditRow} (h : e.row prevHash hash n id = some r) :
    r.seq = n ∧ Checked.of 30 auditActions e.action = some r.action ∧
      nullif (Varchar.of 255) e.clientID = some r.clientID ∧
      nullif (Varchar.of 128) e.certSerial = some r.certSerial ∧
      nullif (Varchar.of 64) e.scope = some r.scope ∧ nullif Text.of e.reason = some r.reason ∧
      nullif (Varchar.of 64) e.requestID = some r.requestID ∧
      (∃ v, Varchar.of 64 prevHash = some v ∧ r.prevHash = some v) ∧
      ∃ v, Varchar.of 64 hash = some v ∧ r.hash = some v := by
  simp only [AuditInput.row, Option.bind_eq_bind, Option.bind_eq_some_iff, Option.pure_def,
    Option.some.injEq] at h
  obtain ⟨a, ha, c, hc, sn, hsn, sc, hsc, w, hw, q, hq, -, -, p, hp, v, hv, rfl⟩ := h
  exact ⟨rfl, ha, hc, hsn, hsc, hw, hq, ⟨p, hp, rfl⟩, v, hv, rfl⟩

/-- The log of the KDC. -/
def journal : Journal AuditInput AuditRow where
  table := auditTable
  fields := auditHashFields
  ignores e := e.action = ""
  row := AuditInput.row
  read_row h hprev hhash := by
    obtain ⟨hseq, -, -, -, -, -, -, ⟨p, hp, hp'⟩, v, hv, hv'⟩ := AuditInput.row_eq h
    refine ⟨hseq, ?_, ?_⟩
    · simp only [auditTable, hp', coalesce]
      exact keptBy_varchar hprev p hp
    · simp only [auditTable, hv', coalesce]
      exact keptBy_varchar hhash v hv
  length_hash r := length_coalesce_varchar r.hash

/-- The columns give back the texts of the event, as none is too long by blanks. -/
structure AuditInput.Canonical (e : AuditInput) : Prop where
  clientID : KeptBy (Varchar.of 255) (·.1) e.clientID
  certSerial : KeptBy (Varchar.of 128) (·.1) e.certSerial
  scope : KeptBy (Varchar.of 64) (·.1) e.scope
  requestID : KeptBy (Varchar.of 64) (·.1) e.requestID

theorem AuditInput.Canonical.readsBack {e : AuditInput} (h : e.Canonical) :
    journal.ReadsBack e := by
  intro prevHash hash n id r hr
  obtain ⟨-, ha, hc, hsn, hsc, hw, hq, -⟩ := AuditInput.row_eq hr
  have haction : r.action.1 = e.action := keptBy_checked (by decide) e.action r.action ha
  show r.fields = auditHashFields e
  rw [AuditRow.fields, haction, h.clientID.coalesce hc, h.certSerial.coalesce hsn,
    h.scope.coalesce hsc, (keptBy_text e.reason).coalesce hw, h.requestID.coalesce hq,
    auditHashFields]

theorem journal_sound (s : Service) :
    journal.Sound (auditChainHash s) (verifyAuditChain s) AuditInput.Canonical :=
  Journal.sound_of fun _ => AuditInput.Canonical.readsBack

end Kdc

namespace Audit

open Concurrency Go Postgres

/-- **No false alarm**: the replays of the bank and of the KDC find every row of a log in order to
which only canonical events were appended. -/
theorem journals_sound (svc : Bank.Service) (s : Kdc.Service) :
    Bank.journal.Sound (Bank.auditChainHash svc) (Bank.verifyAuditChain svc)
        Bank.AuditEvent.Canonical ∧
      Kdc.journal.Sound (Kdc.auditChainHash s) (Kdc.verifyAuditChain s)
        Kdc.AuditInput.Canonical :=
  ⟨Bank.journal_sound svc, Kdc.journal_sound s⟩

section Samples

/-- A transaction that appends an event, without a failure. -/
def sampleAppend {E R : Type} (J : Journal E R) (H : String → List String → String) (i : ℕ)
    (e : E) : List (Act (appendMachine J H)) :=
  let choice : Journal.Choice := { id := Vector.replicate 16 (UInt8.ofNat i) }
  .spawn i e :: List.replicate 5 (.run i choice)

theorem eq_of_spawn_sampleAppend {E R : Type} {J : Journal E R}
    {H : String → List String → String} {i j : ℕ} {e e' : E}
    (h : .spawn i e ∈ sampleAppend J H j e') : e = e' := by
  simp only [sampleAppend, List.mem_cons, Act.spawn.injEq, List.mem_replicate, reduceCtorEq,
    and_false, or_false] at h
  exact h.2

/-- An event of the bank about a user. -/
def sampleEvent (userID : String) : Bank.AuditEvent where
  action := "transfer_rejected"
  userID := userID
  certSerial := "01"
  reason := "daily limit exceeded"

/-- An event of the KDC. -/
def sampleInput : Kdc.AuditInput where
  action := "as_rejected"
  clientID := "alice"
  reason := "certificate is expired"

theorem sampleEvent_canonical (n : ℕ) : (sampleEvent (Bank.sampleUser n)).Canonical where
  userID u hu := by
    rw [show (sampleEvent (Bank.sampleUser n)).userID = Bank.sampleUser n from rfl, Bank.sampleUser,
      uuidIn_text] at hu
    rw [← Option.some.inj hu]
    rfl
  accountID := show KeptBy uuidIn Uuid.text "" by decide
  transactionID := show KeptBy uuidIn Uuid.text "" by decide
  certSerial := keptBy_varchar (show "01".toList.length ≤ 128 by decide)
  requestID := keptBy_varchar (Nat.zero_le 64)

/-- Two events of the bank and one of the KDC are found in order. -/
theorem journals_sound_of_run :
    (∃ acts s, Steps (logWith Bank.journal (Bank.auditChainHash Bank.sampleService) [] 1) acts s ∧
      Bank.verifyAuditChain Bank.sampleService s.env.rows =
        { ok := true, checked := 2 }) ∧
    ∃ acts s, Steps (logWith Kdc.journal (Kdc.auditChainHash (Kdc.sampleService 0)) [] 1) acts s ∧
      Kdc.verifyAuditChain (Kdc.sampleService 0) s.env.rows =
        { ok := true, checked := 1 } := by
  have hsound := journals_sound Bank.sampleService (Kdc.sampleService 0)
  constructor
  · have hruns : (runAll (logWith Bank.journal (Bank.auditChainHash Bank.sampleService) [] 1)
        (sampleAppend _ _ 0 (sampleEvent (Bank.sampleUser 1)) ++
          sampleAppend _ _ 1 (sampleEvent (Bank.sampleUser 2)))).map (·.env.rows.length) =
        some 2 := by decide +kernel
    obtain ⟨s, hs, hlen⟩ := steps_of_view hruns
    refine ⟨_, s, hs, hlen ▸ hsound.1 1 _ s hs fun i e he => ?_⟩
    rcases List.mem_append.mp he with he | he
    · rw [eq_of_spawn_sampleAppend he]
      exact sampleEvent_canonical 1
    · rw [eq_of_spawn_sampleAppend he]
      exact sampleEvent_canonical 2
  · have hruns : (runAll (logWith Kdc.journal (Kdc.auditChainHash (Kdc.sampleService 0)) [] 1)
        (sampleAppend _ _ 0 sampleInput)).map (·.env.rows.length) = some 1 := by decide +kernel
    obtain ⟨s, hs, hlen⟩ := steps_of_view hruns
    refine ⟨_, s, hs, hlen ▸ hsound.2 1 _ s hs fun i e he => ?_⟩
    rw [eq_of_spawn_sampleAppend he]
    exact ⟨keptBy_varchar (by decide), keptBy_varchar (by decide), keptBy_varchar (by decide),
      keptBy_varchar (by decide)⟩

/-- The id of a user in capital letters is printed in small ones, and the replay does not find the
hash of what was written. -/
theorem journals_not_sound :
    ¬ Bank.journal.Sound (Bank.auditChainHash Bank.sampleService)
      (Bank.verifyAuditChain Bank.sampleService) fun _ => True := by
  intro hsound
  have hruns : (runAll (logWith Bank.journal (Bank.auditChainHash Bank.sampleService) [] 1)
      (sampleAppend _ _ 0 (sampleEvent "A0EEBC99-9C0B-4EF8-BB6D-6BB9BD380A11"))).map
      (fun s => (Bank.verifyAuditChain Bank.sampleService s.env.rows).ok) = some false := by
    decide +kernel
  obtain ⟨s, hs, hok⟩ := steps_of_view hruns
  rw [hsound 1 _ s hs fun _ _ _ => trivial] at hok
  cases hok

end Samples

end Audit
