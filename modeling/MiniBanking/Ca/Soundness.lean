import MiniBanking.Audit.Soundness
import MiniBanking.Ca.Statement

/-!
# The log of the CA that nobody has changed

What the operations of the CA append to its log has no blanks at its ends, so that the columns
give it back. An event that the gateway hands in is stored as it is: its texts may be cut, and a
reason of blanks is stored as none.

## Main definitions

* `journal`: the log of the CA
* `TimedEvent.Canonical`: an event whose texts are given back
* `Request.Canonical`: a call that appends only such events

## Main results

* `operations_sound`: the replay accepts every log of such calls
-/

namespace Ca

open Audit Concurrency Go Postgres Service

/-! ## The log -/

/-- What the columns make of an event. -/
theorem AuditEvent.row_eq {e : AuditEvent} {prevHash hash : String} {n : ℤ} {id : Uuid}
    {r : AuditRow} (h : e.row prevHash hash n id = some r) :
    r.seq = n ∧ Checked.of 30 auditActions e.action = some r.action ∧
      Varchar.of 128 e.serialNumber = some r.serialNumber ∧
      Varchar.of 255 e.performedBy = some r.performedBy ∧
      nullableString Text.of e.reason = some r.reason ∧
      (∃ v, Varchar.of 64 prevHash = some v ∧ r.prevHash = some v) ∧
      ∃ v, Varchar.of 64 hash = some v ∧ r.hash = some v := by
  simp only [AuditEvent.row, Option.bind_eq_bind] at h
  obtain ⟨-, -, h⟩ := Option.bind_eq_some_iff.mp h
  obtain ⟨action, ha, h⟩ := Option.bind_eq_some_iff.mp h
  obtain ⟨w, hw, h⟩ := Option.bind_eq_some_iff.mp h
  split at h
  swap
  · cases h
  obtain ⟨sn, hsn, h⟩ := Option.bind_eq_some_iff.mp h
  obtain ⟨certType, _, h⟩ := Option.bind_eq_some_iff.mp h
  obtain ⟨issuerID, _, h⟩ := Option.bind_eq_some_iff.mp h
  obtain ⟨performedBy, hby, h⟩ := Option.bind_eq_some_iff.mp h
  obtain ⟨p, hp, h⟩ := Option.bind_eq_some_iff.mp h
  obtain ⟨v, hv, h⟩ := Option.bind_eq_some_iff.mp h
  cases h
  exact ⟨rfl, ha, hsn, hby, hw, ⟨p, hp, rfl⟩, v, hv, rfl⟩

/-- The log of the CA. -/
def journal : Journal TimedEvent AuditRow where
  table := auditTable
  fields e := auditHashFields e.toAuditEvent
  row e := e.toAuditEvent.row
  read_row h hprev hhash := by
    obtain ⟨hseq, -, -, -, -, ⟨p, hp, hp'⟩, v, hv, hv'⟩ := AuditEvent.row_eq h
    refine ⟨hseq, ?_, ?_⟩
    · simp only [auditTable, hp', coalesce]
      exact keptBy_varchar hprev p hp
    · simp only [auditTable, hv', coalesce]
      exact keptBy_varchar hhash v hv
  length_hash r := length_coalesce_varchar r.hash

/-- The columns give back the texts of the event: none is too long by blanks, and the reason is
not of blanks only. -/
structure TimedEvent.Canonical (e : TimedEvent) : Prop where
  serialNumber : KeptBy (Varchar.of 128) (·.1) e.serialNumber
  performedBy : KeptBy (Varchar.of 255) (·.1) e.performedBy
  reason : trimSpace e.reason = "" → e.reason = ""

theorem TimedEvent.Canonical.readsBack {e : TimedEvent} (h : e.Canonical) :
    journal.ReadsBack e := by
  intro prevHash hash n id r hr
  obtain ⟨-, ha, hsn, hby, hw, -⟩ := AuditEvent.row_eq hr
  have haction : r.action.1 = e.action := keptBy_checked (by decide) e.action r.action ha
  have hserial : r.serialNumber.1 = e.serialNumber := h.serialNumber r.serialNumber hsn
  have hperformed : r.performedBy.1 = e.performedBy := h.performedBy r.performedBy hby
  have hreason : coalesce (·.1) r.reason = e.reason := by
    unfold nullableString at hw
    split at hw
    · next hblank =>
      rw [← Option.some.inj hw, h.reason hblank]
      rfl
    · obtain ⟨w, hw, hw'⟩ := Option.map_eq_some_iff.mp hw
      rw [← hw']
      exact Text.of_eq hw
  show r.fields = auditHashFields e.toAuditEvent
  rw [AuditRow.fields, haction, hserial, hperformed, hreason, auditHashFields]

/-! ## What the operations append -/

/-- A text that does not end with a blank is kept: it is not too long by blanks. -/
theorem keptBy_of_getLast? {n : ℕ} {s : String} (h : s.toList.getLast? ≠ some ' ') :
    KeptBy (Varchar.of n) (·.1) s := by
  intro v hv
  have hin := Varchar.of_eq hv
  by_cases hlen : s.toList.length ≤ n
  · exact varcharIn_eq hin hlen
  obtain ⟨t, ht, hcut⟩ := Option.bind_eq_some_iff.mp hin
  rw [textIn_eq ht, if_neg hlen] at hcut
  split at hcut
  · next hblank =>
    have hrest : s.toList.drop n ≠ [] := by
      rw [Ne, List.drop_eq_nil_iff]
      omega
    have hlast := List.all_eq_true.mp hblank _ (List.getLast_mem hrest)
    rw [List.getLast_drop, decide_eq_true_eq] at hlast
    have hnil : s.toList ≠ [] := fun hnil => hlen (by rw [hnil]; exact Nat.zero_le n)
    rw [List.getLast?_eq_some_getLast hnil, hlast] at h
    exact absurd rfl h
  · cases hcut

theorem keptBy_trimSpace (n : ℕ) (s : String) : KeptBy (Varchar.of n) (·.1) (trimSpace s) :=
  keptBy_of_getLast? fun h => absurd (getLast?_trimSpace h) (by decide)

theorem keptBy_hex (n : ℕ) (bytes : List UInt8) : KeptBy (Varchar.of n) (·.1) (hex bytes) :=
  keptBy_of_getLast? fun h =>
    absurd (isHexDigit_of_mem_hex (List.mem_of_getLast? h)) (by decide)

theorem keptBy_defaultActor (value : String) {fallback : String}
    (h : fallback.toList.length ≤ 255) :
    KeptBy (Varchar.of 255) (·.1) (defaultActor value fallback) := by
  simp only [defaultActor]
  split
  · exact keptBy_varchar h
  · exact keptBy_trimSpace 255 value

theorem canonical_issuedEvent (s : Service) {input input' : RegisterInput} {csr : Csr}
    (h : s.checkInput input = .ok (input', csr)) (cert : Issued) (now : Time) :
    (issuedEvent input' (s.clientRecord input' csr cert now) now).Canonical := by
  obtain ⟨rfl, -⟩ := s.checkInput_ok h
  exact {
    serialNumber := keptBy_hex 128 cert.serialNumber
    performedBy := keptBy_defaultActor input.performedBy
      (show "system:ca-service".toList.length ≤ 255 by decide)
    reason := fun _ => rfl }

theorem canonical_recordEvent (serial action performedBy : String) {fallback reason : String}
    (hfallback : fallback.toList.length ≤ 255) (hreason : trimSpace reason = "" → reason = "")
    (metadata : List (String × String)) (record : CertificateRecord) (now : Time) :
    (recordEvent (trimSpace serial) action (defaultActor performedBy fallback) reason metadata
      record now).Canonical where
  serialNumber := keptBy_trimSpace 128 serial
  performedBy := keptBy_defaultActor performedBy hfallback
  reason := hreason

-- texts are not computed below
attribute [local irreducible] trimSpace toLower

/-- An event that is handed in is stored as it is. -/
theorem TimedEvent.Canonical.handedIn {event : TimedEvent} (h : event.Canonical) (now : Time) :
    (withAction event).Canonical ∧ (atTime (withAction event) now).Canonical :=
  ⟨⟨h.serialNumber, h.performedBy, h.reason⟩, ⟨h.serialNumber, h.performedBy, h.reason⟩⟩

/-- A call that hands in no event but canonical ones. -/
def Request.Canonical : Request → Prop
  | .appendExternalAudit event => event.Canonical
  | _ => True

/-- **Such a call appends no event but canonical ones.** -/
theorem Service.Asks.canonical {s : Service} {q : Request} {e : TimedEvent}
    (h : s.Asks q (.appendAudit e)) (hq : q.Canonical) : e.Canonical := by
  cases h with
  | appendIssued hinput cert now => exact canonical_issuedEvent s hinput cert now
  | appendRecord q serial action performedBy metadata record now hfallback hreason =>
    exact canonical_recordEvent serial action performedBy hfallback hreason metadata record now
  | appendExternal event => exact (TimedEvent.Canonical.handedIn hq .zero).1
  | appendExternalAt event now => exact (TimedEvent.Canonical.handedIn hq now).2

/-! ## The replay -/

/-- The event is appended by a call of the kind, after some replies to its other statements. -/
def AppendedBy (s : Service) (good : Request → Prop) (e : TimedEvent) : Prop :=
  ∃ q, good q ∧ (s.program q).MayIssue (.appendAudit e)

/-- **No false alarm**: however the events of such calls are appended, the replay finds every row
in order. -/
theorem operations_sound (s : Service) :
    journal.Sound (auditChainHash s.lib.sha256) (verifyAuditChain s.lib.sha256)
      (AppendedBy s Request.Canonical) :=
  Journal.sound_of fun _ ⟨_, hq, he⟩ =>
    TimedEvent.Canonical.readsBack (((s.asks _).of_mayIssue he).canonical hq)

section Samples

theorem mayIssue_appendExternalAudit {event : TimedEvent}
    (haction : externalAuditActions.contains (withAction event).action = true)
    (hactor : trimSpace (withAction event).performedBy ≠ "")
    (htime : (withAction event).performedAt.isZero = false) :
    (appendExternalAudit event).MayIssue (.appendAudit (withAction event)) := by
  simp only [appendExternalAudit, haction, hactor, htime, Bool.not_true, Bool.false_eq_true,
    if_false]
  exact .here _ _

/-- A failed code, as the gateway reports it. -/
def sampleReport (reason : String) : TimedEvent where
  serialNumber := "RA"
  action := "ra_otp_failed"
  performedBy := "ra:otp"
  reason := reason
  performedAt := Time.unix 1

theorem mayIssue_sampleReport (reason : String) :
    (sampleService.program (.appendExternalAudit (sampleReport reason))).MayIssue
      (.appendAudit (sampleReport reason)) := by
  have haction : trimSpace (toLower "ra_otp_failed") = "ra_otp_failed" := by decide +kernel
  have hevent : withAction (sampleReport reason) = sampleReport reason := by
    simp only [withAction, sampleReport, haction]
  have hissue := @mayIssue_appendExternalAudit (sampleReport reason)
    (by rw [hevent]; exact show externalAuditActions.contains "ra_otp_failed" = true by decide)
    (by rw [hevent]; exact show trimSpace "ra:otp" ≠ "" by decide +kernel)
    (by rw [hevent]; exact show (Time.unix 1).isZero = false by decide +kernel)
  rw [hevent] at hissue
  exact hissue.bind _

/-- A reported event is found in order. -/
theorem operations_sound_of_report : ∃ acts s,
    Steps (logWith journal (auditChainHash sampleLibrary.sha256) [] 1) acts s ∧
      verifyAuditChain sampleLibrary.sha256 s.env.rows = { ok := true, checked := 1 } := by
  have hruns : (runAll (logWith journal (auditChainHash sampleLibrary.sha256) [] 1)
      (sampleAppend _ _ 0 (sampleReport "wrong code"))).map (·.env.rows.length) = some 1 := by
    decide +kernel
  obtain ⟨s, hs, hlen⟩ := steps_of_view hruns
  refine ⟨_, s, hs, hlen ▸ ?_⟩
  refine operations_sound sampleService 1 _ s hs fun i e he => ?_
  rw [eq_of_spawn_sampleAppend he]
  refine ⟨.appendExternalAudit (sampleReport "wrong code"), ?_, mayIssue_sampleReport _⟩
  exact ⟨keptBy_varchar (by decide), keptBy_varchar (by decide),
    fun hblank => absurd hblank (by decide +kernel)⟩

/-- A reason of one blank is stored as none, and the replay does not find the hash of what was
written. -/
theorem operations_not_sound :
    ¬ journal.Sound (auditChainHash sampleLibrary.sha256) (verifyAuditChain sampleLibrary.sha256)
      (AppendedBy sampleService fun _ => True) := by
  intro hsound
  have hruns : (runAll (logWith journal (auditChainHash sampleLibrary.sha256) [] 1)
      (sampleAppend _ _ 0 (sampleReport " "))).map
      (fun s => (verifyAuditChain sampleLibrary.sha256 s.env.rows).ok) = some false := by
    decide +kernel
  obtain ⟨s, hs, hok⟩ := steps_of_view hruns
  rw [hsound 1 _ s hs fun i e he => ?_] at hok
  · cases hok
  · rw [eq_of_spawn_sampleAppend he]
    exact ⟨_, trivial, mayIssue_sampleReport " "⟩

end Samples

end Ca
