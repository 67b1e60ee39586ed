import MiniBanking.Ca.Store

/-!
# The queries of the JSON store

## Main definitions

* `Memory.getCertificate`, `Memory.listCertificates`, `Memory.listAudit`: what is read
* `Memory.verifyAuditChain`: the replay of the log

## Main results

* `verifyEvents_ok`: events are found in order if they are as rows of a chained log
-/

namespace Go

/-- `strings.Contains` -/
def contains (s part : String) : Bool := decide (part.toList <:+: s.toList)

end Go

namespace Ca

open Go

/-! ## Certificates -/

/-- `strings.TrimSpace(strings.ToLower(s))` -/
def foldText (s : String) : String := trimSpace (toLower s)

/-- The record with a status. -/
def withStatus (record : CertificateRecord) (status : CertStatus) : CertificateRecord :=
  { record with status }

/-- The filter lets a certificate through. -/
def ListFilter.admits (filter : ListFilter) (now : Time) (record : CertificateRecord) : Bool :=
  let status := foldText filter.status
  let certType := foldText filter.certType
  let issuerID := foldText filter.issuerID
  let ownerID := foldText filter.ownerID
  let email := foldText filter.subjectEmail
  let serial := foldText filter.serialNumber
  (status = "" || resolveRecordStatus record now = status) &&
    (certType = "" || toLower record.certType = certType) &&
    (issuerID = "" || toLower record.issuerID = issuerID) &&
    (ownerID = "" || contains (toLower record.ownerID) ownerID) &&
    (email = "" || contains (toLower record.subjectEmail) email) &&
    (serial = "" || contains (toLower record.serialNumber) serial)

/-- A page of a list, after `offset` elements. -/
def page {A : Type} (limit offset : ℤ) (l : List A) : List A :=
  (l.drop offset.toNat).take (if limit ≤ 0 then 20 else limit.toNat)

namespace Memory

variable (m : Memory)

def getCertificate (serial : String) : Except Error CertificateRecord :=
  match m.certificates.lookup serial with
  | none => .error (wrap .certificateNotFound ["serial_number=", serial])
  | some record => .ok record

/-- The certificates that a filter lets through, with their statuses. -/
def matched (filter : ListFilter) (now : Time) : List CertificateRecord :=
  ((m.certificates.toList.map Prod.snd).filter (filter.admits now)).map fun record =>
    withStatus record (resolveRecordStatus record now)

/-- `ListCertificates`: a page of the certificates, the last issued first, and their number. -/
def listCertificates (filter : ListFilter) (now : Time) : List CertificateRecord × ℕ :=
  let sorted := (m.matched filter now).mergeSort fun r r' => !r'.issuedAt.after r.issuedAt
  (page filter.limit filter.offset sorted, sorted.length)

end Memory

/-! ## Events -/

/-- An event that was stored, as it is listed. -/
def StoredEvent.timed (e : StoredEvent) : TimedEvent where
  serialNumber := e.serialNumber
  certType := e.certType
  issuerID := e.issuerID
  action := e.action
  performedBy := e.performedBy
  reason := e.reason
  performedAt := e.performedAt
  metadata := if e.metadata = ∅ then none else some e.metadata.toList

/-- The filter lets an event through. -/
def AuditFilter.admits (filter : AuditFilter) (e : StoredEvent) : Bool :=
  let serial := foldText filter.serialNumber
  let action := foldText filter.action
  let performedBy := foldText filter.performedBy
  let requestID := trimSpace filter.requestID
  (serial = "" || contains (toLower e.serialNumber) serial) &&
    (action = "" || e.action = action) &&
    (performedBy = "" || contains (toLower e.performedBy) performedBy) &&
    (requestID = "" || (e.metadata.lookup "request_id").getD "" = requestID) &&
    (filter.since.isZero || !e.performedAt.before filter.since) &&
    (filter.till.isZero || e.performedAt.before filter.till)

namespace Memory

variable (m : Memory)

/-- `ListAudit`: a page of the events, the last one first, and their number. -/
def listAudit (filter : AuditFilter) : List TimedEvent × ℕ :=
  let sorted := (m.auditLog.filter filter.admits).mergeSort fun e e' =>
    !e'.performedAt.after e.performedAt
  let limit := if filter.limit ≤ 0 then 20 else min filter.limit 100
  ((page limit filter.offset sorted).map StoredEvent.timed, sorted.length)

end Memory

/-! ## The replay -/

/-- The fields of an event that its hash covers. -/
def StoredEvent.hashFields (e : StoredEvent) : List String := auditHashFields e.timed.toAuditEvent

section Replay

variable (H : String → List String → String)

/-- The replay of the events from a number on, after `checked` of them, the last of which has the
hash `running`. -/
def verifyEvents : (index : ℕ) → (running : Option String) → (checked : ℕ) → List StoredEvent →
    Audit.Verification
  | _, _, checked, [] => { ok := true, checked }
  | index, running, checked, e :: events =>
    -- an event from before there was a chain
    if e.hash = "" then verifyEvents (index + 1) running checked events
    else
      let prev := running.getD e.prevHash
      if e.prevHash ≠ prev then
        { ok := false, checked, brokenSeq := index + 1,
          detail := "prev_hash does not match the previous event" }
      else if H prev e.hashFields ≠ e.hash then
        { ok := false, checked, brokenSeq := index + 1,
          detail := "hash does not match the event contents" }
      else verifyEvents (index + 1) (some e.hash) (checked + 1) events

/-- An event as a row of a chained log. -/
def StoredEvent.row (e : StoredEvent) (index : ℕ) : Audit.Row where
  seq := index + 1
  id := ""
  prevHash := e.prevHash
  hash := e.hash
  fields := e.hashFields

/-- Events as rows of a chained log, from a number on. -/
def rowsFrom : ℕ → List StoredEvent → List Audit.Row
  | _, [] => []
  | index, e :: events => e.row index :: rowsFrom (index + 1) events

variable {H}

theorem verifyEvents_ok {index checked : ℕ} {running : Option String} {events : List StoredEvent}
    {n : ℕ} (h : Audit.verifyFrom H running checked (rowsFrom index events) =
      { ok := true, checked := n }) :
    verifyEvents H index running checked events = { ok := true, checked := n } := by
  induction events generalizing index running checked with
  | nil => exact h
  | cons e events ih =>
    simp only [rowsFrom, Audit.verifyFrom, StoredEvent.row] at h
    rw [verifyEvents]
    split
    · next hempty =>
      rw [if_pos hempty] at h
      exact ih h
    next hempty =>
    rw [if_neg hempty] at h
    dsimp only at h ⊢
    split
    · next hprev =>
      rw [if_pos hprev] at h
      cases h
    next hprev =>
    rw [if_neg hprev] at h
    split
    · next hhash =>
      rw [if_pos hhash] at h
      cases h
    next hhash =>
    rw [if_neg hhash] at h
    exact ih h

end Replay

/-- `VerifyAuditChain`: the replay of the log in memory. -/
def Memory.verifyAuditChain (sha256 : List UInt8 → Vector UInt8 32) (m : Memory) :
    Audit.Verification :=
  verifyEvents (auditChainHash sha256) 0 none 0 m.auditLog

end Ca
