import MiniBanking.Ca.Service
import MiniBanking.Go.JsonMap
import MiniBanking.Go.Rfc3339

/-!
# The state file of the JSON store

The store keeps issuers, certificates and its audit log in memory, and writes all of it into one
JSON file.

## Main definitions

* `StoredEvent`: an event with the hashes that link it to the one before
* `Memory`: what the store keeps
* `Memory.marshalJSON`, `Memory.unmarshalJSON`: the state into JSON and from it

## Main results

* `CertificateRecord.intoFields_json`, `IssuerRecord.intoFields_json`,
  `StoredEvent.intoFields_json`: a record is read back from its JSON
* `Memory.unmarshalJSON_marshalJSON`: the state is read back from its JSON
-/

namespace Go.Json

/-- A value into a field of type `*time.Time`. -/
def intoTimePointer (v : Json) (old : Option Time) : Option (Option Time) :=
  match v with
  | null => some none
  | v => (v.intoTime (old.getD .zero)).map some

theorem intoTimePointer_string (s : String) (old : Option Time) :
    (string s).intoTimePointer old = ((string s).intoTime (old.getD .zero)).map some := rfl

theorem intoTimePointer_json {t : Time} (h : t.encodable = true) (old : Option Time) :
    t.json.intoTimePointer old = some (some t) := by
  have hread := intoTime_json h (old.getD .zero)
  rw [Time.json] at hread ⊢
  rw [intoTimePointer_string, hread]
  rfl

section Fields

variable {σ α : Type} {fields : List (String × (Json → σ → Option σ))} {s t u : σ}

/-- Groups of members are read one after the other. -/
theorem intoFields_flatten {ms : List (String × Json)} {parts : List (List (String × Json))}
    (hms : (object ms).intoFields fields s = some t)
    (hparts : (object parts.flatten).intoFields fields t = some u) :
    (object (ms :: parts).flatten).intoFields fields s = some u := by
  rw [List.flatten_cons]
  exact intoFields_append hms hparts

/-- A value that is read into a part of a structure. -/
theorem bind_read {x : Option α} {a : α} {f : α → σ} (h : x = some a) :
    (do return f (← x)) = some (f a) := by
  rw [h]
  rfl

end Fields

end Go.Json

namespace Ca

open Go

/-! ## Certificates -/

/-- The times of a certificate. -/
def CertificateRecord.times (r : CertificateRecord) : List Time :=
  [r.notBefore, r.notAfter, r.issuedAt, r.createdAt, r.updatedAt] ++ r.revokedAt.toList

/-- The members of a certificate, by their names in JSON. -/
def CertificateRecord.members (r : CertificateRecord) : List (List (String × Json)) :=
  [[("serial_number", .string r.serialNumber)], [("cert_type", .string r.certType)],
    [("issuer_id", .string r.issuerID)], [("issuer_common_name", .string r.issuerCommonName)],
    [("issuer_serial_number", .string r.issuerSerial)], [("owner_id", .string r.ownerID)],
    [("role", .string r.role)], [("subject_cn", .string r.subjectCN)],
    [("subject_email", .string r.subjectEmail)], [("public_key_pem", .string r.publicKeyPEM)],
    [("certificate_pem", .string r.certificatePEM)],
    Json.omitempty (r.chainPEM = "") "chain_pem" (.string r.chainPEM),
    Json.omitempty (r.chainFingerprints = []) "chain_fingerprints"
      (Json.strings r.chainFingerprints),
    [("fingerprint_sha256", .string r.fingerprintSHA256)], [("is_ca", .bool r.isCA)],
    Json.omitempty (r.keyUsage = []) "key_usage" (Json.strings r.keyUsage),
    Json.omitempty (r.extendedKeyUsage = []) "extended_key_usage"
      (Json.strings r.extendedKeyUsage),
    [("not_before", r.notBefore.json)], [("not_after", r.notAfter.json)],
    [("status", .string r.status)], [("issued_at", r.issuedAt.json)],
    (r.revokedAt.map fun t => ("revoked_at", t.json)).toList,
    Json.omitempty (r.revocationReason = "") "revocation_reason" (.string r.revocationReason),
    [("created_at", r.createdAt.json)], [("updated_at", r.updatedAt.json)]]

/-- The JSON of a certificate. -/
def CertificateRecord.json (r : CertificateRecord) : Json := .object r.members.flatten

/-- The members that are read of a certificate. -/
def CertificateRecord.fields : List (String × (Json → CertificateRecord →
    Option CertificateRecord)) :=
  [("serial_number", fun v r => do
      return { r with serialNumber := ← v.intoString r.serialNumber }),
    ("cert_type", fun v r => do return { r with certType := ← v.intoString r.certType }),
    ("issuer_id", fun v r => do return { r with issuerID := ← v.intoString r.issuerID }),
    ("issuer_common_name", fun v r => do
      return { r with issuerCommonName := ← v.intoString r.issuerCommonName }),
    ("issuer_serial_number", fun v r => do
      return { r with issuerSerial := ← v.intoString r.issuerSerial }),
    ("owner_id", fun v r => do return { r with ownerID := ← v.intoString r.ownerID }),
    ("role", fun v r => do return { r with role := ← v.intoString r.role }),
    ("subject_cn", fun v r => do return { r with subjectCN := ← v.intoString r.subjectCN }),
    ("subject_email", fun v r => do
      return { r with subjectEmail := ← v.intoString r.subjectEmail }),
    ("public_key_pem", fun v r => do
      return { r with publicKeyPEM := ← v.intoString r.publicKeyPEM }),
    ("certificate_pem", fun v r => do
      return { r with certificatePEM := ← v.intoString r.certificatePEM }),
    ("chain_pem", fun v r => do return { r with chainPEM := ← v.intoString r.chainPEM }),
    ("chain_fingerprints", fun v r => do
      return { r with chainFingerprints := ← v.intoStrings r.chainFingerprints }),
    ("fingerprint_sha256", fun v r => do
      return { r with fingerprintSHA256 := ← v.intoString r.fingerprintSHA256 }),
    ("is_ca", fun v r => do return { r with isCA := ← v.intoBool r.isCA }),
    ("key_usage", fun v r => do return { r with keyUsage := ← v.intoStrings r.keyUsage }),
    ("extended_key_usage", fun v r => do
      return { r with extendedKeyUsage := ← v.intoStrings r.extendedKeyUsage }),
    ("not_before", fun v r => do return { r with notBefore := ← v.intoTime r.notBefore }),
    ("not_after", fun v r => do return { r with notAfter := ← v.intoTime r.notAfter }),
    ("status", fun v r => do return { r with status := ← v.intoString r.status }),
    ("issued_at", fun v r => do return { r with issuedAt := ← v.intoTime r.issuedAt }),
    ("revoked_at", fun v r => do return { r with revokedAt := ← v.intoTimePointer r.revokedAt }),
    ("revocation_reason", fun v r => do
      return { r with revocationReason := ← v.intoString r.revocationReason }),
    ("created_at", fun v r => do return { r with createdAt := ← v.intoTime r.createdAt }),
    ("updated_at", fun v r => do return { r with updatedAt := ← v.intoTime r.updatedAt })]

/-- The first `n` members of a certificate. -/
def CertificateRecord.upTo (r : CertificateRecord) (n : ℕ) : CertificateRecord where
  serialNumber := if 0 < n then r.serialNumber else ""
  certType := if 1 < n then r.certType else ""
  issuerID := if 2 < n then r.issuerID else ""
  issuerCommonName := if 3 < n then r.issuerCommonName else ""
  issuerSerial := if 4 < n then r.issuerSerial else ""
  ownerID := if 5 < n then r.ownerID else ""
  role := if 6 < n then r.role else ""
  subjectCN := if 7 < n then r.subjectCN else ""
  subjectEmail := if 8 < n then r.subjectEmail else ""
  publicKeyPEM := if 9 < n then r.publicKeyPEM else ""
  certificatePEM := if 10 < n then r.certificatePEM else ""
  chainPEM := if 11 < n then r.chainPEM else ""
  chainFingerprints := if 12 < n then r.chainFingerprints else []
  fingerprintSHA256 := if 13 < n then r.fingerprintSHA256 else ""
  isCA := if 14 < n then r.isCA else false
  keyUsage := if 15 < n then r.keyUsage else []
  extendedKeyUsage := if 16 < n then r.extendedKeyUsage else []
  notBefore := if 17 < n then r.notBefore else .zero
  notAfter := if 18 < n then r.notAfter else .zero
  status := if 19 < n then r.status else ""
  issuedAt := if 20 < n then r.issuedAt else .zero
  revokedAt := if 21 < n then r.revokedAt else none
  revocationReason := if 22 < n then r.revocationReason else ""
  createdAt := if 23 < n then r.createdAt else .zero
  updatedAt := if 24 < n then r.updatedAt else .zero

open Json in
/-- **A certificate is read back from its JSON.** -/
theorem CertificateRecord.intoFields_json {r : CertificateRecord}
    (htime : ∀ t ∈ r.times, t.encodable = true) :
    r.json.intoFields CertificateRecord.fields {} = some r := by
  refine intoFields_flatten (t := r.upTo 1) (intoFields_single rfl rfl) ?_
  refine intoFields_flatten (t := r.upTo 2) (intoFields_single rfl rfl) ?_
  refine intoFields_flatten (t := r.upTo 3) (intoFields_single rfl rfl) ?_
  refine intoFields_flatten (t := r.upTo 4) (intoFields_single rfl rfl) ?_
  refine intoFields_flatten (t := r.upTo 5) (intoFields_single rfl rfl) ?_
  refine intoFields_flatten (t := r.upTo 6) (intoFields_single rfl rfl) ?_
  refine intoFields_flatten (t := r.upTo 7) (intoFields_single rfl rfl) ?_
  refine intoFields_flatten (t := r.upTo 8) (intoFields_single rfl rfl) ?_
  refine intoFields_flatten (t := r.upTo 9) (intoFields_single rfl rfl) ?_
  refine intoFields_flatten (t := r.upTo 10) (intoFields_single rfl rfl) ?_
  refine intoFields_flatten (t := r.upTo 11) (intoFields_single rfl rfl) ?_
  refine intoFields_flatten (t := r.upTo 12) (intoFields_omitempty (fun h => ?_) rfl rfl) ?_
  · rw [show r.upTo 12 = { r.upTo 11 with chainPEM := r.chainPEM } from rfl, of_decide_eq_true h]
    rfl
  refine intoFields_flatten (t := r.upTo 13) (intoFields_omitempty (fun h => ?_) rfl
    (bind_read (intoStrings_strings _ _))) ?_
  · rw [show r.upTo 13 = { r.upTo 12 with chainFingerprints := r.chainFingerprints } from rfl,
      of_decide_eq_true h]
    rfl
  refine intoFields_flatten (t := r.upTo 14) (intoFields_single rfl rfl) ?_
  refine intoFields_flatten (t := r.upTo 15) (intoFields_single rfl rfl) ?_
  refine intoFields_flatten (t := r.upTo 16) (intoFields_omitempty (fun h => ?_) rfl
    (bind_read (intoStrings_strings _ _))) ?_
  · rw [show r.upTo 16 = { r.upTo 15 with keyUsage := r.keyUsage } from rfl, of_decide_eq_true h]
    rfl
  refine intoFields_flatten (t := r.upTo 17) (intoFields_omitempty (fun h => ?_) rfl
    (bind_read (intoStrings_strings _ _))) ?_
  · rw [show r.upTo 17 = { r.upTo 16 with extendedKeyUsage := r.extendedKeyUsage } from rfl,
      of_decide_eq_true h]
    rfl
  refine intoFields_flatten (t := r.upTo 18) (intoFields_single rfl
    (bind_read (intoTime_json (htime _ (by simp [times])) _))) ?_
  refine intoFields_flatten (t := r.upTo 19) (intoFields_single rfl
    (bind_read (intoTime_json (htime _ (by simp [times])) _))) ?_
  refine intoFields_flatten (t := r.upTo 20) (intoFields_single rfl rfl) ?_
  refine intoFields_flatten (t := r.upTo 21) (intoFields_single rfl
    (bind_read (intoTime_json (htime _ (by simp [times])) _))) ?_
  refine intoFields_flatten (t := r.upTo 22) ?_ ?_
  · cases hrevoked : r.revokedAt with
    | none =>
      rw [show r.upTo 22 = { r.upTo 21 with revokedAt := r.revokedAt } from rfl, hrevoked]
      rfl
    | some t =>
      rw [show r.upTo 22 = { r.upTo 21 with revokedAt := r.revokedAt } from rfl, hrevoked]
      exact intoFields_single rfl
        (bind_read (intoTimePointer_json (htime t (by simp [times, hrevoked])) _))
  refine intoFields_flatten (t := r.upTo 23) (intoFields_omitempty (fun h => ?_) rfl rfl) ?_
  · rw [show r.upTo 23 = { r.upTo 22 with revocationReason := r.revocationReason } from rfl,
      of_decide_eq_true h]
    rfl
  refine intoFields_flatten (t := r.upTo 24) (intoFields_single rfl
    (bind_read (intoTime_json (htime _ (by simp [times])) _))) ?_
  refine intoFields_flatten (t := r.upTo 25) (intoFields_single rfl
    (bind_read (intoTime_json (htime _ (by simp [times])) _))) ?_
  rfl

/-! ## Issuers -/

/-- The times of an issuer. -/
def IssuerRecord.times (r : IssuerRecord) : List Time :=
  [r.notBefore, r.notAfter, r.createdAt, r.updatedAt]

/-- The members of an issuer, by their names in JSON. -/
def IssuerRecord.members (r : IssuerRecord) : List (List (String × Json)) :=
  [[("issuer_id", .string r.issuerID)],
    Json.omitempty (r.parentIssuerID = "") "parent_issuer_id" (.string r.parentIssuerID),
    [("common_name", .string r.commonName)], [("cert_role", .string r.certRole)],
    [("serial_number", .string r.serialNumber)], [("certificate_pem", .string r.certificatePEM)],
    [("fingerprint_sha256", .string r.fingerprintSHA256)],
    Json.omitempty (r.subjectKeyID = "") "subject_key_id" (.string r.subjectKeyID),
    Json.omitempty (r.authorityKeyID = "") "authority_key_id" (.string r.authorityKeyID),
    [("not_before", r.notBefore.json)], [("not_after", r.notAfter.json)],
    [("status", .string r.status)], [("created_at", r.createdAt.json)],
    [("updated_at", r.updatedAt.json)]]

/-- The JSON of an issuer. -/
def IssuerRecord.json (r : IssuerRecord) : Json := .object r.members.flatten

/-- The members that are read of an issuer. -/
def IssuerRecord.fields : List (String × (Json → IssuerRecord → Option IssuerRecord)) :=
  [("issuer_id", fun v r => do return { r with issuerID := ← v.intoString r.issuerID }),
    ("parent_issuer_id", fun v r => do
      return { r with parentIssuerID := ← v.intoString r.parentIssuerID }),
    ("common_name", fun v r => do return { r with commonName := ← v.intoString r.commonName }),
    ("cert_role", fun v r => do return { r with certRole := ← v.intoString r.certRole }),
    ("serial_number", fun v r => do
      return { r with serialNumber := ← v.intoString r.serialNumber }),
    ("certificate_pem", fun v r => do
      return { r with certificatePEM := ← v.intoString r.certificatePEM }),
    ("fingerprint_sha256", fun v r => do
      return { r with fingerprintSHA256 := ← v.intoString r.fingerprintSHA256 }),
    ("subject_key_id", fun v r => do
      return { r with subjectKeyID := ← v.intoString r.subjectKeyID }),
    ("authority_key_id", fun v r => do
      return { r with authorityKeyID := ← v.intoString r.authorityKeyID }),
    ("not_before", fun v r => do return { r with notBefore := ← v.intoTime r.notBefore }),
    ("not_after", fun v r => do return { r with notAfter := ← v.intoTime r.notAfter }),
    ("status", fun v r => do return { r with status := ← v.intoString r.status }),
    ("created_at", fun v r => do return { r with createdAt := ← v.intoTime r.createdAt }),
    ("updated_at", fun v r => do return { r with updatedAt := ← v.intoTime r.updatedAt })]

/-- The first `n` members of an issuer. -/
def IssuerRecord.upTo (r : IssuerRecord) (n : ℕ) : IssuerRecord where
  issuerID := if 0 < n then r.issuerID else ""
  parentIssuerID := if 1 < n then r.parentIssuerID else ""
  commonName := if 2 < n then r.commonName else ""
  certRole := if 3 < n then r.certRole else ""
  serialNumber := if 4 < n then r.serialNumber else ""
  certificatePEM := if 5 < n then r.certificatePEM else ""
  fingerprintSHA256 := if 6 < n then r.fingerprintSHA256 else ""
  subjectKeyID := if 7 < n then r.subjectKeyID else ""
  authorityKeyID := if 8 < n then r.authorityKeyID else ""
  notBefore := if 9 < n then r.notBefore else .zero
  notAfter := if 10 < n then r.notAfter else .zero
  status := if 11 < n then r.status else ""
  createdAt := if 12 < n then r.createdAt else .zero
  updatedAt := if 13 < n then r.updatedAt else .zero

open Json in
/-- **An issuer is read back from its JSON.** -/
theorem IssuerRecord.intoFields_json {r : IssuerRecord}
    (htime : ∀ t ∈ r.times, t.encodable = true) :
    r.json.intoFields IssuerRecord.fields {} = some r := by
  refine intoFields_flatten (t := r.upTo 1) (intoFields_single rfl rfl) ?_
  refine intoFields_flatten (t := r.upTo 2) (intoFields_omitempty (fun h => ?_) rfl rfl) ?_
  · rw [show r.upTo 2 = { r.upTo 1 with parentIssuerID := r.parentIssuerID } from rfl,
      of_decide_eq_true h]
    rfl
  refine intoFields_flatten (t := r.upTo 3) (intoFields_single rfl rfl) ?_
  refine intoFields_flatten (t := r.upTo 4) (intoFields_single rfl rfl) ?_
  refine intoFields_flatten (t := r.upTo 5) (intoFields_single rfl rfl) ?_
  refine intoFields_flatten (t := r.upTo 6) (intoFields_single rfl rfl) ?_
  refine intoFields_flatten (t := r.upTo 7) (intoFields_single rfl rfl) ?_
  refine intoFields_flatten (t := r.upTo 8) (intoFields_omitempty (fun h => ?_) rfl rfl) ?_
  · rw [show r.upTo 8 = { r.upTo 7 with subjectKeyID := r.subjectKeyID } from rfl,
      of_decide_eq_true h]
    rfl
  refine intoFields_flatten (t := r.upTo 9) (intoFields_omitempty (fun h => ?_) rfl rfl) ?_
  · rw [show r.upTo 9 = { r.upTo 8 with authorityKeyID := r.authorityKeyID } from rfl,
      of_decide_eq_true h]
    rfl
  refine intoFields_flatten (t := r.upTo 10) (intoFields_single rfl
    (bind_read (intoTime_json (htime _ (by simp [times])) _))) ?_
  refine intoFields_flatten (t := r.upTo 11) (intoFields_single rfl
    (bind_read (intoTime_json (htime _ (by simp [times])) _))) ?_
  refine intoFields_flatten (t := r.upTo 12) (intoFields_single rfl rfl) ?_
  refine intoFields_flatten (t := r.upTo 13) (intoFields_single rfl
    (bind_read (intoTime_json (htime _ (by simp [times])) _))) ?_
  refine intoFields_flatten (t := r.upTo 14) (intoFields_single rfl
    (bind_read (intoTime_json (htime _ (by simp [times])) _))) ?_
  rfl

/-! ## Events -/

/-- An event of the log as the JSON store keeps it, with the hashes of its chain. -/
structure StoredEvent where
  serialNumber : String := ""
  certType : String := ""
  issuerID : String := ""
  action : String := ""
  performedBy : String := ""
  reason : String := ""
  performedAt : Time := .zero
  metadata : Map String := ∅
  prevHash : String := ""
  hash : String := ""
  deriving DecidableEq

/-- The members of an event, by their names in JSON. -/
def StoredEvent.members (e : StoredEvent) : List (List (String × Json)) :=
  [[("serial_number", .string e.serialNumber)],
    Json.omitempty (e.certType = "") "cert_type" (.string e.certType),
    Json.omitempty (e.issuerID = "") "issuer_id" (.string e.issuerID),
    [("action", .string e.action)], [("performed_by", .string e.performedBy)],
    Json.omitempty (e.reason = "") "reason" (.string e.reason),
    [("performed_at", e.performedAt.json)],
    Json.omitempty (e.metadata = ∅) "metadata" (Json.ofMap .string e.metadata),
    Json.omitempty (e.prevHash = "") "prev_hash" (.string e.prevHash),
    Json.omitempty (e.hash = "") "hash" (.string e.hash)]

/-- The JSON of an event. -/
def StoredEvent.json (e : StoredEvent) : Json := .object e.members.flatten

/-- The members that are read of an event. -/
def StoredEvent.fields : List (String × (Json → StoredEvent → Option StoredEvent)) :=
  [("serial_number", fun v e => do
      return { e with serialNumber := ← v.intoString e.serialNumber }),
    ("cert_type", fun v e => do return { e with certType := ← v.intoString e.certType }),
    ("issuer_id", fun v e => do return { e with issuerID := ← v.intoString e.issuerID }),
    ("action", fun v e => do return { e with action := ← v.intoString e.action }),
    ("performed_by", fun v e => do return { e with performedBy := ← v.intoString e.performedBy }),
    ("reason", fun v e => do return { e with reason := ← v.intoString e.reason }),
    ("performed_at", fun v e => do return { e with performedAt := ← v.intoTime e.performedAt }),
    ("metadata", fun v e => do
      return { e with metadata := ← v.intoMap Json.intoString "" e.metadata }),
    ("prev_hash", fun v e => do return { e with prevHash := ← v.intoString e.prevHash }),
    ("hash", fun v e => do return { e with hash := ← v.intoString e.hash })]

/-- The first `n` members of an event. -/
def StoredEvent.upTo (e : StoredEvent) (n : ℕ) : StoredEvent where
  serialNumber := if 0 < n then e.serialNumber else ""
  certType := if 1 < n then e.certType else ""
  issuerID := if 2 < n then e.issuerID else ""
  action := if 3 < n then e.action else ""
  performedBy := if 4 < n then e.performedBy else ""
  reason := if 5 < n then e.reason else ""
  performedAt := if 6 < n then e.performedAt else .zero
  metadata := if 7 < n then e.metadata else ∅
  prevHash := if 8 < n then e.prevHash else ""
  hash := if 9 < n then e.hash else ""

open Json in
/-- **An event is read back from its JSON.** -/
theorem StoredEvent.intoFields_json {e : StoredEvent} (htime : e.performedAt.encodable = true) :
    e.json.intoFields StoredEvent.fields {} = some e := by
  refine intoFields_flatten (t := e.upTo 1) (intoFields_single rfl rfl) ?_
  refine intoFields_flatten (t := e.upTo 2) (intoFields_omitempty (fun h => ?_) rfl rfl) ?_
  · rw [show e.upTo 2 = { e.upTo 1 with certType := e.certType } from rfl, of_decide_eq_true h]
    rfl
  refine intoFields_flatten (t := e.upTo 3) (intoFields_omitempty (fun h => ?_) rfl rfl) ?_
  · rw [show e.upTo 3 = { e.upTo 2 with issuerID := e.issuerID } from rfl, of_decide_eq_true h]
    rfl
  refine intoFields_flatten (t := e.upTo 4) (intoFields_single rfl rfl) ?_
  refine intoFields_flatten (t := e.upTo 5) (intoFields_single rfl rfl) ?_
  refine intoFields_flatten (t := e.upTo 6) (intoFields_omitempty (fun h => ?_) rfl rfl) ?_
  · rw [show e.upTo 6 = { e.upTo 5 with reason := e.reason } from rfl, of_decide_eq_true h]
    rfl
  refine intoFields_flatten (t := e.upTo 7) (intoFields_single rfl
    (bind_read (intoTime_json htime _))) ?_
  refine intoFields_flatten (t := e.upTo 8) (intoFields_omitempty (fun h => ?_) rfl
    (bind_read (intoMap_ofMap fun _ _ _ => rfl))) ?_
  · rw [show e.upTo 8 = { e.upTo 7 with metadata := e.metadata } from rfl, of_decide_eq_true h]
    rfl
  refine intoFields_flatten (t := e.upTo 9) (intoFields_omitempty (fun h => ?_) rfl rfl) ?_
  · rw [show e.upTo 9 = { e.upTo 8 with prevHash := e.prevHash } from rfl, of_decide_eq_true h]
    rfl
  refine intoFields_flatten (t := e.upTo 10) (intoFields_omitempty (fun h => ?_) rfl rfl) ?_
  · rw [show e.upTo 10 = { e.upTo 9 with hash := e.hash } from rfl, of_decide_eq_true h]
    rfl
  rfl

/-! ## The state -/

/-- What the JSON store keeps in memory. -/
structure Memory where
  issuers : Map IssuerRecord := ∅
  certificates : Map CertificateRecord := ∅
  auditLog : List StoredEvent := []
  deriving DecidableEq

/-- The times of a state. -/
def Memory.times (m : Memory) : List Time :=
  m.issuers.toList.flatMap (·.2.times) ++ m.certificates.toList.flatMap (·.2.times) ++
    m.auditLog.map (·.performedAt)

/-- The members of a state, by their names in JSON. -/
def Memory.members (m : Memory) : List (List (String × Json)) :=
  [[("version", Json.int 2)],
    Json.omitempty (m.issuers = ∅) "issuers" (Json.ofMap IssuerRecord.json m.issuers),
    [("certificates", Json.ofMap CertificateRecord.json m.certificates)],
    [("audit_log", if m.auditLog = [] then .null else .array (m.auditLog.map StoredEvent.json))]]

/-- `json.MarshalIndent` of a state. A time whose year has not four digits cannot be written. -/
def Memory.marshalJSON (m : Memory) : Option Json :=
  if m.times.all Time.encodable then some (.object m.members.flatten) else none

/-- What is read of a state file. -/
structure PersistedState extends Memory where
  version : Int64 := 0

/-- A value into a field of type `[]AuditEvent`. -/
def intoEvents (v : Json) (old : List StoredEvent) : Option (List StoredEvent) :=
  match v with
  | .null => some []
  | .array elems => Json.intoSlice (fun v e => v.intoFields StoredEvent.fields e) {} elems old
  | _ => none

/-- The members that are read of a state file. -/
def PersistedState.fields : List (String × (Json → PersistedState → Option PersistedState)) :=
  [("version", fun v s => do return { s with version := ← v.intoInt64 s.version }),
    ("issuers", fun v s => do
      return { s with issuers := ← v.intoMap (·.intoFields IssuerRecord.fields) {} s.issuers }),
    ("certificates", fun v s => do
      return { s with
        certificates := ← v.intoMap (·.intoFields CertificateRecord.fields) {} s.certificates }),
    ("audit_log", fun v s => do return { s with auditLog := ← intoEvents v s.auditLog })]

/-- The state of a file. -/
def Memory.unmarshalJSON (v : Json) : Option Memory :=
  (v.intoFields PersistedState.fields {}).map (·.toMemory)

theorem intoEvents_map {log : List StoredEvent}
    (htime : ∀ e ∈ log, e.performedAt.encodable = true) :
    intoEvents (if log = [] then .null else .array (log.map StoredEvent.json)) [] = some log := by
  have hslice : ∀ log : List StoredEvent, (∀ e ∈ log, e.performedAt.encodable = true) →
      Json.intoSlice (fun v e => v.intoFields StoredEvent.fields e) {} (log.map StoredEvent.json)
        [] = some log := by
    intro log htime
    induction log with
    | nil => rfl
    | cons e log ih =>
      obtain ⟨hhead, htail⟩ := List.forall_mem_cons.mp htime
      rw [List.map_cons, Json.intoSlice, List.headD_nil, StoredEvent.intoFields_json hhead,
        List.tail_nil, ih htail]
      rfl
  split
  · next h =>
    rw [h]
    rfl
  · exact hslice log htime

theorem Memory.times_issuer {m : Memory} {name : String} {r : IssuerRecord}
    (h : m.issuers.lookup name = some r) {t : Time} (ht : t ∈ r.times) : t ∈ m.times :=
  List.mem_append_left _ (List.mem_append_left _
    (List.mem_flatMap.mpr ⟨(name, r), Map.mem_toList.mpr h, ht⟩))

theorem Memory.times_certificate {m : Memory} {name : String} {r : CertificateRecord}
    (h : m.certificates.lookup name = some r) {t : Time} (ht : t ∈ r.times) : t ∈ m.times :=
  List.mem_append_left _ (List.mem_append_right _
    (List.mem_flatMap.mpr ⟨(name, r), Map.mem_toList.mpr h, ht⟩))

theorem Memory.times_event {m : Memory} {e : StoredEvent} (h : e ∈ m.auditLog) :
    e.performedAt ∈ m.times :=
  List.mem_append_right _ (List.mem_map_of_mem h)

/-- A time of a state is one of an issuer, of a certificate or of an event. -/
theorem Memory.mem_times {m : Memory} {t : Time} (h : t ∈ m.times) :
    (∃ name r, m.issuers.lookup name = some r ∧ t ∈ r.times) ∨
      (∃ name r, m.certificates.lookup name = some r ∧ t ∈ r.times) ∨
      ∃ e ∈ m.auditLog, e.performedAt = t := by
  rcases List.mem_append.mp h with h | h
  · rcases List.mem_append.mp h with h | h
    · obtain ⟨⟨name, r⟩, hmem, ht⟩ := List.mem_flatMap.mp h
      exact .inl ⟨name, r, Map.mem_toList.mp hmem, ht⟩
    · obtain ⟨⟨name, r⟩, hmem, ht⟩ := List.mem_flatMap.mp h
      exact .inr (.inl ⟨name, r, Map.mem_toList.mp hmem, ht⟩)
  · exact .inr (.inr (List.mem_map.mp h))

open Json in
/-- **The state is read back from its JSON.** -/
theorem Memory.unmarshalJSON_marshalJSON {m : Memory} {v : Json} (h : m.marshalJSON = some v) :
    Memory.unmarshalJSON v = some m := by
  unfold Memory.marshalJSON at h
  split at h
  swap
  · cases h
  next htimes =>
  cases h
  have htime : ∀ t ∈ m.times, t.encodable = true := List.all_eq_true.mp htimes
  have hissuers : (Json.ofMap IssuerRecord.json m.issuers).intoMap
      (·.intoFields IssuerRecord.fields) {} ∅ = some m.issuers :=
    intoMap_ofMap fun name r hr => IssuerRecord.intoFields_json fun t ht =>
      htime t (m.times_issuer hr ht)
  have hcertificates : (Json.ofMap CertificateRecord.json m.certificates).intoMap
      (·.intoFields CertificateRecord.fields) {} ∅ = some m.certificates :=
    intoMap_ofMap fun name r hr => CertificateRecord.intoFields_json fun t ht =>
      htime t (m.times_certificate hr ht)
  have hlog := @intoEvents_map m.auditLog fun e he => htime _ (m.times_event he)
  have hfields : (object m.members.flatten).intoFields PersistedState.fields {} =
      some { m with version := 2 } := by
    refine intoFields_flatten (t := { version := 2 }) (intoFields_single rfl
      (bind_read (intoInt64_int _ _))) ?_
    refine intoFields_flatten (t := { issuers := m.issuers, version := 2 })
      (intoFields_omitempty (fun h => ?_) rfl (bind_read hissuers)) ?_
    · rw [of_decide_eq_true h]
    refine intoFields_flatten
      (t := { issuers := m.issuers, certificates := m.certificates, version := 2 })
      (intoFields_single rfl (bind_read hcertificates)) ?_
    exact intoFields_flatten (t := { m with version := 2 }) (intoFields_single rfl
      (bind_read hlog)) rfl
  rw [Memory.unmarshalJSON, hfields]
  rfl

end Ca
