import MiniBanking.Bank.Service
import MiniBanking.Go.Json
import MiniBanking.Go.Duration

/-!
# What the handler decrypts

The ticket, the authenticator and the transfer payload of an AP exchange: their plaintexts, and
the pure parts of the handler that decrypt, decode and check them. AES-GCM, the parsing of keys
and RSA-PSS belong to the deployment.

## Main definitions

* `Handler`: what a deployment of the handler fixes
* `ServiceTicketPlaintext`, `Authenticator`, `TransferPayload`: the plaintexts
* `Handler.decryptTicket`, `Handler.decryptTransferPayload`, `Handler.verifyRSAPSS`: the checks of
  ticket, payload and signature
* `validateClientCertificateMetadata`, `validateTicketCertificateMetadata`: what the certificate
  must say
-/

namespace Bank

open Go

/-! ## The deployment -/

/-- An RSA public key. -/
structure RSAPublicKey where
  n : ℕ
  e : ℕ
  deriving DecidableEq

/-- A public key of a PEM block: an RSA key, or one of another type. -/
inductive PublicKey where
  | rsa (key : RSAPublicKey)
  | other
  deriving DecidableEq

/-- What a deployment of the handler fixes: its service, its key, which of its dependencies it
has, and the cryptography of the standard library. -/
structure Handler where
  svc : Service
  bankKV : List UInt8
  hasCA : Bool := true
  hasReplay : Bool := true
  hasSessions : Bool := true
  /-- `gcm.Open` and `gcm.Seal` of AES-256 with a key, a nonce and a text. -/
  gcmOpen : List UInt8 → List UInt8 → List UInt8 → Option (List UInt8)
  gcmSeal : List UInt8 → List UInt8 → List UInt8 → List UInt8
  pemDecode : String → Option (List UInt8)
  parsePKIXPublicKey : List UInt8 → Option PublicKey
  /-- The public key of `x509.ParseCertificate`. -/
  parseCertificate : List UInt8 → Option PublicKey
  /-- `rsa.VerifyPSS` of a digest and a signature, with a salt as long as the digest. -/
  verifyPSS : RSAPublicKey → List UInt8 → List UInt8 → Bool

def aes256KeySize : ℕ := 32

/-- `gcm.NonceSize()`. -/
def nonceSize : ℕ := 12

/-- Five minutes in nanoseconds. -/
def replayTTL : ℤ := 300000000000

/-! ## Plaintexts -/

/-- `ServiceTicketPlaintext`: the decrypted Ticket_V that the KDC issues. -/
structure ServiceTicketPlaintext where
  clientID : String := ""
  serviceID : String := ""
  sname : String := ""
  kcv : List UInt8 := []
  publicKey : String := ""
  pubCPEM : String := ""
  certSN : String := ""
  certType : String := ""
  issuerID : String := ""
  issuerCommonName : String := ""
  issuerSerial : String := ""
  chainFingerprints : List String := []
  scope : String := ""
  nonceReq : String := ""
  issuedAt : Int64 := 0
  expiresAt : Int64 := 0
  deriving DecidableEq

/-- The fields of `ServiceTicketPlaintext` by their names in JSON. -/
def ServiceTicketPlaintext.fields :
    List (String × (Json → ServiceTicketPlaintext → Option ServiceTicketPlaintext)) :=
  [("client_id", fun v t => do return { t with clientID := ← v.intoString t.clientID }),
    ("service_id", fun v t => do return { t with serviceID := ← v.intoString t.serviceID }),
    ("sname", fun v t => do return { t with sname := ← v.intoString t.sname }),
    ("k_c_v", fun v t => do return { t with kcv := ← v.intoBytes t.kcv }),
    ("pub_c", fun v t => do return { t with publicKey := ← v.intoString t.publicKey }),
    ("pub_c_pem", fun v t => do return { t with pubCPEM := ← v.intoString t.pubCPEM }),
    ("cert_sn", fun v t => do return { t with certSN := ← v.intoString t.certSN }),
    ("cert_type", fun v t => do return { t with certType := ← v.intoString t.certType }),
    ("issuer_id", fun v t => do return { t with issuerID := ← v.intoString t.issuerID }),
    ("issuer_common_name", fun v t => do
      return { t with issuerCommonName := ← v.intoString t.issuerCommonName }),
    ("issuer_serial_number", fun v t => do
      return { t with issuerSerial := ← v.intoString t.issuerSerial }),
    ("chain_fingerprints", fun v t => do
      return { t with chainFingerprints := ← v.intoStrings t.chainFingerprints }),
    ("scope", fun v t => do return { t with scope := ← v.intoString t.scope }),
    ("nonce_req", fun v t => do return { t with nonceReq := ← v.intoString t.nonceReq }),
    ("issued_at", fun v t => do return { t with issuedAt := ← v.intoInt64 t.issuedAt }),
    ("expires_at", fun v t => do return { t with expiresAt := ← v.intoInt64 t.expiresAt })]

/-- The AP-exchange authenticator the client encrypts with the session key. -/
structure Authenticator where
  clientID : String := ""
  nonce : String := ""
  requestID : String := ""
  timestamp : Int64 := 0
  deriving DecidableEq

/-- The fields of `Authenticator` by their names in JSON. -/
def Authenticator.fields : List (String × (Json → Authenticator → Option Authenticator)) :=
  [("client_id", fun v a => do return { a with clientID := ← v.intoString a.clientID }),
    ("nonce", fun v a => do return { a with nonce := ← v.intoString a.nonce }),
    ("request_id", fun v a => do return { a with requestID := ← v.intoString a.requestID }),
    ("ts_3", fun v a => do return { a with timestamp := ← v.intoInt64 a.timestamp })]

/-- The signed, encrypted transfer body the client sends inside the cipher payload. -/
structure TransferPayload where
  fromAccountNumber : String := ""
  toAccountNumber : String := ""
  amount : Int64 := 0
  currency : String := ""
  description : String := ""
  nonce : String := ""
  timestamp : Int64 := 0
  requestID : String := ""
  idempotencyKey : String := ""
  scope : String := ""
  deriving DecidableEq

/-- The fields of `TransferPayload` by their names in JSON. -/
def TransferPayload.fields :
    List (String × (Json → TransferPayload → Option TransferPayload)) :=
  [("from_account_number", fun v p => do
      return { p with fromAccountNumber := ← v.intoString p.fromAccountNumber }),
    ("to_account_number", fun v p => do
      return { p with toAccountNumber := ← v.intoString p.toAccountNumber }),
    ("amount", fun v p => do return { p with amount := ← v.intoInt64 p.amount }),
    ("currency", fun v p => do return { p with currency := ← v.intoString p.currency }),
    ("description", fun v p => do return { p with description := ← v.intoString p.description }),
    ("nonce", fun v p => do return { p with nonce := ← v.intoString p.nonce }),
    ("timestamp", fun v p => do return { p with timestamp := ← v.intoInt64 p.timestamp }),
    ("request_id", fun v p => do return { p with requestID := ← v.intoString p.requestID }),
    ("idempotency_key", fun v p => do
      return { p with idempotencyKey := ← v.intoString p.idempotencyKey }),
    ("scope", fun v p => do return { p with scope := ← v.intoString p.scope })]

/-- The fields of a stored session. -/
def AdminSession.fields : List (String × (Json → AdminSession → Option AdminSession)) :=
  [("admin_id", fun v p => do return { p with adminID := ← v.intoString p.adminID }),
    ("cert_sn", fun v p => do return { p with certSN := ← v.intoString p.certSN }),
    ("role", fun v p => do return { p with role := ← v.intoString p.role }),
    ("expires_at", fun v p => do return { p with expiresAt := ← v.intoInt64 p.expiresAt })]

/-- `json.Unmarshal` of a text into a structure. -/
def unmarshal {σ : Type} (fields : List (String × (Json → σ → Option σ))) (text : List UInt8)
    (zero : σ) : Option σ := do
  (← Json.parse text).intoFields fields zero

/-- A session is read back from its text. -/
theorem unmarshal_marshal (session : AdminSession) :
    unmarshal AdminSession.fields session.marshal ⟨"", "", "", 0⟩ = some session := by
  obtain ⟨adminID, certSN, role, expiresAt⟩ := session
  have hparse : Json.parse (AdminSession.marshal ⟨adminID, certSN, role, expiresAt⟩) =
      some (.object (AdminSession.members ⟨adminID, certSN, role, expiresAt⟩)) :=
    Json.parse_marshalStruct (by simp [AdminSession.members]) (by simp [AdminSession.members])
  rw [unmarshal, hparse]
  change (Json.object (AdminSession.members _)).intoFields AdminSession.fields _ = _
  refine Json.intoFields_cons (t := ⟨adminID, "", "", 0⟩) rfl rfl ?_
  refine Json.intoFields_cons (t := ⟨adminID, certSN, "", 0⟩) rfl rfl ?_
  refine Json.intoFields_cons (t := ⟨adminID, certSN, role, 0⟩) rfl rfl ?_
  exact Json.intoFields_single rfl (by simp)

/-- The decrypted, validated ticket the handler works with. -/
structure TicketInfo where
  clientID : String
  session : List UInt8
  certSN : String
  certType : String
  issuerID : String
  issuerCommonName : String
  issuerSerial : String
  chainFingerprints : List String
  scope : String
  expires : Time
  publicKeyPEM : String
  deriving DecidableEq

namespace Handler

variable (h : Handler)

/-! ## Decryption -/

/-- `encryptAESGCMEmbedded` with the nonce it reads. -/
def encryptAESGCMEmbedded (key nonce plaintext : List UInt8) : Option (List UInt8) :=
  if key.length = aes256KeySize then some (nonce ++ h.gcmSeal key nonce plaintext) else none

def decryptAESGCMEmbedded (key ciphertext : List UInt8) : Option (List UInt8) :=
  if key.length = aes256KeySize ∧ nonceSize ≤ ciphertext.length then
    h.gcmOpen key (ciphertext.take nonceSize) (ciphertext.drop nonceSize)
  else none

def decryptAESGCMDetached (key nonce ciphertext : List UInt8) : Option (List UInt8) :=
  if key.length = aes256KeySize ∧ nonce.length = nonceSize then h.gcmOpen key nonce ciphertext
  else none

/-- `decryptTicket` decrypts Ticket_V with the bank's service key and parses it. -/
def decryptTicket (ciphertext : List UInt8) : Option TicketInfo := do
  let plain ← h.decryptAESGCMEmbedded h.bankKV ciphertext
  let t ← unmarshal ServiceTicketPlaintext.fields plain {}
  if t.clientID = "" ∨ t.certSN = "" ∨ t.scope = "" ∨ t.kcv.length ≠ aes256KeySize ∨
      t.expiresAt = 0 then none
  else
    return {
      clientID := t.clientID, session := t.kcv, certSN := t.certSN, certType := t.certType,
      issuerID := t.issuerID, issuerCommonName := t.issuerCommonName,
      issuerSerial := t.issuerSerial, chainFingerprints := t.chainFingerprints,
      scope := t.scope, expires := .unix t.expiresAt,
      publicKeyPEM := if t.pubCPEM = "" then t.publicKey else t.pubCPEM }

/-- The part of `authorize` that decrypts the authenticator with the session key and parses
it. -/
def decryptAuthenticator (session ciphertext : List UInt8) : Option Authenticator := do
  let plain ← h.decryptAESGCMEmbedded session ciphertext
  unmarshal Authenticator.fields plain {}

end Handler

/-! ## The transfer payload -/

/-- `json.Unmarshal` into `map[string]json.RawMessage`. The messages are kept as the values they
are texts of. -/
def intoMap : Json → Option (List (String × Json))
  | .null => some []
  | .object ms => some (ms.foldl (fun m (name, v) => Json.insertMember name v m) [])
  | _ => none

/-- `_ = json.Unmarshal(v, &sigText)`. -/
def intoSigText (v : Json) (sigText : String) : String := (v.intoString sigText).getD sigText

/-- What the loop over a flat envelope does with one entry. -/
def splitEntry : List (String × Json) × String → String × Json → List (String × Json) × String :=
  fun (payloadMap, sigText) (name, v) =>
    if name = "client_signature" ∨ name = "signature" then (payloadMap, intoSigText v sigText)
    else (Json.insertMember name v payloadMap, sigText)

/-- Payload and signature of an envelope: nested, or flat with its entries visited in some
order. -/
def splitEnvelope (order : List ℕ) (envelope : List (String × Json)) : Json × String :=
  let (payloadRaw, sigText) := match envelope.lookup "payload" with
    | some v => (v, match envelope.lookup "client_signature" with
      | some s => intoSigText s ""
      | none => "")
    | none =>
      let (payloadMap, sigText) := (arrange order envelope).foldl splitEntry ([], "")
      (.object payloadMap, sigText)
  if sigText = "" then
    match envelope.lookup "signature" with
    | some s => (payloadRaw, intoSigText s sigText)
    | none => (payloadRaw, sigText)
  else (payloadRaw, sigText)

/-- The signature of its text: base64, or else hexadecimal, and not empty. -/
def decodeSignature (sigText : String) : Option (List UInt8) := do
  let signature ← (decodeBase64 sigText).orElse fun _ => decodeHex sigText
  if signature.isEmpty then none else some signature

/-- The payload of its canonical text, with its default and its checks. -/
def parsePayload (canonical : List UInt8) : Option TransferPayload := do
  let p ← unmarshal TransferPayload.fields canonical {}
  let p := if p.currency = "" then { p with currency := "VND" } else p
  if p.amount ≤ 0 ∨ p.fromAccountNumber = "" ∨ p.toAccountNumber = "" ∨ p.idempotencyKey = "" then
    none
  else some p

/-- The part of `decryptTransferPayload` after the decryption. -/
def parseEnvelope (order : List ℕ) (raw : List UInt8) :
    Option (TransferPayload × List UInt8 × List UInt8) := do
  let envelope ← intoMap (← Json.parse raw)
  let (payloadRaw, sigText) := splitEnvelope order envelope
  let signature ← decodeSignature sigText
  let canonical := payloadRaw.marshal
  return (← parsePayload canonical, canonical, signature)

namespace Handler

variable (h : Handler)

/-- `decryptTransferPayload`: the payload, its canonical text and the signature, when the
runtime visits the entries of a flat envelope in a given order. -/
def decryptTransferPayload (order : List ℕ) (cipherPayload iv sessionKey : List UInt8) :
    Option (TransferPayload × List UInt8 × List UInt8) := do
  let raw ← if iv.isEmpty then h.decryptAESGCMEmbedded sessionKey cipherPayload
    else h.decryptAESGCMDetached sessionKey iv cipherPayload
  parseEnvelope order raw

/-- `verifyRSAPSS`: the signature is one of the payload under the key of a PEM text. -/
def verifyRSAPSS (publicKeyPEM : String) (payload signature : List UInt8) : Bool :=
  match h.pemDecode publicKeyPEM with
  | none => false
  | some block =>
    match (h.parsePKIXPublicKey block).orElse fun _ => h.parseCertificate block with
    | some (.rsa key) => h.verifyPSS key (h.svc.sha256 payload).toList signature
    | _ => false

end Handler

/-! ## Certificates -/

/-- `validateClientCertificateMetadata`. -/
def validateClientCertificateMetadata (cert : VerifyCertificateResponse) : Bool :=
  cert.certType = "client" && cert.issuerId = "client-ca" && !cert.chainFingerprints.isEmpty

/-- `validateTicketCertificateMetadata`: what the ticket says about the certificate, if
anything, is what the CA says. -/
def validateTicketCertificateMetadata (ticket : TicketInfo) (cert : VerifyCertificateResponse) :
    Bool :=
  (ticket.certType = "" || ticket.certType = cert.certType) &&
  (ticket.issuerID = "" || ticket.issuerID = cert.issuerId) &&
  (ticket.issuerSerial = "" || ticket.issuerSerial = cert.issuerSerialNumber) &&
  (ticket.chainFingerprints.isEmpty || ticket.chainFingerprints = cert.chainFingerprints)

end Bank
