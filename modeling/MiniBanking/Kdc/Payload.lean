import MiniBanking.Bank.Payload
import MiniBanking.Go.JsonText

/-!
# What the KDC seals

The plaintexts of the AS and the TGS exchange as they are written to JSON and read from it, and
the helpers that seal and open them. AES-GCM, RSA, SHA-256 and the parsing of keys and
certificates belong to the deployment.

## Main definitions

* `Crypto`: the cryptography of the standard library
* `TGT`, `TGTPlaintext`, `AuthenticatorPlaintext`, `ServiceTicketPlaintext`, `ASRepPayload`,
  `TGSReplyPlaintext`, `ASResponse`: the plaintexts
* `Crypto.encryptBytes`, `Crypto.decryptBytes`, `Crypto.decryptJSON`: sealing and opening
* `asCanonicalPayload`: the text that a client signs

## Main results

* `Crypto.decryptBytes_encryptBytes`: what is sealed under a key is opened
* `decode_TGT`: a ticket-granting ticket is read as it was written
-/

namespace Kdc

open Go

/-! ## The deployment -/

/-- What the KDC reads from an X.509 certificate: its validity, and its public key in PEM if it
can be written so. -/
structure X509Certificate where
  notBefore : Time
  notAfter : Time
  publicKeyPEM : Option String

/-- The cryptography of the standard library. -/
structure Crypto where
  /-- `gcm.Open` and `gcm.Seal` with a key, a nonce and a text. -/
  gcmOpen : List UInt8 → List UInt8 → List UInt8 → Option (List UInt8)
  gcmSeal : List UInt8 → List UInt8 → List UInt8 → List UInt8
  sha256 : List UInt8 → Vector UInt8 32
  pemDecode : String → Option (List UInt8)
  parsePKIXPublicKey : List UInt8 → Option Bank.PublicKey
  parseCertificate : List UInt8 → Option X509Certificate
  /-- `rsa.VerifyPKCS1v15` and `rsa.VerifyPSS` of a digest and a signature. -/
  verifyPKCS1v15 : Bank.RSAPublicKey → List UInt8 → List UInt8 → Bool
  verifyPSS : Bank.RSAPublicKey → List UInt8 → List UInt8 → Bool
  /-- `rsa.SignPSS` of a digest with a salt, under the private key of the KDC. -/
  signPSS : List UInt8 → List UInt8 → Option (List UInt8)
  /-- `rsa.EncryptOAEP` of a message with a label and a seed. -/
  encryptOAEP : Bank.RSAPublicKey → List UInt8 → List UInt8 → List UInt8 → Option (List UInt8)

def aes256KeySize : ℕ := 32

def gcmNonceSize : ℕ := 12

/-- `gcm.Open` undoes `gcm.Seal`. -/
def Crypto.Opens (crypto : Crypto) : Prop :=
  ∀ key nonce text, key.length = aes256KeySize → nonce.length = gcmNonceSize →
    crypto.gcmOpen key nonce (crypto.gcmSeal key nonce text) = some text

/-! ## Tickets -/

/-- The ticket-granting ticket that the AS issues. -/
structure TGT where
  clientId : String
  certSN : String
  sessionKey : List UInt8
  issuedAt : Int64
  expiry : Int64
  expiresAt : Int64
  clientIP : String := ""

def TGT.members (t : TGT) : List (String × Json) :=
  [("client_id", .string t.clientId)] ++
    Json.omitempty (t.certSN = "") "cert_sn" (.string t.certSN) ++
    [("k_c_tgs", Json.bytes t.sessionKey)] ++
    Json.omitempty (t.issuedAt = 0) "issued_at" (Json.int t.issuedAt) ++
    Json.omitempty (t.expiry = 0) "tgt_expiry" (Json.int t.expiry) ++
    Json.omitempty (t.expiresAt = 0) "expires_at" (Json.int t.expiresAt) ++
    Json.omitempty (t.clientIP = "") "client_ip" (.string t.clientIP)

/-- The content of a ticket-granting ticket. -/
structure TGTPlaintext where
  clientID : String := ""
  certSN : String := ""
  kctgs : List UInt8 := []
  issuedAt : Int64 := 0
  expiry : Int64 := 0
  expiresAt : Int64 := 0
  clientIP : String := ""
  deriving DecidableEq

/-- The fields of `TGTPlaintext` by their names in JSON. -/
def TGTPlaintext.fields : List (String × (Json → TGTPlaintext → Option TGTPlaintext)) :=
  [("client_id", fun v t => do return { t with clientID := ← v.intoString t.clientID }),
    ("cert_sn", fun v t => do return { t with certSN := ← v.intoString t.certSN }),
    ("k_c_tgs", fun v t => do return { t with kctgs := ← v.intoBytes t.kctgs }),
    ("issued_at", fun v t => do return { t with issuedAt := ← v.intoInt64 t.issuedAt }),
    ("tgt_expiry", fun v t => do return { t with expiry := ← v.intoInt64 t.expiry }),
    ("expires_at", fun v t => do return { t with expiresAt := ← v.intoInt64 t.expiresAt }),
    ("client_ip", fun v t => do return { t with clientIP := ← v.intoString t.clientIP })]

/-- The content of an authenticator. -/
structure AuthenticatorPlaintext where
  clientID : String := ""
  idC : String := ""
  timestamp : Int64 := 0
  timestampUnix : Int64 := 0
  nonceReq : String := ""
  nonce : String := ""
  requestID : String := ""
  requestedService : String := ""
  serviceID : String := ""
  scope : String := ""
  deriving DecidableEq

/-- The fields of `AuthenticatorPlaintext` by their names in JSON. -/
def AuthenticatorPlaintext.fields :
    List (String × (Json → AuthenticatorPlaintext → Option AuthenticatorPlaintext)) :=
  [("client_id", fun v a => do return { a with clientID := ← v.intoString a.clientID }),
    ("id_c", fun v a => do return { a with idC := ← v.intoString a.idC }),
    ("ts_3", fun v a => do return { a with timestamp := ← v.intoInt64 a.timestamp }),
    ("timestamp", fun v a => do return { a with timestampUnix := ← v.intoInt64 a.timestampUnix }),
    ("nonce_req", fun v a => do return { a with nonceReq := ← v.intoString a.nonceReq }),
    ("nonce", fun v a => do return { a with nonce := ← v.intoString a.nonce }),
    ("request_id", fun v a => do return { a with requestID := ← v.intoString a.requestID }),
    ("requested_service", fun v a => do
      return { a with requestedService := ← v.intoString a.requestedService }),
    ("service_id", fun v a => do return { a with serviceID := ← v.intoString a.serviceID }),
    ("scope", fun v a => do return { a with scope := ← v.intoString a.scope })]

/-- The content of a service ticket. -/
structure ServiceTicketPlaintext where
  clientID : String
  serviceID : String
  sname : String
  kcv : List UInt8
  publicKey : String
  pubCPEM : String
  certSN : String
  certType : String
  issuerID : String
  issuerCommonName : String
  issuerSerial : String
  chainFingerprints : List String
  scope : String
  nonceReq : String
  issuedAt : Int64
  expiresAt : Int64

def ServiceTicketPlaintext.members (t : ServiceTicketPlaintext) : List (String × Json) :=
  [("client_id", .string t.clientID), ("service_id", .string t.serviceID),
    ("sname", .string t.sname), ("k_c_v", Json.bytesCopy t.kcv), ("pub_c", .string t.publicKey),
    ("pub_c_pem", .string t.pubCPEM), ("cert_sn", .string t.certSN),
    ("cert_type", .string t.certType), ("issuer_id", .string t.issuerID),
    ("issuer_common_name", .string t.issuerCommonName),
    ("issuer_serial_number", .string t.issuerSerial),
    ("chain_fingerprints", Json.stringsCopy t.chainFingerprints), ("scope", .string t.scope),
    ("nonce_req", .string t.nonceReq), ("issued_at", Json.int t.issuedAt),
    ("expires_at", Json.int t.expiresAt)]

/-! ## Replies -/

/-- What the AS replies under the client's key. -/
structure ASRepPayload where
  sessionKey : List UInt8
  tgt : List UInt8
  nonce1 : List UInt8
  deriving DecidableEq

def ASRepPayload.members (p : ASRepPayload) : List (String × Json) :=
  [("k_c_tgs", Json.bytes p.sessionKey), ("tgt", Json.bytes p.tgt),
    ("nonce_1", Json.bytes p.nonce1)]

/-- What the AS replies. -/
structure ASResponse where
  kdcSignature : List UInt8
  encryptedKey : List UInt8
  encryptedPayload : List UInt8
  kdcCertChain : String

def ASResponse.members (r : ASResponse) : List (String × Json) :=
  [("kdc_signature", Json.bytes r.kdcSignature), ("encrypted_key", Json.bytes r.encryptedKey),
    ("encrypted_payload", Json.bytes r.encryptedPayload)] ++
    Json.omitempty (r.kdcCertChain = "") "kdc_cert_chain" (.string r.kdcCertChain)

/-- What the TGS replies under the session key. -/
structure TGSReplyPlaintext where
  kcv : List UInt8
  serviceID : String
  ticketV : List UInt8
  nonce2 : List UInt8
  nonceReq : String
  issuedAt : Int64
  expiresAt : Int64
  scope : String

def TGSReplyPlaintext.members (r : TGSReplyPlaintext) : List (String × Json) :=
  [("k_c_v", Json.bytesCopy r.kcv), ("id_v", .string r.serviceID),
    ("ticket_v", Json.bytesCopy r.ticketV), ("nonce2", Json.bytesCopy r.nonce2),
    ("nonce_req", .string r.nonceReq), ("ts_4", Json.int r.issuedAt),
    ("expires_at", Json.int r.expiresAt), ("scope", .string r.scope)]

/-- `buildASCanonicalPayload`: the text that the client signs. -/
def asCanonicalPayload (certSn ownerID : String) (nonce : List UInt8) (timestamp : Int64) :
    List UInt8 :=
  Json.marshalStruct [("cert_sn", .string certSn), ("owner_id", .string ownerID),
    ("nonce", .string (base64 nonce)), ("timestamp", Json.int timestamp)]

/-! ## Sealing and opening -/

namespace Crypto

variable (crypto : Crypto)

/-- `encryptBytes` with the nonce it reads. -/
def encryptBytes (key nonce plaintext : List UInt8) : List UInt8 :=
  nonce ++ crypto.gcmSeal key nonce plaintext

def decryptBytes (key ciphertext : List UInt8) : Option (List UInt8) :=
  if (key.length = 16 ∨ key.length = 24 ∨ key.length = 32) ∧
      gcmNonceSize ≤ ciphertext.length then
    crypto.gcmOpen key (ciphertext.take gcmNonceSize) (ciphertext.drop gcmNonceSize)
  else none

/-- `decryptJSON` into a structure. -/
def decryptJSON {σ : Type} (fields : List (String × (Json → σ → Option σ))) (zero : σ)
    (key ciphertext : List UInt8) : Option σ := do
  let body ← crypto.decryptBytes key ciphertext
  (← Json.parse body).intoFields fields zero

variable {crypto}

/-- What is sealed under a key is opened. -/
theorem decryptBytes_encryptBytes (h : crypto.Opens) {key nonce : List UInt8}
    (hkey : key.length = aes256KeySize) (hnonce : nonce.length = gcmNonceSize)
    (text : List UInt8) :
    crypto.decryptBytes key (crypto.encryptBytes key nonce text) = some text := by
  have hlen : gcmNonceSize ≤ (crypto.encryptBytes key nonce text).length := by
    rw [encryptBytes, List.length_append, hnonce]
    exact Nat.le_add_right _ _
  rw [decryptBytes, if_pos ⟨.inr (.inr hkey), hlen⟩, encryptBytes, List.take_left' hnonce,
    List.drop_left' hnonce, h _ _ _ hkey hnonce]

end Crypto

/-! ## What is written is read back -/

/-- **A ticket-granting ticket is read as it was written.** -/
theorem decode_TGT (t : TGT) : (Json.object t.members).intoFields TGTPlaintext.fields {} =
    some ⟨t.clientId, t.certSN, t.sessionKey, t.issuedAt, t.expiry, t.expiresAt, t.clientIP⟩ := by
  refine Json.intoFields_append (t := ⟨t.clientId, t.certSN, t.sessionKey, t.issuedAt, t.expiry,
    t.expiresAt, ""⟩) ?_ (Json.intoFields_omitempty (by simp) rfl rfl)
  refine Json.intoFields_append (t := ⟨t.clientId, t.certSN, t.sessionKey, t.issuedAt, t.expiry,
    0, ""⟩) ?_ (Json.intoFields_omitempty (by simp [eq_comm]) rfl (by simp))
  refine Json.intoFields_append (t := ⟨t.clientId, t.certSN, t.sessionKey, t.issuedAt, 0, 0, ""⟩)
    ?_ (Json.intoFields_omitempty (by simp [eq_comm]) rfl (by simp))
  refine Json.intoFields_append (t := ⟨t.clientId, t.certSN, t.sessionKey, 0, 0, 0, ""⟩) ?_
    (Json.intoFields_omitempty (by simp [eq_comm]) rfl (by simp))
  refine Json.intoFields_append (t := ⟨t.clientId, t.certSN, [], 0, 0, 0, ""⟩) ?_
    (Json.intoFields_single rfl (by simp))
  exact Json.intoFields_append (t := ⟨t.clientId, "", [], 0, 0, 0, ""⟩)
    (Json.intoFields_single rfl rfl) (Json.intoFields_omitempty (by simp) rfl rfl)

/-- The text of a ticket-granting ticket has its members. -/
theorem parse_TGT (t : TGT) :
    Json.parse (Json.marshalStruct t.members) = some (.object t.members) := by
  refine Json.parse_marshalStruct ?_ ?_
  · simp [TGT.members, Json.integralMembers_omitempty]
  · simp [TGT.members, Json.memberDepths_omitempty _ _ (Json.depth_string _),
      Json.memberDepths_omitempty _ _ (Json.depth_int _)]

/-- **A ticket-granting ticket is opened as it was sealed.** -/
theorem Crypto.decryptJSON_TGT {crypto : Crypto} (h : crypto.Opens) {key nonce : List UInt8}
    (hkey : key.length = aes256KeySize) (hnonce : nonce.length = gcmNonceSize) (t : TGT) :
    crypto.decryptJSON TGTPlaintext.fields {} key
        (crypto.encryptBytes key nonce (Json.marshalStruct t.members)) =
      some ⟨t.clientId, t.certSN, t.sessionKey, t.issuedAt, t.expiry, t.expiresAt, t.clientIP⟩ := by
  simp only [decryptJSON, decryptBytes_encryptBytes h hkey hnonce, Option.bind_eq_bind,
    Option.bind_some, parse_TGT, decode_TGT]

/-- The members of the reply of the AS, by their names in JSON. -/
def ASRepPayload.fields : List (String × (Json → ASRepPayload → Option ASRepPayload)) :=
  [("k_c_tgs", fun v p => do return { p with sessionKey := ← v.intoBytes p.sessionKey }),
    ("tgt", fun v p => do return { p with tgt := ← v.intoBytes p.tgt }),
    ("nonce_1", fun v p => do return { p with nonce1 := ← v.intoBytes p.nonce1 })]

/-- The reply of the AS is read as it was written. -/
theorem decode_ASRepPayload (p : ASRepPayload) :
    (Json.object p.members).intoFields ASRepPayload.fields ⟨[], [], []⟩ = some p := by
  refine Json.intoFields_cons (t := ⟨p.sessionKey, [], []⟩) rfl (by simp) ?_
  refine Json.intoFields_cons (t := ⟨p.sessionKey, p.tgt, []⟩) rfl (by simp) ?_
  exact Json.intoFields_single rfl (by simp)

/-- The text of the reply of the AS has its members. -/
theorem parse_ASRepPayload (p : ASRepPayload) :
    Json.parse (Json.marshalStruct p.members) = some (.object p.members) :=
  Json.parse_marshalStruct (by simp [ASRepPayload.members]) (by simp [ASRepPayload.members])

end Kdc
