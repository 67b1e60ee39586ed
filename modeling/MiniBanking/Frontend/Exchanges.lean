import MiniBanking.Go.Json
import Mathlib.Tactic.Common

/-!
# What the browser takes from a reply

A reply of the gateway is an object with a ciphertext and fields beside it. The browser opens the
ciphertext, checks what it finds there, and keeps it; but the expiry of a ticket it takes from the
field beside the ciphertext, and so the identifier of a transaction unless that field is empty.

## Main definitions

* `Browser`: the values of the browser and its cryptography
* `performAsExchange`, `performTgsExchange`, `performTransfer`: from the reply to the result
* `asPlaintext`, `tgsPlaintext`, `apPlaintext`: what was authenticated

## Main results

* `kept_of_plaintext`: what is kept of two replies with one plaintext differs only in the expiry,
  and a transaction has the identifier beside the ciphertext, if there is one
-/

namespace Frontend

/-! ## The browser -/

/-- Why an exchange ends without a result. -/
inductive Failure where
  | error (message : String)
  | thrown

/-- The values of a browser and the primitives that the exchanges use; what throws is `none`. -/
structure Browser (V : Type) where
  /-- `JSON.parse(new TextDecoder().decode(bytes))` -/
  parse : List UInt8 → Option V
  /-- `value[name]` -/
  get : V → String → Option V
  /-- the string that a value is, if it is one -/
  asString : V → Option String
  ofString : String → V
  truthy : V → Bool
  base64ToBytes : V → Option (List UInt8)
  aesGcmDecrypt : List UInt8 → List UInt8 → Option (List UInt8)
  rsaOaepDecrypt : List UInt8 → List UInt8 → String → Option (List UInt8)
  /-- the common name and the public key of the leaf -/
  verifyChainToRoot : V → Option (String × List UInt8)
  verifyRsaPss : List UInt8 → List UInt8 → List UInt8 → Option Bool

/-- A result, or what was thrown. -/
def attempt {α : Type} (x : Option α) : Except Failure α := x.elim (.error .thrown) .ok

/-- A condition, or the error that it is not met. -/
def check (condition : Prop) [Decidable condition] (message : String) : Except Failure Unit :=
  if condition then .ok () else .error (.error message)

theorem bind_eq_ok {ε α β : Type} {x : Except ε α} {f : α → Except ε β} {b : β} :
    x >>= f = .ok b ↔ ∃ a, x = .ok a ∧ f a = .ok b := by
  cases x with
  | error e => exact ⟨fun h => (by cases h), fun ⟨_, h, _⟩ => (by cases h)⟩
  | ok a =>
    constructor
    · exact fun h => ⟨a, rfl, h⟩
    · rintro ⟨a', h, hf⟩
      cases h
      exact hf

theorem toOption_eq_some {ε α : Type} {x : Except ε α} {a : α} (h : x.toOption = some a) :
    x = .ok a := by
  cases x with
  | error e => cases h
  | ok b => exact congrArg Except.ok (Option.some.inj h)

variable {V : Type} (b : Browser V)

/-- `value[name]`, a failure if it throws. -/
def Browser.field (v : V) (name : String) : Except Failure V := attempt (b.get v name)

/-- `base64ToBytes(value[name])` -/
def Browser.bytes (v : V) (name : String) : Except Failure (List UInt8) := do
  attempt (b.base64ToBytes (← b.field v name))

/-! ## The AS exchange -/

/-- What the browser has of its request to the AS. -/
structure AsRequest where
  clientId : String
  certSn : String
  nonceB64 : String
  decryptionKey : List UInt8
  operationId : Option String

/-- `AsSession` -/
@[ext] structure AsSession (V : Type) where
  clientId : String
  certSn : String
  tgt : V
  sessionKey : List UInt8
  tgtExpiresAt : V
  operationId : Option String

/-- The sealed reply, and what is sealed in it. -/
def Browser.openAsRep (req : AsRequest) (resp : V) : Except Failure (V × List UInt8) := do
  let asRep ← attempt (b.parse (← b.bytes resp "encrypted_payload"))
  let aesKey ← attempt (b.rsaOaepDecrypt req.decryptionKey (← b.bytes asRep "encrypted_key")
    "AS_REP")
  let payloadPlaintext ← attempt (b.aesGcmDecrypt aesKey (← b.bytes asRep "encrypted_payload"))
  return (asRep, payloadPlaintext)

/-- The payload that the KDC has signed. -/
def Browser.asPlaintext (req : AsRequest) (resp : V) : Except Failure (List UInt8) := do
  return (← b.openAsRep req resp).2

/-- `performAsExchange` from the reply on: the session that is stored. -/
def Browser.performAsExchange (req : AsRequest) (resp : V) : Except Failure (AsSession V) := do
  let (asRep, payloadPlaintext) ← b.openAsRep req resp
  let payload ← attempt (b.parse payloadPlaintext)
  let chain ← b.field asRep "kdc_cert_chain"
  check (b.truthy chain) "AS_REP thiếu kdc_cert_chain — không thể xác minh danh tính KDC"
  let (subjectCN, publicKeyPss) ← attempt (b.verifyChainToRoot chain)
  check (subjectCN = "kdc-service") ("Cert ký AS_REP có CN không đúng (" ++
    (if subjectCN = "" then "rỗng" else subjectCN) ++ ") — nghi ngờ giả mạo KDC")
  let kdcSigOk ← attempt (b.verifyRsaPss publicKeyPss (← b.bytes asRep "kdc_signature")
    payloadPlaintext)
  check (kdcSigOk = true) "Chữ ký KDC trên AS_REP không hợp lệ — nghi ngờ giả mạo KDC/gateway MITM"
  check (b.asString (← b.field payload "nonce_1") = some req.nonceB64)
    "AS_REP nonce không khớp — nghi ngờ MITM/replay"
  return {
    clientId := req.clientId, certSn := req.certSn, tgt := ← b.field payload "tgt",
    sessionKey := ← b.bytes payload "k_c_tgs",
    -- the signed payload has no expiry
    tgtExpiresAt := ← b.field resp "tgt_expiry", operationId := req.operationId }

/-! ## The TGS exchange -/

/-- What the browser has of its request to the TGS. -/
structure TgsRequest where
  clientId : String
  certSn : String
  scope : String
  nonceB64 : String
  kcTgs : List UInt8

/-- `ServiceTicketSession` -/
@[ext] structure ServiceTicketSession (V : Type) where
  scope : String
  serviceId : V
  ticketV : V
  sessionKey : List UInt8
  ticketExpiresAt : V
  clientId : String
  certSn : String

/-- The reply under the session key of the TGS. -/
def Browser.tgsPlaintext (req : TgsRequest) (resp : V) : Except Failure (List UInt8) := do
  attempt (b.aesGcmDecrypt req.kcTgs (← b.bytes resp "encrypted_payload"))

/-- `performTgsExchange` from the reply on: the ticket that is stored. -/
def Browser.performTgsExchange (req : TgsRequest) (resp : V) :
    Except Failure (ServiceTicketSession V) := do
  let reply ← attempt (b.parse (← b.tgsPlaintext req resp))
  check (b.asString (← b.field reply "nonce2") = some req.nonceB64)
    "TGS_REP nonce không khớp — nghi ngờ MITM/replay"
  check (b.asString (← b.field reply "scope") = some req.scope)
    "TGS_REP scope không khớp yêu cầu"
  let service ← b.field reply "id_v"
  return {
    scope := req.scope,
    serviceId := if b.truthy service then service else b.ofString "bank-service",
    ticketV := ← b.field reply "ticket_v", sessionKey := ← b.bytes reply "k_c_v",
    -- the expiry in the reply is not read
    ticketExpiresAt := ← b.field resp "ticket_expiry",
    clientId := req.clientId, certSn := req.certSn }

/-! ## The transfer -/

/-- What the browser has of its transfer. -/
structure ApRequest where
  kcv : List UInt8
  nonceB64 : String

/-- The reply under the session key of the bank. -/
def Browser.apPlaintext (req : ApRequest) (resp : V) : Except Failure (List UInt8) := do
  attempt (b.aesGcmDecrypt req.kcv (← b.bytes resp "ap_rep"))

/-- `performTransfer` from the reply on: the identifier of the transaction. -/
def Browser.performTransfer (req : ApRequest) (resp : V) : Except Failure V := do
  let apRep ← attempt (b.parse (← b.apPlaintext req resp))
  check (b.asString (← b.field apRep "result") = some "ok")
    "Giao dịch bị từ chối bởi Bank Service"
  check (b.asString (← b.field apRep "nonce") = some req.nonceB64)
    "AP_REP nonce không khớp — nghi ngờ MITM/replay"
  let transactionId ← b.field resp "transaction_id"
  if b.truthy transactionId then return transactionId else b.field apRep "tx_id"

/-! ## What is kept -/

section Kept

variable {b}

@[simp] theorem attempt_eq_ok {α : Type} {x : Option α} {a : α} : attempt x = .ok a ↔ x = some a := by
  cases x <;> simp [attempt]

@[simp] theorem check_eq_ok {condition : Prop} [Decidable condition] {message : String} {u : Unit} :
    check condition message = .ok u ↔ condition := by
  unfold check
  split
  · exact iff_of_true rfl ‹_›
  · exact iff_of_false (fun h => by cases h) ‹_›

/-- Of its reply the AS exchange keeps what was signed, and the expiry beside it. -/
theorem AsSession.kept {req : AsRequest} {resp : V} {p : List UInt8} {s : AsSession V}
    (hp : b.asPlaintext req resp = .ok p) (h : b.performAsExchange req resp = .ok s) :
    ∃ payload, b.parse p = some payload ∧ b.field payload "tgt" = .ok s.tgt ∧
      b.bytes payload "k_c_tgs" = .ok s.sessionKey ∧ s.clientId = req.clientId ∧
      s.certSn = req.certSn ∧ s.operationId = req.operationId ∧
      b.field resp "tgt_expiry" = .ok s.tgtExpiresAt := by
  simp only [Browser.asPlaintext, Browser.performAsExchange, bind_eq_ok, attempt_eq_ok,
    check_eq_ok] at hp h
  obtain ⟨opened, hopen, hp⟩ := hp
  obtain ⟨opened', hopen', payload, hparse, chain, -, -, -, leaf, -, -, -, signature, -, ok, -, -, -,
    nonce, -, -, -, tgt, htgt, key, hkey, expiry, hexpiry, hs⟩ := h
  cases hp
  cases hs
  obtain rfl : opened = opened' := Except.ok.inj (hopen.symm.trans hopen')
  exact ⟨payload, hparse, htgt, hkey, rfl, rfl, rfl, hexpiry⟩

/-- Of its reply the TGS exchange keeps what was sealed, and the expiry beside it. -/
theorem ServiceTicketSession.kept {req : TgsRequest} {resp : V} {p : List UInt8}
    {s : ServiceTicketSession V} (hp : b.tgsPlaintext req resp = .ok p)
    (h : b.performTgsExchange req resp = .ok s) :
    ∃ reply service, b.parse p = some reply ∧ b.field reply "id_v" = .ok service ∧
      s.serviceId = (if b.truthy service then service else b.ofString "bank-service") ∧
      b.field reply "ticket_v" = .ok s.ticketV ∧ b.bytes reply "k_c_v" = .ok s.sessionKey ∧
      s.scope = req.scope ∧ s.clientId = req.clientId ∧ s.certSn = req.certSn ∧
      b.field resp "ticket_expiry" = .ok s.ticketExpiresAt := by
  simp only [Browser.performTgsExchange, bind_eq_ok, attempt_eq_ok, check_eq_ok] at h
  obtain ⟨p', hp', reply, hparse, nonce, -, -, -, scope, -, -, -, service, hservice, ticket, hticket,
    key, hkey, expiry, hexpiry, hs⟩ := h
  obtain rfl : p = p' := Except.ok.inj (hp.symm.trans hp')
  cases hs
  exact ⟨reply, service, hparse, hservice, rfl, hticket, hkey, rfl, rfl, rfl, hexpiry⟩

end Kept

/-! ## Two replies -/

/-- A browser whose values are those of JSON and `undefined`, with a cryptography that puts the key
before the text. -/
def sampleBrowser : Browser (Option Go.Json) where
  parse bytes := (Go.Json.parse bytes).map some
  get v name := match v with
    | none | some .null => none
    | some (.object members) => some (members.reverse.lookup name)
    | _ => some none
  asString v := match v with
    | some (.string s) => some s
    | _ => none
  ofString s := some (.string s)
  truthy v := match v with
    | none | some .null | some (.bool false) => false
    | some (.string s) => s ≠ ""
    | some (.number text) => text ≠ "0"
    | _ => true
  base64ToBytes v := match v with
    | some (.string s) => Go.decodeBase64 s
    | _ => none
  aesGcmDecrypt key text := if text.take key.length = key then some (text.drop key.length) else none
  rsaOaepDecrypt _ text _ := some text
  verifyChainToRoot _ := some ("kdc-service", [])
  verifyRsaPss _ _ _ := some true

/-- What the bank replies to a transfer. -/
def sampleApRep : List UInt8 :=
  Go.utf8 "\x7b\"result\":\"ok\",\"tx_id\":\"t1\",\"nonce\":\"bg==\"\x7d"

/-- The reply to a transfer, with an identifier beside the ciphertext. -/
def sampleReply (outer : String) : Option Go.Json :=
  some (.object [("ap_rep", .string (Go.base64 (7 :: sampleApRep))),
    ("transaction_id", .string outer)])

end Frontend
