import MiniBanking.Bank.Payload
import MiniBanking.Kerberos.Freshness

/-!
# The bank handler

The gRPC methods of the bank that follow an AP exchange, as programs over the statements of the
bank, in the order of the source: the security gate of `authorize` and `markReplay`, and behind
it the calls of the service.

## Main definitions

* `Status`: the errors of the handler
* `Handler.authorize`, `Handler.markReplay`: the gate
* `Handler.transferMoney`, `Handler.getBalance`, `Handler.getHistory`,
  `Handler.createAdminSession`, `Handler.createUser`: the methods
* `Handler.requireAdminSession`: the gate of the methods for administrators
* `ApRequest`, `ApResult`, `Handler.program`: the calls of the handler
-/

namespace Bank

open Concurrency Go Kerberos Postgres

/-! ## Errors -/

/-- `codes.Code` of gRPC, as far as the handler uses it. -/
inductive Code where
  | invalidArgument
  | notFound
  | alreadyExists
  | permissionDenied
  | failedPrecondition
  | internal
  | unavailable
  | unauthenticated
  deriving DecidableEq

/-- `status.Error`. -/
structure Status where
  code : Code
  message : String
  deriving DecidableEq

/-- `toStatusError`. -/
def toStatusError (operation : String) (err : Err) : Status :=
  match err with
  | .notConfigured => ⟨.failedPrecondition, err.message⟩
  | .invalidInput => ⟨.invalidArgument, err.message⟩
  | .userExists => ⟨.alreadyExists, err.message⟩
  | .accountNotFound => ⟨.notFound, err.message⟩
  | .forbidden => ⟨.permissionDenied, err.message⟩
  | .accountNotActive | .insufficientFunds | .dailyLimitExceeded | .idempotency =>
    ⟨.failedPrecondition, err.message⟩
  | .badRequest => ⟨.invalidArgument, err.message⟩
  | .wrapped _ => ⟨.internal, operation ++ ": " ++ err.message⟩

/-! ## The gate -/

def scopeTransfer : String := "transfer:create"
def scopeBalance : String := "balance:read"
def scopeHistory : String := "history:read"
def scopeAdminRead : String := "bank-admin:read"

/-- The result of a successful AP exchange: the ticket with the fields of the authenticator and
what the CA says about the certificate. -/
structure AuthInfo where
  ticket : TicketInfo
  nonce : String
  requestID : String
  timestamp : Time
  publicKeyPEM : String
  certType : String
  issuerID : String
  issuerCommonName : String
  issuerSerial : String
  chainFingerprints : List String
  bankAdmin : Bool
  deriving DecidableEq

/-- `out.sessionKey`. -/
def AuthInfo.sessionKey (auth : AuthInfo) : List UInt8 := auth.ticket.session

/-- `callerFrom`. -/
def callerFrom (auth : AuthInfo) : Caller where
  clientID := auth.ticket.clientID
  certSN := auth.ticket.certSN
  scope := auth.ticket.scope
  nonce := auth.nonce
  requestID := auth.requestID

/-- The CA does not say that the certificate may be used now. -/
def certificateRejected (cert : VerifyCertificateResponse) (nowUnix : Int64) : Prop :=
  cert.status ≠ .active ∨ 0 < cert.revokedAtUnix ∨ nowUnix < cert.notBeforeUnix ∨
    (0 < cert.notAfterUnix ∧ cert.notAfterUnix ≤ nowUnix)

instance (cert : VerifyCertificateResponse) (nowUnix : Int64) :
    Decidable (certificateRejected cert nowUnix) :=
  inferInstanceAs (Decidable (_ ∨ _ ∨ _ ∨ _))

/-- The public key that signatures are verified with: the one the CA reports, or else the one in
the ticket. -/
def selectedKey (ticket : TicketInfo) (cert : VerifyCertificateResponse) : String :=
  if cert.publicKeyPem = "" then ticket.publicKeyPEM else cert.publicKeyPem

/-- The identity of a ticket, an authenticator and a certificate that passed all checks. -/
def AuthInfo.of (ticket : TicketInfo) (authn : Authenticator)
    (cert : VerifyCertificateResponse) : AuthInfo where
  ticket := ticket
  nonce := authn.nonce
  requestID := authn.requestID
  timestamp := .unix authn.timestamp
  publicKeyPEM := selectedKey ticket cert
  certType := cert.certType
  issuerID := cert.issuerId
  issuerCommonName := cert.issuerCommonName
  issuerSerial := cert.issuerSerialNumber
  chainFingerprints := cert.chainFingerprints
  bankAdmin := cert.role = .bankAdmin

/-- Record that a request is rejected and return the error. -/
def reject {α : Type} (event : AuditEvent) (status : Status) : Run (Except Status α) := do
  stmt (.audit event)
  return .error status

namespace Handler

variable (h : Handler)

/-- The part of `authorize` that asks the CA about the certificate of the ticket. -/
def checkCertificate (ticket : TicketInfo) (authn : Authenticator) (requiredScope : String) :
    Run (Except Status AuthInfo) := do
  let event : AuditEvent := {
    action := "certificate_rejected", userID := ticket.clientID, certSerial := ticket.certSN,
    requestID := authn.requestID, metadata := [("scope", requiredScope)] }
  let rejected : Status := ⟨.unauthenticated, "CERT_REJECTED"⟩
  let .ok cert ← stmt (.verifyCertificate ticket.certSN)
    | reject { event with reason := "ca_unavailable" } ⟨.unavailable, "SERVICE_UNAVAILABLE"⟩
  let now ← stmt .now
  if certificateRejected cert now.time.toUnix then
    return ← reject { event with reason := "certificate_not_active" } rejected
  if cert.ownerId ≠ "" ∧ cert.ownerId ≠ ticket.clientID then
    return ← reject { event with reason := "certificate_owner_mismatch" } rejected
  if !validateClientCertificateMetadata cert then
    return ← reject { event with
      reason := "certificate_chain_metadata_invalid"
      metadata := [("cert_type", cert.certType), ("issuer_id", cert.issuerId)] } rejected
  if !validateTicketCertificateMetadata ticket cert then
    return ← reject { event with
      reason := "ticket_certificate_metadata_mismatch"
      metadata := [("ticket_cert_type", ticket.certType), ("ticket_issuer_id", ticket.issuerID),
        ("ca_cert_type", cert.certType), ("ca_issuer_id", cert.issuerId)] } rejected
  return .ok (.of ticket authn cert)

/-- The part of `authorize` that checks the authenticator. -/
def checkAuthenticator (ticket : TicketInfo) (authenticatorCipher : List UInt8)
    (requiredScope : String) : Run (Except Status AuthInfo) := do
  let event : AuditEvent := {
    action := "transfer_rejected", userID := ticket.clientID, certSerial := ticket.certSN,
    metadata := [("scope", requiredScope)] }
  let some authn := h.decryptAuthenticator ticket.session authenticatorCipher
    | reject { event with reason := "invalid_authenticator" }
        ⟨.unauthenticated, "INVALID_AUTHENTICATOR"⟩
  if authn.clientID ≠ ticket.clientID then
    return ← reject { event with reason := "authenticator_client_mismatch" }
      ⟨.unauthenticated, "INVALID_AUTHENTICATOR"⟩
  let event := { event with requestID := authn.requestID }
  if authn.timestamp = 0 ∨ authn.nonce = "" ∨ authn.requestID = "" then
    return ← reject { event with reason := "authenticator_missing_fields" }
      ⟨.invalidArgument, "BAD_REQUEST"⟩
  let now ← stmt .now
  if stale now.time authn.timestamp then
    return ← reject { event with reason := "stale_request" } ⟨.unauthenticated, "STALE_REQUEST"⟩
  checkCertificate ticket authn requiredScope

/-- `h.clock.Now().After(expires) || h.clock.Now().Equal(expires)`. -/
def ticketExpired (expires : Time) : Run Bool := do
  let now ← stmt .now
  if now.time.after expires then return true
  let now ← stmt .now
  return now.time.equal expires

/-- `authorize`: the AP exchange. -/
def authorize (ticketCipher authenticatorCipher : List UInt8) (requiredScope : String) :
    Run (Except Status AuthInfo) := do
  if !h.svc.configured || !h.hasCA || h.bankKV.length ≠ aes256KeySize then
    return .error ⟨.failedPrecondition, "bank handler dependencies are not configured"⟩
  let event : AuditEvent := {
    action := "transfer_rejected", metadata := [("scope", requiredScope)] }
  let some ticket := h.decryptTicket ticketCipher
    | reject { event with reason := "invalid_ticket" } ⟨.unauthenticated, "INVALID_TICKET"⟩
  let event := { event with userID := ticket.clientID, certSerial := ticket.certSN }
  if ← ticketExpired ticket.expires then
    return ← reject { event with reason := "ticket_expired" } ⟨.unauthenticated, "INVALID_TICKET"⟩
  if ticket.scope ≠ requiredScope then
    return ← reject { event with reason := "wrong_scope" } ⟨.permissionDenied, "WRONG_SCOPE"⟩
  h.checkAuthenticator ticket authenticatorCipher requiredScope

/-- The key under which a request is marked as seen. -/
def replayKey (clientID nonce : String) (timestamp : Int64) (requestID : String) : String :=
  "replay:bank:" ++ h.svc.hexHash (utf8 (clientID ++ "|" ++ nonce ++ "|" ++
    toString timestamp.toInt ++ "|" ++ requestID))

/-- The part of `markReplay` that marks a request in `used_nonces`. -/
def markUsed (key : String) (rejection : Run (Except Status Unit)) : Run (Except Status Unit) := do
  let usedAt ← stmt .now
  let now ← stmt .now
  let .ok () ← stmt (.insertUsedNonce key usedAt (now.ns + replayTTL)) | rejection
  return .ok ()

/-- `markReplay`: marks a request as seen, in Redis or, when Redis fails, in `used_nonces`. -/
def markReplay (auth : AuthInfo) : Run (Except Status Unit) := do
  let key := h.replayKey auth.ticket.clientID auth.nonce auth.timestamp.toUnix auth.requestID
  let rejection (reason : String) : Run (Except Status Unit) := reject {
    action := "replay_detected", userID := auth.ticket.clientID,
    certSerial := auth.ticket.certSN, requestID := auth.requestID, reason,
    metadata := [("scope", auth.ticket.scope)] } ⟨.unauthenticated, "REPLAY_DETECTED"⟩
  if h.hasReplay then
    match ← stmt (.setNX key replayTTL) with
    | .ok true => return .ok ()
    | .ok false => rejection "redis_replay"
    | .error () => markUsed key (rejection "db_replay")
  else markUsed key (rejection "db_replay")

/-- `encryptAPRep`: the reply under the session key. -/
def encryptAPRep (key : List UInt8) (payload : List (String × Json)) :
    Run (Option (List UInt8)) := do
  let .ok nonce ← stmt (.readRandom nonceSize) | return none
  return h.encryptAESGCMEmbedded key nonce (Json.marshal (.object payload))

/-- The number of a 64-bit integer in JSON. -/
def jsonInt (n : Int64) : Json := .number (toString n.toInt)

/-! ## The methods -/

/-- `TransferResponse`. -/
structure TransferResponse where
  apRep : List UInt8
  transactionId : String
  deriving DecidableEq

/-- The transfer of a payload that passed all checks. -/
def transferInput (transfer : TransferPayload) (canonical signature : List UInt8) :
    TransferInput where
  fromAccountNumber := transfer.fromAccountNumber
  toAccountNumber := transfer.toAccountNumber
  amount := transfer.amount
  currency := transfer.currency
  description := transfer.description
  idempotencyKey := transfer.idempotencyKey
  canonical := canonical
  signature := signature

/-- The part of `TransferMoney` after all checks. -/
def executeSigned (auth : AuthInfo) (input : TransferInput) :
    Run (Except Status TransferResponse) := do
  match ← h.svc.transfer (callerFrom auth) input with
  | .error err => return .error (toStatusError "transfer" err)
  | .ok txID =>
    let some apRep ← h.encryptAPRep auth.sessionKey
        [("result", .string "ok"), ("tx_id", .string txID), ("nonce", .string auth.nonce),
          ("request_id", .string auth.requestID)]
      | return .error ⟨.internal, "encrypt ap_rep"⟩
    return .ok { apRep, transactionId := txID }

/-- The part of `TransferMoney` after the AP exchange. -/
def checkPayload (auth : AuthInfo) (cipherPayload iv : List UInt8) :
    Run (Except Status TransferResponse) := do
  let event : AuditEvent := {
    action := "transfer_rejected", userID := auth.ticket.clientID,
    certSerial := auth.ticket.certSN, requestID := auth.requestID }
  let order ← stmt .mapOrder
  let some (transfer, canonical, signature) :=
      h.decryptTransferPayload order cipherPayload iv auth.sessionKey
    | reject { event with reason := "invalid_payload" }
        ⟨.invalidArgument, "invalid transfer payload"⟩
  if transfer.scope ≠ "" ∧ transfer.scope ≠ scopeTransfer then
    return ← reject { event with reason := "wrong_payload_scope" }
      ⟨.permissionDenied, "WRONG_SCOPE"⟩
  if transfer.requestID ≠ "" ∧ transfer.requestID ≠ auth.requestID then
    return ← reject { event with reason := "request_id_mismatch" }
      ⟨.unauthenticated, "INVALID_AUTHENTICATOR"⟩
  if !h.verifyRSAPSS auth.publicKeyPEM canonical signature then
    return ← reject { event with
      action := "invalid_signature", reason := "payload_signature_invalid" }
      ⟨.unauthenticated, "INVALID_SIGNATURE"⟩
  match ← h.markReplay auth with
  | .error err => return .error err
  | .ok () => h.executeSigned auth (transferInput transfer canonical signature)

/-- `TransferMoney`. -/
def transferMoney (ticketV authenticator cipherPayload iv : List UInt8) :
    Run (Except Status TransferResponse) := do
  match ← h.authorize ticketV authenticator scopeTransfer with
  | .error err => return .error err
  | .ok auth => h.checkPayload auth cipherPayload iv

/-- A method that reads: the gate, the call of the service, and the reply under the session key
with the result the gateway sees. -/
def readMethod {α β : Type} (ticketV authenticator : List UInt8) (scope operation : String)
    (call : Caller → Run (Except Err α)) (payload : AuthInfo → α → List (String × Json))
    (response : List UInt8 → α → β) : Run (Except Status β) := do
  match ← h.authorize ticketV authenticator scope with
  | .error err => return .error err
  | .ok auth =>
    match ← h.markReplay auth with
    | .error err => return .error err
    | .ok () =>
      match ← call (callerFrom auth) with
      | .error err => return .error (toStatusError operation err)
      | .ok res =>
        let some apRep ← h.encryptAPRep auth.sessionKey (payload auth res)
          | return .error ⟨.internal, "encrypt ap_rep"⟩
        return .ok (response apRep res)

/-- `GetBalance`, whose reply also has the caller's profile. -/
def getBalance (ticketV authenticator : List UInt8) (accountId : String) :
    Run (Except Status (List UInt8 × BalanceResult)) :=
  h.readMethod ticketV authenticator scopeBalance "balance"
    (fun caller => Service.getBalance caller accountId)
    (fun auth res =>
      [("result", .string "ok"), ("account_id", .string res.accountID),
        ("nonce", .string auth.nonce), ("request_id", .string auth.requestID),
        ("full_name", .string res.fullName), ("email", .string res.email),
        ("user_status", .string res.userStatus), ("account_number", .string res.accountNumber),
        ("balance", jsonInt res.balance), ("currency", .string res.currency),
        ("account_status", .string res.status), ("daily_transfer_limit", jsonInt res.limit),
        ("daily_transfer_used", jsonInt res.dailyTransferUsed)])
    fun apRep res => (apRep, res)

/-- `GetHistory`. -/
def getHistory (ticketV authenticator : List UInt8) (accountId : String) (limit offset : Int32) :
    Run (Except Status (List UInt8 × HistoryResult)) :=
  h.readMethod ticketV authenticator scopeHistory "history"
    (fun caller => Service.getHistory caller accountId limit offset)
    (fun auth _ =>
      [("result", .string "ok"), ("account_id", .string accountId),
        ("nonce", .string auth.nonce), ("request_id", .string auth.requestID)])
    fun apRep res => (apRep, res)

/-- `CreateAdminSessionResponse`. -/
structure AdminSessionResponse where
  apRep : List UInt8
  sessionToken : String
  session : AdminSession
  deriving DecidableEq

/-- `base64.RawURLEncoding.EncodeToString`. -/
def rawURLEncoding (bytes : List UInt8) : String :=
  String.ofList (((base64Chars bytes).filter (· != '=')).map fun c =>
    if c = '+' then '-' else if c = '/' then '_' else c)

/-- The part of `CreateAdminSession` after the gate. -/
def openSession (auth : AuthInfo) : Run (Except Status AdminSessionResponse) := do
  let .ok tokenBytes ← stmt (.readRandom 32)
    | return .error ⟨.internal, "generate admin session token"⟩
  let rawToken := rawURLEncoding tokenBytes
  let now ← stmt .now
  let ttl := auth.ticket.expires.sub now.time
  if ttl ≤ 0 then return .error ⟨.unauthenticated, "INVALID_TICKET"⟩
  let session : AdminSession := {
    adminID := auth.ticket.clientID, certSN := auth.ticket.certSN, role := "bank_admin",
    expiresAt := auth.ticket.expires.toUnix }
  let .ok () ← stmt (.createSession (h.svc.hexHash (utf8 rawToken)) session ttl.toInt)
    | return .error ⟨.unavailable, "ADMIN_SESSION_STORE_UNAVAILABLE"⟩
  let some apRep ← h.encryptAPRep auth.sessionKey
      [("result", .string "ok"), ("nonce", .string auth.nonce),
        ("request_id", .string auth.requestID), ("role", .string session.role),
        ("session_expires_at", jsonInt session.expiresAt)]
    | return .error ⟨.internal, "encrypt ap_rep"⟩
  return .ok { apRep, sessionToken := rawToken, session }

/-- `CreateAdminSession`. -/
def createAdminSession (ticketV authenticator : List UInt8) :
    Run (Except Status AdminSessionResponse) := do
  if !h.hasSessions then
    return .error ⟨.failedPrecondition, "admin session store is not configured"⟩
  match ← h.authorize ticketV authenticator scopeAdminRead with
  | .error err => return .error err
  | .ok auth =>
    if !auth.bankAdmin then return .error ⟨.permissionDenied, "ADMIN_ROLE_REQUIRED"⟩
    match ← h.markReplay auth with
    | .error err => return .error err
    | .ok () => h.openSession auth

/-- `session.ExpiresAt <= now.Unix()` -/
def sessionExpired (session : AdminSession) (now : Time) : Bool :=
  session.expiresAt ≤ now.toUnix

/-- The part of `requireAdminSession` after the session was read. -/
def checkSession (encoded : List UInt8) : Run (Except Status AdminSession) := do
  let some session := unmarshal AdminSession.fields encoded ⟨"", "", "", 0⟩
    | return .error ⟨.unavailable, "ADMIN_SESSION_STORE_UNAVAILABLE"⟩
  let now ← stmt .now
  if sessionExpired session now.time then
    return .error ⟨.unauthenticated, "ADMIN_SESSION_EXPIRED"⟩
  if session.role ≠ "bank_admin" then
    return .error ⟨.permissionDenied, "ADMIN_ROLE_REQUIRED"⟩
  return .ok session

/-- `requireAdminSession`: the session that was stored under the hash of a token. -/
def requireAdminSession (rawToken : String) : Run (Except Status AdminSession) := do
  if rawToken = "" || !h.hasSessions then
    return .error ⟨.unauthenticated, "ADMIN_SESSION_REQUIRED"⟩
  match ← stmt (.getSession (h.svc.hexHash (utf8 rawToken))) with
  | .error () => return .error ⟨.unavailable, "ADMIN_SESSION_STORE_UNAVAILABLE"⟩
  | .ok none => return .error ⟨.unauthenticated, "ADMIN_SESSION_INVALID"⟩
  | .ok (some encoded) => checkSession encoded

/-- `CreateUser`. -/
def createUser (input : CreateUserInput) : Run (Except Status CreateUserResult) := do
  match ← h.svc.createUser input with
  | .error err => return .error (toStatusError "create user" err)
  | .ok result => return .ok result

end Handler

/-! ## Calls -/

/-- A call of the handler. -/
inductive ApRequest where
  | transferMoney (ticketV authenticator cipherPayload iv : List UInt8)
  | getBalance (ticketV authenticator : List UInt8) (accountId : String)
  | getHistory (ticketV authenticator : List UInt8) (accountId : String) (limit offset : Int32)
  | createAdminSession (ticketV authenticator : List UInt8)
  | createUser (input : CreateUserInput)
  /-- A method that asks for an administrator's session. -/
  | requireAdminSession (rawToken : String)
  deriving DecidableEq

/-- What a call returns. -/
inductive ApResult where
  | transferMoney (result : Except Status Handler.TransferResponse)
  | getBalance (result : Except Status (List UInt8 × BalanceResult))
  | getHistory (result : Except Status (List UInt8 × HistoryResult))
  | createAdminSession (result : Except Status Handler.AdminSessionResponse)
  | createUser (result : Except Status CreateUserResult)
  | requireAdminSession (result : Except Status AdminSession)

/-- The program of a call. -/
def Handler.program (h : Handler) : ApRequest → Run ApResult
  | .transferMoney ticketV authenticator cipherPayload iv =>
    return .transferMoney (← h.transferMoney ticketV authenticator cipherPayload iv)
  | .getBalance ticketV authenticator accountId =>
    return .getBalance (← h.getBalance ticketV authenticator accountId)
  | .getHistory ticketV authenticator accountId limit offset =>
    return .getHistory (← h.getHistory ticketV authenticator accountId limit offset)
  | .createAdminSession ticketV authenticator =>
    return .createAdminSession (← h.createAdminSession ticketV authenticator)
  | .createUser input => return .createUser (← h.createUser input)
  | .requireAdminSession rawToken =>
    return .requireAdminSession (← h.requireAdminSession rawToken)

/-- Interleaved calls of the handler. -/
abbrev handlerMachine (h : Handler) (rounding : Rounding) : Machine := machine rounding h.program

/-! ## A sample deployment -/

/-- A deployment whose cryptography is easy to compute: a sealed text starts with its key, and a
signature is valid if it is one byte long. -/
def sampleHandler : Handler where
  svc := sampleService
  bankKV := List.replicate 32 7
  gcmOpen key _ text := if text.take 32 = key then some (text.drop 32) else none
  gcmSeal key _ text := key ++ text
  pemDecode text := some (utf8 text)
  parsePKIXPublicKey block := some (.rsa ⟨block.length, 3⟩)
  parseCertificate _ := none
  verifyPSS _ _ signature := signature.length = 1

/-- A JSON object sealed under a key in the sample deployment. -/
def sampleSeal (key : List UInt8) (members : List (String × Json)) : List UInt8 :=
  List.replicate 12 0 ++ key ++ (Json.object members).marshal

/-- The session key of the sample tickets. -/
def sampleSession : List UInt8 := List.replicate 32 0

/-- The ticket of the sample user 1 for a scope, with an expiry. -/
def sampleTicket (scope : String) (expiresAt : Int64) : List UInt8 :=
  sampleSeal sampleHandler.bankKV
    [("client_id", .string (sampleUser 1)), ("cert_sn", .string "01"), ("scope", .string scope),
      ("k_c_v", .string (base64 sampleSession)), ("expires_at", Handler.jsonInt expiresAt)]

/-- An authenticator of the sample user 1 with a timestamp. -/
def sampleAuthenticator (timestamp : Int64) : List UInt8 :=
  sampleSeal sampleSession
    [("client_id", .string (sampleUser 1)), ("nonce", .string "n1"),
      ("request_id", .string "r1"), ("ts_3", Handler.jsonInt timestamp)]

/-- A signed payload: the sample user 1 sends 250 to the sample user 2. -/
def samplePayload : List UInt8 :=
  sampleSeal sampleSession
    [("payload", .object
        [("from_account_number", .string (sampleService.accountNumberFromUser (sampleUser 1))),
          ("to_account_number", .string (sampleService.accountNumberFromUser (sampleUser 2))),
          ("amount", Handler.jsonInt 250), ("idempotency_key", .string "k")]),
      ("client_signature", .string (base64 [1]))]

/-- What the CA says about the certificate of the sample user 1. -/
def sampleCert : VerifyCertificateResponse where
  status := .active
  ownerId := sampleUser 1
  publicKeyPem := "key"
  notBeforeUnix := 1600000000
  notAfterUnix := 1800000000
  revokedAtUnix := 0
  certType := "client"
  issuerId := "client-ca"
  issuerCommonName := "Client CA"
  issuerSerialNumber := "ca"
  chainFingerprints := ["f"]
  role := .customer

/-- The start of the sample deployment. -/
def handlerStart : State (handlerMachine sampleHandler .cut) := ⟨Env.initial sampleClock, ∅⟩

/-- The labels of a call of the handler and of its first `n` statements, none of which fails. -/
def handlerCall (i : ℕ) (q : ApRequest) (n : ℕ) : List (Act (handlerMachine sampleHandler .cut)) :=
  .spawn i q :: List.replicate n
    (.run i { random := Vector.replicate 16 (UInt8.ofNat (100 + i)), cert := .ok sampleCert :
      Choice })

/-- Two users are created and one sends 250 to the other, with an authenticator's timestamp. -/
def handlerPaid (timestamp : Int64) : List (Act (handlerMachine sampleHandler .cut)) :=
  handlerCall 0 (.createUser ⟨sampleUser 1, "01", "User"⟩) 7 ++
    handlerCall 1 (.createUser ⟨sampleUser 2, "02", "User"⟩) 7 ++
    handlerCall 2 (.transferMoney (sampleTicket scopeTransfer 1700000300)
      (sampleAuthenticator timestamp) samplePayload []) 24

end Bank
