import MiniBanking.Kdc.Statement
import MiniBanking.Kerberos.Freshness

/-!
# The KDC service

The AS exchange and the TGS exchange as programs over the statements of the KDC, in the order of
the source.

## Main definitions

* `ASService`, `TGSService`, `Service`: what a deployment of the KDC fixes
* `ASConfig.newASService`, `Config.newTGSService`: their construction with its checks and defaults
* `Service.issueTGT`: the AS exchange
* `Service.requestServiceTicket`: the TGS exchange
* `KdcRequest`, `KdcResult`, `Service.program`: the calls of the KDC
-/

namespace Kdc

open Concurrency Go Kerberos

/-! ## Construction -/

/-- An AES-256 key. -/
def AES256Key := { key : List UInt8 // key.length = aes256KeySize }

/-- Five minutes. -/
def fiveMinutes : Duration := 300000000000

/-- The AS exchange service. -/
structure ASService where
  ktgsKey : AES256Key
  timestampWindow : Duration
  tgtTTL : Duration
  signingChainPEM : String
  hasAudit : Bool

structure ASConfig where
  ktgsKey : List UInt8
  tgtTTL : Duration
  timestampWindow : Duration
  signingChainPEM : String
  hasAudit : Bool

/-- `NewASService`. -/
def ASConfig.newASService (cfg : ASConfig) : Except String ASService :=
  if h : cfg.ktgsKey.length = aes256KeySize then
    .ok {
      ktgsKey := ⟨cfg.ktgsKey, h⟩
      timestampWindow := if cfg.timestampWindow = 0 then fiveMinutes else cfg.timestampWindow
      tgtTTL := if cfg.tgtTTL = 0 then fiveMinutes else cfg.tgtTTL
      signingChainPEM := cfg.signingChainPEM
      hasAudit := cfg.hasAudit }
  else .error "K_tgs must be 32 bytes"

/-- `StaticScopeAuthorizer`: the scopes of every service. -/
abbrev StaticScopeAuthorizer := List (String × List (String × Bool))

/-- `StaticScopeAuthorizer.Allowed`. -/
def StaticScopeAuthorizer.allowed (a : StaticScopeAuthorizer) (serviceID scope : String) : Bool :=
  if scope = "" then false
  else match a.lookup serviceID with
    | none => false
    | some scopes => (scopes.lookup scope).getD false

/-- The TGS exchange service. -/
structure TGSService where
  tgsKey : AES256Key
  serviceKeys : List (String × AES256Key)
  scopeAuthorizer : StaticScopeAuthorizer
  ticketTTL : Duration
  timestampWindow : Duration
  replayTTL : Duration
  hasAudit : Bool

structure Config where
  tgsKey : List UInt8
  serviceKeys : List (String × List UInt8)
  scopeAuthorizer : StaticScopeAuthorizer
  ticketTTL : Duration
  timestampWindow : Duration
  replayTTL : Duration
  hasAudit : Bool

/-- The loop of `NewTGSService` over the service keys. -/
def checkServiceKeys : List (String × List UInt8) → Except Cause (List (String × AES256Key))
  | [] => .ok []
  | (serviceID, key) :: keys =>
    if h : key.length = aes256KeySize then do
      return (serviceID, ⟨key, h⟩) :: (← checkServiceKeys keys)
    else .error (.quoting "service key for " serviceID " must be 32 bytes")

/-- `NewTGSService`. -/
def Config.newTGSService (cfg : Config) : Except Cause TGSService :=
  if h : cfg.tgsKey.length = aes256KeySize then do
    return {
      tgsKey := ⟨cfg.tgsKey, h⟩
      serviceKeys := ← checkServiceKeys cfg.serviceKeys
      scopeAuthorizer := cfg.scopeAuthorizer
      ticketTTL := if cfg.ticketTTL = 0 then fiveMinutes else cfg.ticketTTL
      timestampWindow := if cfg.timestampWindow = 0 then fiveMinutes else cfg.timestampWindow
      replayTTL := if cfg.replayTTL = 0 then fiveMinutes else cfg.replayTTL
      hasAudit := cfg.hasAudit }
  else .error (.text "TGSKey must be 32 bytes")

/-- The KDC facade: both exchanges with one key for ticket-granting tickets. -/
structure Service where
  crypto : Crypto
  as : ASService
  tgs : TGSService
  one_key : tgs.tgsKey = as.ktgsKey

/-! ## Requests -/

/-- The trace id and the address of a caller, for the audit log. -/
structure AuditMeta where
  requestID : String
  ip : String
  deriving DecidableEq

/-- A request of the AS exchange. -/
structure ASRequest where
  ownerID : String
  certSn : String
  nonce : List UInt8
  timestamp : Int64
  signature : List UInt8
  deriving DecidableEq

/-- A request of the TGS exchange. -/
structure TGSRequest where
  serviceID : String
  tgtCiphertext : List UInt8
  authenticator : List UInt8
  certSN : String
  nonce2 : List UInt8
  requestedScope : String
  deriving DecidableEq

/-- A reply of the TGS exchange. -/
structure TGSResponse where
  encryptedPayload : List UInt8
  ticketExpiryUnix : Int64
  deriving DecidableEq

/-- `recordAudit`. -/
def recordAudit (hasAudit : Bool) (ctx : AuditMeta) (e : AuditEvent) : Run Unit :=
  if hasAudit then stmt (.audit { e with requestID := ctx.requestID, ip := ctx.ip })
  else return ()

/-- `newSessionKey`. -/
def newSessionKey : Run (Except Unit (List UInt8)) := stmt (.readRandom aes256KeySize)

namespace Service

variable (s : Service)

/-! ## What both exchanges share -/

/-- `encryptJSON` of a structure. -/
def encryptJSON (key : List UInt8) (members : List (String × Json)) :
    Run (Except Unit (List UInt8)) := do
  if key.length ≠ aes256KeySize then return .error ()
  let .ok nonce ← stmt (.readRandom gcmNonceSize) | return .error ()
  return .ok (s.crypto.encryptBytes key nonce (Json.marshalStruct members))

/-- `hex.EncodeToString` of the SHA-256 of a text. -/
def hexHash (text : String) : String := hex (s.crypto.sha256 (utf8 text)).toList

/-- Mark a key as seen, or reject it as a replay. -/
def markSeen (key : String) (ttl : Duration) : Run (Except KDCError Unit) := do
  let .ok new ← stmt (.setNX key ttl) | return .error ⟨.internal, some .external⟩
  if !new then return .error ⟨.replayDetected, none⟩
  return .ok ()

/-- `GetCertificate`. -/
def getCertificate (certSN : String) : Run (Except CallError Certificate) := do
  match ← stmt (.verifyCertificate certSN) with
  | .error err => return .error err
  | .ok resp =>
    let some cert := s.crypto.certificateOf certSN resp | return .error .other
    return .ok cert

/-- `loadUsableCert`. -/
def loadUsableCert (certSN : String) (now : Time) : Run (Except KDCError Certificate) := do
  match ← s.getCertificate certSN with
  | .error .notFound => return .error ⟨.certNotFound, some .external⟩
  | .error .other => return .error ⟨.internal, some .external⟩
  | .ok cert =>
    match validateCertUsable cert now with
    | .error err => return .error err
    | .ok () => return .ok cert

/-- `parseRSAPublicKeyPEM`. -/
def parseRSAPublicKeyPEM (publicKeyPEM : String) : Except Cause Bank.RSAPublicKey :=
  match s.crypto.pemDecode publicKeyPEM with
  | none => .error (.text "decode public key pem failed")
  | some block =>
    match s.crypto.parsePKIXPublicKey block with
    | none => .error .external
    | some (.rsa key) => .ok key
    | some .other => .error (.text "public key is not RSA")

/-- `verifySignature`: PKCS #1 v1.5, or else PSS. -/
def verifySignature (pubKey : Bank.RSAPublicKey) (dataToVerify signature : List UInt8) :
    Except KDCError Unit :=
  let hashed := (s.crypto.sha256 dataToVerify).toList
  if s.crypto.verifyPKCS1v15 pubKey hashed signature then .ok ()
  else if s.crypto.verifyPSS pubKey hashed signature then .ok ()
  else .error ⟨.authInvalid, some .external⟩

/-! ## The AS exchange -/

/-- `validateFreshness`. -/
def validateFreshness (timestamp : Int64) : Run (Except KDCError Unit) := do
  let now ← stmt .now
  if !timestampWithinWindow now.time timestamp s.as.timestampWindow then
    return .error ⟨.requestExpired, none⟩
  return .ok ()

/-- The key under which an AS request is marked as seen. -/
def asReplayKey (clientID : String) (nonce : List UInt8) (timestamp : Int64) : String :=
  "replay:as:" ++ s.hexHash (clientID ++ ":" ++ base64 nonce ++ ":" ++ toString timestamp.toInt)

/-- `checkASReplay`. -/
def checkASReplay (clientID : String) (nonce : List UInt8) (timestamp : Int64) :
    Run (Except KDCError Unit) :=
  markSeen (s.asReplayKey clientID nonce timestamp) s.as.timestampWindow

/-- `authenticateClient`. -/
def authenticateClient (certSn ownerID : String) (signature dataToVerify : List UInt8) :
    Run (Except KDCError Bank.RSAPublicKey) := do
  let now ← stmt .now
  match ← s.loadUsableCert certSn now.time with
  | .error err => return .error err
  | .ok cert =>
    if cert.ownerID = "" ∨ cert.ownerID ≠ ownerID then
      return .error
        ⟨.identityMismatch, some (.text "owner_id does not match certificate owner")⟩
    match s.parseRSAPublicKeyPEM cert.publicKeyPEM with
    | .error err => return .error ⟨.authInvalid, some err⟩
    | .ok pubKey =>
      match s.verifySignature pubKey dataToVerify signature with
      | .error err => return .error err
      | .ok () => return .ok pubKey

/-- The expiry of a ticket-granting ticket. -/
def tgtExpiry (issuedAt : Instant) : Int64 := (issuedAt.time.add s.as.tgtTTL).toUnix

/-- The content of a ticket-granting ticket. -/
def tgtPayload (clientId certSn : String) (kctgs : List UInt8) (issuedAt : Instant) : TGT where
  clientId := clientId
  certSN := certSn
  sessionKey := kctgs
  issuedAt := issuedAt.time.toUnix
  expiry := s.tgtExpiry issuedAt
  expiresAt := s.tgtExpiry issuedAt

/-- `encryptTGT`. -/
def encryptTGT (clientId : String) (kctgs : List UInt8) (certSn : String) (issuedAt : Instant) :
    Run (Except Cause (List UInt8)) := do
  if clientId = "" then return .error (.text "client_id is required")
  if kctgs = [] then return .error (.text "session key k_c_tgs is empty")
  let .ok encryptedTGT ← s.encryptJSON s.as.ktgsKey.1
      (s.tgtPayload clientId certSn kctgs issuedAt).members
    | return .error .external
  return .ok encryptedTGT

/-- `BuildAS_REP`. -/
def buildASRep (clientPubKey : Bank.RSAPublicKey) (kctgs tgt nonce1 : List UInt8) :
    Run (Except Cause (List UInt8)) := do
  if kctgs = [] then return .error (.text "session key k_c_tgs is empty")
  if tgt = [] then return .error (.text "tgt is empty")
  if nonce1 = [] then return .error (.text "nonce1 is empty")
  let payload : ASRepPayload := { sessionKey := kctgs, tgt, nonce1 }
  let hashed := (s.crypto.sha256 (Json.marshalStruct payload.members)).toList
  let .ok salt ← stmt (.readRandom 32) | return .error .external
  let some signature := s.crypto.signPSS hashed salt | return .error .external
  let .ok aesKey ← newSessionKey | return .error .external
  let .ok encryptedPayload ← s.encryptJSON aesKey payload.members | return .error .external
  let .ok seed ← stmt (.readRandom 32) | return .error .external
  let some encryptedKey := s.crypto.encryptOAEP clientPubKey seed aesKey (utf8 "AS_REP")
    | return .error .external
  let response : ASResponse := {
    kdcSignature := signature, encryptedKey, encryptedPayload,
    kdcCertChain := s.as.signingChainPEM }
  return .ok (Json.marshalStruct response.members)

/-- The part of `IssueTGT` after the client is authenticated. -/
def grantTGT (q : ASRequest) (clientPubKey : Bank.RSAPublicKey) :
    Run (Except KDCError (List UInt8 × Int64)) := do
  let .ok sessionKey ← newSessionKey | return .error ⟨.internal, some .external⟩
  let issuedAt ← stmt .now
  match ← s.encryptTGT q.ownerID sessionKey q.certSn issuedAt with
  | .error err => return .error ⟨.internal, some err⟩
  | .ok tgt =>
    match ← s.buildASRep clientPubKey sessionKey tgt q.nonce with
    | .error err => return .error ⟨.internal, some err⟩
    | .ok asRep => return .ok (asRep, s.tgtExpiry issuedAt)

/-- `IssueTGT` without its audit. -/
def exchangeAS (q : ASRequest) : Run (Except KDCError (List UInt8 × Int64)) := do
  match ← s.validateFreshness q.timestamp with
  | .error err => return .error err
  | .ok () =>
    match ← s.checkASReplay q.ownerID q.nonce q.timestamp with
    | .error err => return .error err
    | .ok () =>
      let dataToVerify := asCanonicalPayload q.certSn q.ownerID q.nonce q.timestamp
      match ← s.authenticateClient q.certSn q.ownerID q.signature dataToVerify with
      | .error err => return .error err
      | .ok clientPubKey => s.grantTGT q clientPubKey

/-- `IssueTGT`. -/
def issueTGT (ctx : AuditMeta) (q : ASRequest) :
    Run (Except KDCError (List UInt8 × Int64)) := do
  let result ← s.exchangeAS q
  recordAudit s.as.hasAudit ctx <| match result with
    | .error err => {
      action := .asRejected, clientID := q.ownerID, certSerial := q.certSn, reason := err.reason }
    | .ok _ => { action := .asTicketIssued, clientID := q.ownerID, certSerial := q.certSn }
  return result

/-! ## The TGS exchange -/

/-- The part of `decryptTGT` before the expiry. -/
def openTGT (tgtCiphertext : List UInt8) : Except KDCError TGTPlaintext := do
  let some tgt := s.crypto.decryptJSON TGTPlaintext.fields {} s.tgs.tgsKey.1 tgtCiphertext
    | .error ⟨.authInvalid, some .external⟩
  let tgt := if tgt.expiry = 0 then { tgt with expiry := tgt.expiresAt } else tgt
  if tgt.clientID = "" ∨ tgt.kctgs.length ≠ aes256KeySize ∨ tgt.expiry = 0 then
    .error ⟨.authInvalid, some (.text "malformed TGT")⟩
  else return tgt

/-- `decryptTGT`. -/
def decryptTGT (tgtCiphertext : List UInt8) : Run (Except KDCError TGTPlaintext) := do
  match s.openTGT tgtCiphertext with
  | .error err => return .error err
  | .ok tgt =>
    let now ← stmt .now
    if !(Time.unix tgt.expiry).after now.time then return .error ⟨.tgtExpired, none⟩
    return .ok tgt

/-- The authenticator with its legacy fields in place of the ones that are not set. -/
def withAliases (auth : AuthenticatorPlaintext) : AuthenticatorPlaintext := { auth with
  clientID := if auth.clientID = "" then auth.idC else auth.clientID
  timestamp := if auth.timestamp = 0 then auth.timestampUnix else auth.timestamp
  nonceReq := if auth.nonceReq = "" then auth.nonce else auth.nonceReq
  requestedService := if auth.requestedService = "" then auth.serviceID else auth.requestedService }

/-- `decryptAuthenticator`. -/
def decryptAuthenticator (kctgs authenticator : List UInt8) :
    Except KDCError AuthenticatorPlaintext := do
  let some auth := s.crypto.decryptJSON AuthenticatorPlaintext.fields {} kctgs authenticator
    | .error ⟨.authInvalid, some .external⟩
  let auth := withAliases auth
  if auth.clientID = "" ∨ auth.timestamp = 0 ∨ auth.nonceReq = "" ∨ auth.requestID = "" ∨
      auth.requestedService = "" ∨ auth.scope = "" then
    .error ⟨.authInvalid, some (.text "malformed authenticator")⟩
  else return auth

/-- `validateTimestampWindow`. -/
def validateTimestampWindow (ts : Int64) : Run (Except KDCError Unit) := do
  let now ← stmt .now
  if !timestampWithinWindow now.time ts s.tgs.timestampWindow then
    return .error ⟨.requestExpired, none⟩
  return .ok ()

/-- The nonce that the reply echoes: the one of the request, or else of the authenticator. -/
def echoedNonce (nonce2 : List UInt8) (nonceReq : String) : Except KDCError (List UInt8) :=
  if nonce2 = [] then
    match decodeBase64 nonceReq with
    | none => .error ⟨.authInvalid, some (.text "malformed authenticator nonce")⟩
    | some nonce2 => .ok nonce2
  else if nonceReq ≠ base64 nonce2 then .error ⟨.authInvalid, some (.text "nonce mismatch")⟩
  else .ok nonce2

/-- The key under which a TGS request is marked as seen. -/
def tgsReplayKey (clientID nonceReq : String) (ts : Int64) (serviceID requestID : String) :
    String :=
  "replay:tgs:" ++ s.hexHash (clientID ++ ":" ++ nonceReq ++ ":" ++ toString ts.toInt ++ ":" ++
    serviceID ++ ":" ++ requestID)

/-- `checkReplay`. -/
def checkReplay (clientID nonceReq : String) (ts : Int64) (serviceID requestID : String) :
    Run (Except KDCError Unit) :=
  markSeen (s.tgsReplayKey clientID nonceReq ts serviceID requestID) s.tgs.replayTTL

/-- The part of `RequestServiceTicket` that checks the authenticator and marks it as seen. -/
def checkRequest (tgt : TGTPlaintext) (req : TGSRequest) :
    Run (Except KDCError (AuthenticatorPlaintext × List UInt8)) := do
  match s.decryptAuthenticator tgt.kctgs req.authenticator with
  | .error err => return .error err
  | .ok auth =>
    if auth.clientID ≠ tgt.clientID then return .error ⟨.identityMismatch, none⟩
    if auth.requestedService ≠ req.serviceID then
      return .error ⟨.authInvalid, some (.text "requested service mismatch")⟩
    if auth.scope ≠ req.requestedScope then
      return .error ⟨.scopeDenied, some (.text "scope mismatch")⟩
    match ← s.validateTimestampWindow auth.timestamp with
    | .error err => return .error err
    | .ok () =>
      match echoedNonce req.nonce2 auth.nonceReq with
      | .error err => return .error err
      | .ok nonce2 =>
        match ← s.checkReplay tgt.clientID auth.nonceReq auth.timestamp req.serviceID
          auth.requestID with
        | .error err => return .error err
        | .ok () => return .ok (auth, nonce2)

/-- `checkRevocation`. -/
def checkRevocation (certSN : String) : Run (Except KDCError Certificate) := do
  let now ← stmt .now
  s.loadUsableCert certSN now.time

/-- The content of a service ticket. -/
def serviceTicket (serviceID clientID : String) (cert : Certificate) (scope nonceReq : String)
    (kcv : List UInt8) (issuedAt : Instant) : ServiceTicketPlaintext where
  clientID := clientID
  serviceID := serviceID
  sname := serviceID
  kcv := kcv
  publicKey := cert.publicKeyPEM
  pubCPEM := cert.publicKeyPEM
  certSN := cert.serial
  certType := cert.certType
  issuerID := cert.issuerID
  issuerCommonName := cert.issuerCommonName
  issuerSerial := cert.issuerSerial
  chainFingerprints := cert.chainFingerprints
  scope := scope
  nonceReq := nonceReq
  issuedAt := issuedAt.time.toUnix
  expiresAt := (issuedAt.time.add s.tgs.ticketTTL).toUnix

/-- `buildServiceTicket`. -/
def buildServiceTicket (serviceID clientID : String) (cert : Certificate)
    (scope nonceReq : String) (kcv : List UInt8) : Run (Except KDCError (List UInt8 × Time)) := do
  match s.tgs.serviceKeys.lookup serviceID with
  | none => return .error ⟨.serviceUnknown, none⟩
  | some serviceKey =>
    let issuedAt ← stmt .now
    let .ok ciphertext ← s.encryptJSON serviceKey.1
        (s.serviceTicket serviceID clientID cert scope nonceReq kcv issuedAt).members
      | return .error ⟨.internal, some .external⟩
    return .ok (ciphertext, issuedAt.time.add s.tgs.ticketTTL)

/-- `encryptTGSReply`. -/
def encryptTGSReply (serviceID : String) (kctgs kcv ticketV nonce2 : List UInt8)
    (nonceReq : String) (expiresAt : Time) (scope : String) :
    Run (Except KDCError (List UInt8)) := do
  let issuedAt ← stmt .now
  let reply : TGSReplyPlaintext := {
    kcv, serviceID, ticketV, nonce2, nonceReq, issuedAt := issuedAt.time.toUnix,
    expiresAt := expiresAt.toUnix, scope }
  let .ok ciphertext ← s.encryptJSON kctgs reply.members
    | return .error ⟨.internal, some .external⟩
  return .ok ciphertext

/-- The part of `RequestServiceTicket` after all checks. -/
def grantTicket (tgt : TGTPlaintext) (auth : AuthenticatorPlaintext) (nonce2 : List UInt8)
    (cert : Certificate) (req : TGSRequest) : Run (Except KDCError TGSResponse) := do
  let .ok kcv ← newSessionKey | return .error ⟨.internal, some .external⟩
  match ← s.buildServiceTicket req.serviceID tgt.clientID cert req.requestedScope auth.nonceReq
    kcv with
  | .error err => return .error err
  | .ok (ticketV, expiresAt) =>
    match ← s.encryptTGSReply req.serviceID tgt.kctgs kcv ticketV nonce2 auth.nonceReq expiresAt
      req.requestedScope with
    | .error err => return .error err
    | .ok encryptedReply =>
      return .ok { encryptedPayload := encryptedReply, ticketExpiryUnix := expiresAt.toUnix }

/-- The part of `RequestServiceTicket` after the replay check. -/
def checkIdentity (tgt : TGTPlaintext) (auth : AuthenticatorPlaintext) (nonce2 : List UInt8)
    (certSN : String) (req : TGSRequest) : Run (Except KDCError TGSResponse) := do
  match ← s.checkRevocation certSN with
  | .error err => return .error err
  | .ok cert =>
    if cert.ownerID ≠ "" ∧ cert.ownerID ≠ tgt.clientID then
      return .error ⟨.identityMismatch, none⟩
    if !roleAllowsScope cert.role req.requestedScope then return .error ⟨.scopeDenied, none⟩
    if !s.tgs.scopeAuthorizer.allowed req.serviceID req.requestedScope then
      return .error ⟨.scopeDenied, none⟩
    s.grantTicket tgt auth nonce2 cert req

/-- The serial number that the certificate is looked up by. -/
def lookupSerial (tgt : TGTPlaintext) (req : TGSRequest) : String :=
  if req.certSN = "" then tgt.certSN else req.certSN

/-- `RequestServiceTicket` without its audit, with the client and the serial number that the audit
knows at the end. -/
def exchangeTGS (req : TGSRequest) :
    Run (Except KDCError TGSResponse × String × String) := do
  match ← s.decryptTGT req.tgtCiphertext with
  | .error err => return (.error err, "", req.certSN)
  | .ok tgt =>
    match ← s.checkRequest tgt req with
    | .error err => return (.error err, tgt.clientID, req.certSN)
    | .ok (auth, nonce2) =>
      let result ← s.checkIdentity tgt auth nonce2 (lookupSerial tgt req) req
      return (result, tgt.clientID, lookupSerial tgt req)

/-- `RequestServiceTicket`. -/
def requestServiceTicket (ctx : AuditMeta) (req : TGSRequest) :
    Run (Except KDCError TGSResponse) := do
  let (result, clientID, certSerial) ← s.exchangeTGS req
  recordAudit s.tgs.hasAudit ctx <| match result with
    | .error err => {
      action := .tgsRejected, clientID, certSerial, scope := req.requestedScope,
      reason := err.reason }
    | .ok _ => { action := .tgsTicketIssued, clientID, certSerial, scope := req.requestedScope }
  return result

end Service

/-! ## Calls -/

/-- A call of the KDC. -/
inductive KdcRequest where
  | issueTGT (ctx : AuditMeta) (q : ASRequest)
  | requestServiceTicket (ctx : AuditMeta) (req : TGSRequest)
  deriving DecidableEq

/-- What a call returns. -/
inductive KdcResult where
  | issueTGT (result : Except KDCError (List UInt8 × Int64))
  | requestServiceTicket (result : Except KDCError TGSResponse)

/-- The program of a call. -/
def Service.program (s : Service) : KdcRequest → Run KdcResult
  | .issueTGT ctx q => return .issueTGT (← s.issueTGT ctx q)
  | .requestServiceTicket ctx req =>
    return .requestServiceTicket (← s.requestServiceTicket ctx req)

/-- Interleaved calls of the KDC. -/
abbrev kdcMachine (s : Service) : Machine := machine s.program

/-! ## A sample deployment -/

/-- Cryptography that is easy to compute: a sealed text starts with its key, and a signature is
valid if it is one byte long. -/
def sampleCrypto : Crypto where
  gcmOpen key _ text := if text.take key.length = key then some (text.drop key.length) else none
  gcmSeal key _ text := key ++ text
  sha256 := Bank.sampleService.sha256
  pemDecode text := some (utf8 text)
  parsePKIXPublicKey block := some (.rsa ⟨block.length, 3⟩)
  parseCertificate _ := none
  verifyPKCS1v15 _ _ _ := false
  verifyPSS _ _ signature := signature.length = 1
  signPSS digest _ := some digest
  encryptOAEP _ seed message _ := some (seed ++ message)

theorem sampleCrypto_opens : sampleCrypto.Opens := by
  intro key nonce text hkey hnonce
  simp [sampleCrypto]

/-- A deployment with a lifetime for ticket-granting tickets. -/
def sampleService (tgtTTL : Duration) : Service where
  crypto := sampleCrypto
  as := {
    ktgsKey := ⟨List.replicate 32 1, rfl⟩, timestampWindow := fiveMinutes, tgtTTL,
    signingChainPEM := "", hasAudit := true }
  tgs := {
    tgsKey := ⟨List.replicate 32 1, rfl⟩
    serviceKeys := [("bank-service", ⟨List.replicate 32 7, rfl⟩)]
    scopeAuthorizer := [("bank-service", [("transfer:create", true), ("balance:read", true),
      ("history:read", true), ("bank-admin:read", true)])]
    ticketTTL := fiveMinutes, timestampWindow := fiveMinutes, replayTTL := fiveMinutes,
    hasAudit := true }
  one_key := rfl

/-- What the CA says about the certificate of the sample client, for a role. -/
def sampleReply (role : Bank.IdentityRole) : VerifyCertificateResponse where
  status := .active
  ownerId := "alice"
  publicKeyPem := "key"
  notBeforeUnix := 1600000000
  notAfterUnix := 1800000000
  revokedAtUnix := 0
  certType := "client"
  issuerId := "client-ca"
  issuerCommonName := "Client CA"
  issuerSerialNumber := "ca"
  chainFingerprints := ["f"]
  role := role
  certificatePem := ""

theorem sampleClock_real : -2 ^ 63 ≤ (1700000000000000000 : ℤ) ∧
    (1700000000000000000 : ℤ) < 2 ^ 63 := by decide

/-- 2023-11-14T22:13:20Z. -/
def sampleClock : Instant := ⟨1700000000000000000, sampleClock_real⟩

/-- The start of a sample deployment. -/
def sampleStart (tgtTTL : Duration) : State (kdcMachine (sampleService tgtTTL)) :=
  ⟨⟨sampleClock, []⟩, ∅⟩

/-- The labels of a call and of its first `n` statements, none of which fails. -/
def sampleCall {tgtTTL : Duration} (i : ℕ) (q : KdcRequest) (n : ℕ)
    (role : Bank.IdentityRole := .customer) : List (Act (kdcMachine (sampleService tgtTTL))) :=
  .spawn i q :: List.replicate n (.run i { cert := .ok (sampleReply role) : Choice })

/-- The request of the sample client for a ticket-granting ticket, with a timestamp. -/
def sampleAS (timestamp : Int64) : KdcRequest :=
  .issueTGT ⟨"", ""⟩ ⟨"alice", "01", [1], timestamp, [1]⟩

/-- The ticket-granting ticket of the sample client, issued at the sample clock with zeros for
random bytes. -/
def sampleTGT (tgtTTL : Duration) : List UInt8 :=
  sampleCrypto.encryptBytes (List.replicate 32 1) (List.replicate 12 0) (Json.marshalStruct
    ((sampleService tgtTTL).tgtPayload "alice" "01" (List.replicate 32 0) sampleClock).members)

/-- An authenticator of the sample client, with a timestamp. -/
def sampleAuthenticator (timestamp : Int64) : List UInt8 :=
  sampleCrypto.encryptBytes (List.replicate 32 0) (List.replicate 12 0) (Json.marshalStruct
    [("client_id", .string "alice"), ("ts_3", Json.int timestamp), ("nonce_req", .string "AQ=="),
      ("request_id", .string "r1"), ("requested_service", .string "bank-service"),
      ("scope", .string "transfer:create")])

/-- The request of the sample client for a service ticket, with a serial number. -/
def sampleTGS (tgtTTL : Duration) (certSN : String) (timestamp : Int64) : KdcRequest :=
  .requestServiceTicket ⟨"", ""⟩ ⟨"bank-service", sampleTGT tgtTTL, sampleAuthenticator timestamp,
    certSN, [], "transfer:create"⟩

/-- A call issued a ticket-granting ticket. -/
def KdcResult.grantsTGT : KdcResult → Bool
  | .issueTGT (.ok _) => true
  | _ => false

/-- A call issued a service ticket. -/
def KdcResult.grantsTicket : KdcResult → Bool
  | .requestServiceTicket (.ok _) => true
  | _ => false

theorem eq_of_grantsTGT {r : KdcResult} (h : r.grantsTGT = true) :
    ∃ asRep expiry, r = .issueTGT (.ok (asRep, expiry)) := by
  unfold KdcResult.grantsTGT at h
  split at h
  · next granted => exact ⟨granted.1, granted.2, rfl⟩
  · cases h

theorem eq_of_grantsTicket {r : KdcResult} (h : r.grantsTicket = true) :
    ∃ resp, r = .requestServiceTicket (.ok resp) := by
  unfold KdcResult.grantsTicket at h
  split at h
  · next resp => exact ⟨resp, rfl⟩
  · cases h

end Kdc
