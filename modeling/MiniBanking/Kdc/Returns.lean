import MiniBanking.Kdc.Service

/-!
# What a successful program of the KDC has issued

One lemma for each part of the exchanges: which statements a part has issued when it succeeds, and
what their replies were.

## Main definitions

* `clockRead`, `randomRead`, `reported`: statements with the replies of a success

## Main results

* `markSeen_returns`, `loadUsableCert_returns`, `encryptJSON_returns`: the shared parts
* `exchangeAS_returns`: the AS exchange
* `exchangeTGS_returns`: the TGS exchange
-/

namespace Kdc

open Concurrency Go Kerberos

/-- A reading of the clock. -/
def clockRead (e : Env) (t : Instant) : Event world := ⟨Stmt.now, e, t⟩

/-- Random bytes. -/
def randomRead (n : ℕ) (e : Env) (bytes : List UInt8) : Event world :=
  ⟨Stmt.readRandom n, e, Except.ok bytes⟩

/-- A reply of the CA about a certificate. -/
def reported (serial : String) (e : Env) (resp : VerifyCertificateResponse) : Event world :=
  ⟨Stmt.verifyCertificate serial, e, Except.ok resp⟩

/-! ## The shared parts -/

section Shared

variable {s : Service} {log : Log}

/-- A key that is marked as seen was new. -/
theorem markSeen_returns {key : String} {ttl : Duration}
    (h : (Service.markSeen key ttl).Returns log (.ok ())) : ∃ e, log = [marked key ttl e] := by
  obtain ⟨e, r, tail, rfl, hr⟩ := Program.returns_issue.mp h
  match r with
  | .error err => simp at hr
  | .ok false => simp at hr
  | .ok true =>
    obtain ⟨rfl, -⟩ := Program.returns_ret.mp hr
    exact ⟨e, rfl⟩

theorem getCertificate_returns {serial : String} {cert : Certificate}
    (h : (s.getCertificate serial).Returns log (.ok cert)) :
    ∃ e resp, log = [reported serial e resp] ∧ s.crypto.certificateOf serial resp = some cert := by
  obtain ⟨e, r, tail, rfl, hr⟩ := Program.returns_issue.mp h
  match r with
  | .error err => simp at hr
  | .ok resp =>
    cases hcert : s.crypto.certificateOf serial resp with
    | none => simp [hcert] at hr
    | some cert' =>
      simp only [hcert] at hr
      obtain ⟨rfl, heq⟩ := Program.returns_ret.mp hr
      cases heq
      exact ⟨e, resp, rfl, hcert⟩

/-- A certificate that is loaded is what the CA reported, and may be used now. -/
theorem loadUsableCert_returns {serial : String} {now : Time} {cert : Certificate}
    (h : (s.loadUsableCert serial now).Returns log (.ok cert)) :
    ∃ e resp, log = [reported serial e resp] ∧ s.crypto.certificateOf serial resp = some cert ∧
      cert.Usable now := by
  obtain ⟨before, r, after, rfl, hget, hr⟩ := Program.returns_bind.mp h
  match r with
  | .error .notFound => simp at hr
  | .error .other => simp at hr
  | .ok cert' =>
    dsimp only at hr
    split at hr
    · simp at hr
    · next hvalid =>
      obtain ⟨rfl, heq⟩ := Program.returns_ret.mp hr
      cases heq
      obtain ⟨e, resp, rfl, hcert⟩ := getCertificate_returns hget
      exact ⟨e, resp, rfl, hcert, validateCertUsable_ok.mp hvalid⟩

/-- What is sealed is sealed with a nonce that was read. -/
theorem encryptJSON_returns {key text : List UInt8} {members : List (String × Json)}
    (h : (s.encryptJSON key members).Returns log (.ok text)) :
    key.length = aes256KeySize ∧ ∃ e nonce, log = [randomRead gcmNonceSize e nonce] ∧
      text = s.crypto.encryptBytes key nonce (Json.marshalStruct members) := by
  unfold Service.encryptJSON at h
  split at h
  · simp at h
  · next hkey =>
    obtain ⟨e, r, tail, rfl, hr⟩ := Program.returns_issue.mp h
    match r with
    | .error err => simp at hr
    | .ok nonce =>
      obtain ⟨rfl, heq⟩ := Program.returns_ret.mp hr
      cases heq
      exact ⟨not_not.mp hkey, e, nonce, rfl, rfl⟩

/-- Recording to the audit log issues at most one statement. -/
theorem recordAudit_returns {hasAudit : Bool} {ctx : AuditMeta} {ev : AuditEvent}
    (h : (recordAudit hasAudit ctx ev).Returns log ()) :
    log = [] ∨ ∃ e ev', log = [⟨Stmt.audit ev', e, ()⟩] := by
  unfold recordAudit at h
  split at h
  · obtain ⟨e, r, tail, rfl, hr⟩ := Program.returns_call.mp h
    obtain ⟨rfl, -⟩ := Program.returns_ret.mp hr
    exact .inr ⟨e, _, rfl⟩
  · obtain ⟨rfl, -⟩ := Program.returns_ret.mp h
    exact .inl rfl

end Shared

/-! ## The AS exchange -/

/-- What a successful AS exchange finds out: the environments in which it issues its statements,
what the CA replies, and the random bytes. -/
structure ASExchange where
  first : Env
  mark : Env
  second : Env
  asked : Env
  resp : VerifyCertificateResponse
  cert : Certificate
  pubKey : Bank.RSAPublicKey
  keyed : Env
  sessionKey : List UInt8
  issued : Env
  sealed : Env
  tgtNonce : List UInt8
  salted : Env
  salt : List UInt8
  signature : List UInt8
  wrapped : Env
  aesKey : List UInt8
  replied : Env
  repNonce : List UInt8
  seeded : Env
  seed : List UInt8
  encryptedKey : List UInt8

namespace ASExchange

variable (x : ASExchange) (s : Service) (q : ASRequest)

/-- The statements of the exchange. -/
def log : Log :=
  [clockRead x.first x.first.clock,
    marked (s.asReplayKey q.ownerID q.nonce q.timestamp) s.as.timestampWindow x.mark,
    clockRead x.second x.second.clock, reported q.certSn x.asked x.resp,
    randomRead aes256KeySize x.keyed x.sessionKey, clockRead x.issued x.issued.clock,
    randomRead gcmNonceSize x.sealed x.tgtNonce, randomRead 32 x.salted x.salt,
    randomRead aes256KeySize x.wrapped x.aesKey, randomRead gcmNonceSize x.replied x.repNonce,
    randomRead 32 x.seeded x.seed]

/-- The ticket-granting ticket. -/
def tgt : List UInt8 :=
  s.crypto.encryptBytes s.as.ktgsKey.1 x.tgtNonce
    (Json.marshalStruct (s.tgtPayload q.ownerID q.certSn x.sessionKey x.issued.clock).members)

/-- What the reply says under the client's key. -/
def payload : ASRepPayload where
  sessionKey := x.sessionKey
  tgt := x.tgt s q
  nonce1 := q.nonce

/-- The reply. -/
def response : ASResponse where
  kdcSignature := x.signature
  encryptedKey := x.encryptedKey
  encryptedPayload := s.crypto.encryptBytes x.aesKey x.repNonce
    (Json.marshalStruct (x.payload s q).members)
  kdcCertChain := s.as.signingChainPEM

/-- The checks of the exchange passed, and it made this reply. -/
structure Granted (asRep : List UInt8) (expiry : Int64) : Prop where
  within : timestampWithinWindow x.first.clock.time q.timestamp s.as.timestampWindow = true
  cert : s.crypto.certificateOf q.certSn x.resp = some x.cert
  usable : x.cert.Usable x.second.clock.time
  owned : x.cert.ownerID ≠ ""
  owner : x.cert.ownerID = q.ownerID
  key : s.parseRSAPublicKeyPEM x.cert.publicKeyPEM = .ok x.pubKey
  signed : s.verifySignature x.pubKey
    (asCanonicalPayload q.certSn q.ownerID q.nonce q.timestamp) q.signature = .ok ()
  session_size : x.sessionKey.length = aes256KeySize
  nonce_size : x.tgtNonce.length = gcmNonceSize
  aes_size : x.aesKey.length = aes256KeySize
  rep_size : x.repNonce.length = gcmNonceSize
  signature : s.crypto.signPSS
    (s.crypto.sha256 (Json.marshalStruct (x.payload s q).members)).toList x.salt =
      some x.signature
  wrapped : s.crypto.encryptOAEP x.pubKey x.seed x.aesKey (utf8 "AS_REP") = some x.encryptedKey
  reply : asRep = Json.marshalStruct (x.response s q).members
  expiry : expiry = s.tgtExpiry x.issued.clock

end ASExchange

section AS

variable {s : Service} {log : Log}

theorem validateFreshness_returns {timestamp : Int64} (hx : Executed log)
    (h : (s.validateFreshness timestamp).Returns log (.ok ())) :
    ∃ e : Env, log = [clockRead e e.clock] ∧
      timestampWithinWindow e.clock.time timestamp s.as.timestampWindow = true := by
  obtain ⟨e, t, tail, rfl, ht⟩ := Program.returns_issue.mp h
  obtain rfl := hx.now
  split at ht
  · simp at ht
  · next hwithin =>
    obtain ⟨rfl, -⟩ := Program.returns_ret.mp ht
    exact ⟨e, rfl, by simpa using hwithin⟩

/-- A client that is authenticated owns a certificate that the CA reported, and has signed. -/
theorem authenticateClient_returns {certSn ownerID : String} {signature dataToVerify : List UInt8}
    {pubKey : Bank.RSAPublicKey} (hx : Executed log)
    (h : (s.authenticateClient certSn ownerID signature dataToVerify).Returns log (.ok pubKey)) :
    ∃ (e e' : Env) (resp : VerifyCertificateResponse) (cert : Certificate),
      log = [clockRead e e.clock, reported certSn e' resp] ∧
      s.crypto.certificateOf certSn resp = some cert ∧ cert.Usable e.clock.time ∧
      cert.ownerID ≠ "" ∧ cert.ownerID = ownerID ∧
      s.parseRSAPublicKeyPEM cert.publicKeyPEM = .ok pubKey ∧
      s.verifySignature pubKey dataToVerify signature = .ok () := by
  obtain ⟨e, t, tail, rfl, ht⟩ := Program.returns_issue.mp h
  obtain rfl := hx.now
  obtain ⟨before, r, after, rfl, hload, hr⟩ := Program.returns_bind.mp ht
  match r with
  | .error err => simp at hr
  | .ok cert =>
    dsimp only at hr
    split at hr
    · simp at hr
    next howner =>
    cases hkey : s.parseRSAPublicKeyPEM cert.publicKeyPEM with
    | error err => simp [hkey] at hr
    | ok pubKey' =>
      cases hverify : s.verifySignature pubKey' dataToVerify signature with
      | error err => simp [hkey, hverify] at hr
      | ok =>
        simp only [hkey, hverify] at hr
        obtain ⟨rfl, heq⟩ := Program.returns_ret.mp hr
        cases heq
        obtain ⟨e', resp, rfl, hcert, husable⟩ := loadUsableCert_returns hload
        rw [not_or, not_not] at howner
        exact ⟨e, e', resp, cert, rfl, hcert, husable, howner.1, howner.2, hkey, hverify⟩

/-- A ticket-granting ticket is sealed with a nonce that was read. -/
theorem encryptTGT_returns {clientId certSn : String} {kctgs tgt : List UInt8}
    {issuedAt : Instant} (hx : Executed log)
    (h : (s.encryptTGT clientId kctgs certSn issuedAt).Returns log (.ok tgt)) :
    ∃ e nonce, log = [randomRead gcmNonceSize e nonce] ∧ nonce.length = gcmNonceSize ∧
      tgt = s.crypto.encryptBytes s.as.ktgsKey.1 nonce
        (Json.marshalStruct (s.tgtPayload clientId certSn kctgs issuedAt).members) := by
  unfold Service.encryptTGT at h
  split at h
  · simp at h
  split at h
  · simp at h
  obtain ⟨before, r, after, rfl, hseal, hr⟩ := Program.returns_bind.mp h
  match r with
  | .error err => simp at hr
  | .ok text =>
    obtain ⟨rfl, heq⟩ := Program.returns_ret.mp hr
    cases heq
    obtain ⟨-, e, nonce, rfl, rfl⟩ := encryptJSON_returns hseal
    exact ⟨e, nonce, rfl, hx.readRandom, rfl⟩

/-- The reply of the AS is signed, sealed under a new key, and that key is wrapped for the
client. -/
theorem buildASRep_returns {pubKey : Bank.RSAPublicKey} {kctgs tgt nonce1 asRep : List UInt8}
    (hx : Executed log) (h : (s.buildASRep pubKey kctgs tgt nonce1).Returns log (.ok asRep)) :
    ∃ e₁ e₂ e₃ e₄ salt signature aesKey nonce seed encryptedKey,
      log = [randomRead 32 e₁ salt, randomRead aes256KeySize e₂ aesKey,
        randomRead gcmNonceSize e₃ nonce, randomRead 32 e₄ seed] ∧
      aesKey.length = aes256KeySize ∧ nonce.length = gcmNonceSize ∧
      s.crypto.signPSS (s.crypto.sha256
        (Json.marshalStruct (ASRepPayload.mk kctgs tgt nonce1).members)).toList salt =
          some signature ∧
      s.crypto.encryptOAEP pubKey seed aesKey (utf8 "AS_REP") = some encryptedKey ∧
      asRep = Json.marshalStruct (ASResponse.mk signature encryptedKey
        (s.crypto.encryptBytes aesKey nonce
          (Json.marshalStruct (ASRepPayload.mk kctgs tgt nonce1).members))
        s.as.signingChainPEM).members := by
  unfold Service.buildASRep at h
  split at h
  · simp at h
  split at h
  · simp at h
  split at h
  · simp at h
  obtain ⟨e₁, r, tail, rfl, hsalt⟩ := Program.returns_issue.mp h
  match r with
  | .error err => simp at hsalt
  | .ok salt =>
    dsimp only at hsalt
    split at hsalt
    case h_2 => simp at hsalt
    next signature hsign =>
    obtain ⟨e₂, r, tail, rfl, haes⟩ := Program.returns_issue.mp hsalt
    match r with
    | .error err => simp at haes
    | .ok aesKey =>
      obtain ⟨before, r, after, rfl, hseal, hr⟩ := Program.returns_bind.mp haes
      match r with
      | .error err => simp at hr
      | .ok encryptedPayload =>
        obtain ⟨hsize, e₃, nonce, rfl, rfl⟩ := encryptJSON_returns hseal
        obtain ⟨e₄, r, tail, rfl, hseed⟩ := Program.returns_issue.mp hr
        match r with
        | .error err => simp at hseed
        | .ok seed =>
          dsimp only at hseed
          split at hseed
          case h_2 => simp at hseed
          next encryptedKey hwrap =>
          obtain ⟨rfl, heq⟩ := Program.returns_ret.mp hseed
          cases heq
          exact ⟨e₁, e₂, e₃, e₄, salt, signature, aesKey, nonce, seed, encryptedKey, rfl, hsize,
            hx.tail.tail.readRandom, hsign, hwrap, rfl⟩

/-- **A successful AS exchange** passed its checks and made its reply. -/
theorem exchangeAS_returns {q : ASRequest} {asRep : List UInt8} {expiry : Int64}
    (hx : Executed log) (h : (s.exchangeAS q).Returns log (.ok (asRep, expiry))) :
    ∃ x : ASExchange, log = x.log s q ∧ x.Granted s q asRep expiry := by
  obtain ⟨l₁, r, t₁, rfl, hfresh, h₁⟩ := Program.returns_bind.mp h
  match r with
  | .error err => simp at h₁
  | .ok () =>
  obtain ⟨l₂, r, t₂, rfl, hmark, h₂⟩ := Program.returns_bind.mp h₁
  match r with
  | .error err => simp at h₂
  | .ok () =>
  obtain ⟨l₃, r, t₃, rfl, hauth, h₃⟩ := Program.returns_bind.mp h₂
  match r with
  | .error err => simp at h₃
  | .ok pubKey =>
  obtain ⟨keyed, r, t₄, rfl, h₄⟩ := Program.returns_issue.mp h₃
  match r with
  | .error err => simp at h₄
  | .ok sessionKey =>
  obtain ⟨issued, now, t₅, rfl, h₅⟩ := Program.returns_issue.mp h₄
  obtain ⟨l₆, r, t₆, rfl, htgt, h₆⟩ := Program.returns_bind.mp h₅
  match r with
  | .error err => simp at h₆
  | .ok tgt =>
  obtain ⟨l₇, r, t₇, rfl, hrep, h₇⟩ := Program.returns_bind.mp h₆
  match r with
  | .error err => simp at h₇
  | .ok asRep' =>
  obtain ⟨rfl, heq⟩ := Program.returns_ret.mp h₇
  cases heq
  -- what each part has issued, with the replies
  obtain ⟨hx₁, hx₂⟩ := hx.of_append
  obtain ⟨hx₃, hx₄⟩ := hx₂.of_append.2.of_append
  obtain rfl := hx₄.tail.now
  obtain ⟨hx₆, hx₇⟩ := hx₄.tail.tail.of_append
  obtain ⟨first, rfl, hwithin⟩ := validateFreshness_returns hx₁ hfresh
  obtain ⟨mark, rfl⟩ := markSeen_returns hmark
  obtain ⟨second, asked, resp, cert, rfl, hcert, husable, howned, howner, hkey, hsigned⟩ :=
    authenticateClient_returns hx₃ hauth
  obtain ⟨sealed, tgtNonce, rfl, hnonce, rfl⟩ := encryptTGT_returns hx₆ htgt
  obtain ⟨salted, wrapped, replied, seeded, salt, signature, aesKey, repNonce, seed, encryptedKey,
    rfl, haes, hrepNonce, hsign, hwrap, rfl⟩ := buildASRep_returns hx₇.of_append.1 hrep
  exact ⟨{
    first, mark, second, asked, resp, cert, pubKey, keyed, sessionKey, issued, sealed, tgtNonce,
    salted, salt, signature, wrapped, aesKey, replied, repNonce, seeded, seed, encryptedKey },
    rfl, hwithin, hcert, husable, howned, howner, hkey, hsigned, hx₄.readRandom, hnonce, haes,
    hrepNonce, hsign, hwrap, rfl, rfl⟩

/-- A call that issued a ticket-granting ticket made a successful AS exchange. -/
theorem issueTGT_returns {ctx : AuditMeta} {q : ASRequest} {asRep : List UInt8} {expiry : Int64}
    (hx : Executed log) (h : (s.issueTGT ctx q).Returns log (.ok (asRep, expiry))) :
    ∃ x : ASExchange, x.log s q <+: log ∧ x.Granted s q asRep expiry := by
  obtain ⟨l₁, r, t₁, rfl, hexchange, h₁⟩ := Program.returns_bind.mp h
  obtain ⟨l₂, -, t₂, rfl, -, h₂⟩ := Program.returns_bind.mp h₁
  obtain ⟨rfl, rfl⟩ := Program.returns_ret.mp h₂
  obtain ⟨x, rfl, hgranted⟩ := exchangeAS_returns hx.of_append.1 hexchange
  exact ⟨x, List.prefix_append _ _, hgranted⟩

end AS

/-! ## The TGS exchange -/

/-- What a successful TGS exchange finds out: the environments in which it issues its statements,
what the CA replies, and the random bytes. -/
structure TGSExchange where
  tgt : TGTPlaintext
  first : Env
  auth : AuthenticatorPlaintext
  second : Env
  nonce2 : List UInt8
  mark : Env
  third : Env
  asked : Env
  resp : VerifyCertificateResponse
  cert : Certificate
  keyed : Env
  kcv : List UInt8
  serviceKey : AES256Key
  issued : Env
  sealed : Env
  ticketNonce : List UInt8
  replied : Env
  closed : Env
  repNonce : List UInt8

namespace TGSExchange

variable (x : TGSExchange) (s : Service) (req : TGSRequest)

/-- The key under which the exchange is marked as seen. -/
def replayKey : String :=
  s.tgsReplayKey x.tgt.clientID x.auth.nonceReq x.auth.timestamp req.serviceID x.auth.requestID

/-- The statements of the exchange. -/
def log : Log :=
  [clockRead x.first x.first.clock, clockRead x.second x.second.clock,
    marked (x.replayKey s req) s.tgs.replayTTL x.mark, clockRead x.third x.third.clock,
    reported (Service.lookupSerial x.tgt req) x.asked x.resp,
    randomRead aes256KeySize x.keyed x.kcv, clockRead x.issued x.issued.clock,
    randomRead gcmNonceSize x.sealed x.ticketNonce, clockRead x.replied x.replied.clock,
    randomRead gcmNonceSize x.closed x.repNonce]

/-- What the service ticket says. -/
def ticket : ServiceTicketPlaintext :=
  s.serviceTicket req.serviceID x.tgt.clientID x.cert req.requestedScope x.auth.nonceReq x.kcv
    x.issued.clock

/-- The service ticket. -/
def ticketV : List UInt8 :=
  s.crypto.encryptBytes x.serviceKey.1 x.ticketNonce (Json.marshalStruct (x.ticket s req).members)

/-- What the reply says under the session key. -/
def reply : TGSReplyPlaintext where
  kcv := x.kcv
  serviceID := req.serviceID
  ticketV := x.ticketV s req
  nonce2 := x.nonce2
  nonceReq := x.auth.nonceReq
  issuedAt := x.replied.clock.time.toUnix
  expiresAt := (x.ticket s req).expiresAt
  scope := req.requestedScope

/-- The checks of the exchange passed, and it made this reply. -/
structure Granted (resp : TGSResponse) : Prop where
  tgt : s.openTGT req.tgtCiphertext = .ok x.tgt
  unexpired : (Time.unix x.tgt.expiry).after x.first.clock.time = true
  auth : s.decryptAuthenticator x.tgt.kctgs req.authenticator = .ok x.auth
  client : x.auth.clientID = x.tgt.clientID
  service : x.auth.requestedService = req.serviceID
  scope : x.auth.scope = req.requestedScope
  within : timestampWithinWindow x.second.clock.time x.auth.timestamp s.tgs.timestampWindow = true
  nonce : Service.echoedNonce req.nonce2 x.auth.nonceReq = .ok x.nonce2
  cert : s.crypto.certificateOf (Service.lookupSerial x.tgt req) x.resp = some x.cert
  usable : x.cert.Usable x.third.clock.time
  owner : x.cert.ownerID = "" ∨ x.cert.ownerID = x.tgt.clientID
  role : roleAllowsScope x.cert.role req.requestedScope = true
  allowed : s.tgs.scopeAuthorizer.allowed req.serviceID req.requestedScope = true
  serviceKey : s.tgs.serviceKeys.lookup req.serviceID = some x.serviceKey
  kcv_size : x.kcv.length = aes256KeySize
  nonce_size : x.ticketNonce.length = gcmNonceSize
  rep_size : x.repNonce.length = gcmNonceSize
  reply : resp = ⟨s.crypto.encryptBytes x.tgt.kctgs x.repNonce
    (Json.marshalStruct (x.reply s req).members), (x.ticket s req).expiresAt⟩

end TGSExchange

section TGS

variable {s : Service} {log : Log}

theorem decryptTGT_returns {tgtCiphertext : List UInt8} {tgt : TGTPlaintext} (hx : Executed log)
    (h : (s.decryptTGT tgtCiphertext).Returns log (.ok tgt)) :
    ∃ e : Env, log = [clockRead e e.clock] ∧ s.openTGT tgtCiphertext = .ok tgt ∧
      (Time.unix tgt.expiry).after e.clock.time = true := by
  unfold Service.decryptTGT at h
  split at h
  · simp at h
  next tgt' hopen =>
  obtain ⟨e, t, tail, rfl, ht⟩ := Program.returns_issue.mp h
  obtain rfl := hx.now
  split at ht
  · simp at ht
  next hafter =>
  obtain ⟨rfl, heq⟩ := Program.returns_ret.mp ht
  cases heq
  exact ⟨e, rfl, hopen, by simpa using hafter⟩

theorem validateTimestampWindow_returns {ts : Int64} (hx : Executed log)
    (h : (s.validateTimestampWindow ts).Returns log (.ok ())) :
    ∃ e : Env, log = [clockRead e e.clock] ∧
      timestampWithinWindow e.clock.time ts s.tgs.timestampWindow = true := by
  obtain ⟨e, t, tail, rfl, ht⟩ := Program.returns_issue.mp h
  obtain rfl := hx.now
  split at ht
  · simp at ht
  next hwithin =>
  obtain ⟨rfl, -⟩ := Program.returns_ret.mp ht
  exact ⟨e, rfl, by simpa using hwithin⟩

/-- An authenticator that passes agrees with the ticket-granting ticket and the request. -/
theorem checkRequest_returns {tgt : TGTPlaintext} {req : TGSRequest}
    {auth : AuthenticatorPlaintext} {nonce2 : List UInt8} (hx : Executed log)
    (h : (s.checkRequest tgt req).Returns log (.ok (auth, nonce2))) :
    ∃ e e' : Env, log = [clockRead e e.clock, marked (s.tgsReplayKey tgt.clientID auth.nonceReq
        auth.timestamp req.serviceID auth.requestID) s.tgs.replayTTL e'] ∧
      s.decryptAuthenticator tgt.kctgs req.authenticator = .ok auth ∧
      auth.clientID = tgt.clientID ∧ auth.requestedService = req.serviceID ∧
      auth.scope = req.requestedScope ∧
      timestampWithinWindow e.clock.time auth.timestamp s.tgs.timestampWindow = true ∧
      Service.echoedNonce req.nonce2 auth.nonceReq = .ok nonce2 := by
  unfold Service.checkRequest at h
  split at h
  · simp at h
  next auth' hauth =>
  split at h
  · simp at h
  next hclient =>
  split at h
  · simp at h
  next hservice =>
  split at h
  · simp at h
  next hscope =>
  obtain ⟨l₁, r, t₁, rfl, hwindow, h₁⟩ := Program.returns_bind.mp h
  match r with
  | .error err => simp at h₁
  | .ok () =>
  dsimp only at h₁
  split at h₁
  · simp at h₁
  next nonce hnonce =>
  obtain ⟨l₂, r, t₂, rfl, hmark, h₂⟩ := Program.returns_bind.mp h₁
  match r with
  | .error err => simp at h₂
  | .ok () =>
  obtain ⟨rfl, heq⟩ := Program.returns_ret.mp h₂
  cases heq
  obtain ⟨e, rfl, hwithin⟩ := validateTimestampWindow_returns hx.of_append.1 hwindow
  obtain ⟨e', rfl⟩ := markSeen_returns hmark
  exact ⟨e, e', rfl, hauth, not_not.mp hclient, not_not.mp hservice, not_not.mp hscope, hwithin,
    hnonce⟩

/-- A service ticket is sealed under the key of its service. -/
theorem buildServiceTicket_returns {serviceID clientID scope nonceReq : String}
    {cert : Certificate} {kcv ticketV : List UInt8} {expiresAt : Time} (hx : Executed log)
    (h : (s.buildServiceTicket serviceID clientID cert scope nonceReq kcv).Returns log
      (.ok (ticketV, expiresAt))) :
    ∃ (e e' : Env) (serviceKey : AES256Key) (nonce : List UInt8),
      log = [clockRead e e.clock, randomRead gcmNonceSize e' nonce] ∧
      s.tgs.serviceKeys.lookup serviceID = some serviceKey ∧ nonce.length = gcmNonceSize ∧
      ticketV = s.crypto.encryptBytes serviceKey.1 nonce (Json.marshalStruct
        (s.serviceTicket serviceID clientID cert scope nonceReq kcv e.clock).members) ∧
      expiresAt = e.clock.time.add s.tgs.ticketTTL := by
  unfold Service.buildServiceTicket at h
  split at h
  · simp at h
  next serviceKey hkey =>
  obtain ⟨e, t, t₁, rfl, h₁⟩ := Program.returns_issue.mp h
  obtain rfl := hx.now
  obtain ⟨l₂, r, t₂, rfl, hseal, h₂⟩ := Program.returns_bind.mp h₁
  match r with
  | .error err => simp at h₂
  | .ok ciphertext =>
  obtain ⟨rfl, heq⟩ := Program.returns_ret.mp h₂
  cases heq
  obtain ⟨-, e', nonce, rfl, rfl⟩ := encryptJSON_returns hseal
  exact ⟨e, e', serviceKey, nonce, rfl, hkey, hx.tail.readRandom, rfl, rfl⟩

theorem encryptTGSReply_returns {serviceID nonceReq scope : String}
    {kctgs kcv ticketV nonce2 reply : List UInt8} {expiresAt : Time} (hx : Executed log)
    (h : (s.encryptTGSReply serviceID kctgs kcv ticketV nonce2 nonceReq expiresAt scope).Returns
      log (.ok reply)) :
    ∃ (e e' : Env) (nonce : List UInt8),
      log = [clockRead e e.clock, randomRead gcmNonceSize e' nonce] ∧
      nonce.length = gcmNonceSize ∧
      reply = s.crypto.encryptBytes kctgs nonce (Json.marshalStruct (TGSReplyPlaintext.mk kcv
        serviceID ticketV nonce2 nonceReq e.clock.time.toUnix expiresAt.toUnix scope).members) := by
  obtain ⟨e, t, t₁, rfl, h₁⟩ := Program.returns_issue.mp h
  obtain rfl := hx.now
  obtain ⟨l₂, r, t₂, rfl, hseal, h₂⟩ := Program.returns_bind.mp h₁
  match r with
  | .error err => simp at h₂
  | .ok ciphertext =>
  obtain ⟨rfl, heq⟩ := Program.returns_ret.mp h₂
  cases heq
  obtain ⟨-, e', nonce, rfl, rfl⟩ := encryptJSON_returns hseal
  exact ⟨e, e', nonce, rfl, hx.tail.readRandom, rfl⟩

/-- The certificate that the CA reported for a serial number may be used now. -/
theorem checkRevocation_returns {serial : String} {cert : Certificate} (hx : Executed log)
    (h : (s.checkRevocation serial).Returns log (.ok cert)) :
    ∃ (e e' : Env) (resp : VerifyCertificateResponse),
      log = [clockRead e e.clock, reported serial e' resp] ∧
      s.crypto.certificateOf serial resp = some cert ∧ cert.Usable e.clock.time := by
  obtain ⟨e, t, t₁, rfl, hload⟩ := Program.returns_issue.mp h
  obtain rfl := hx.now
  obtain ⟨e', resp, rfl, hcert, husable⟩ := loadUsableCert_returns hload
  exact ⟨e, e', resp, rfl, hcert, husable⟩

/-- **A successful TGS exchange** passed its checks and made its reply. -/
theorem exchangeTGS_returns {req : TGSRequest} {resp : TGSResponse} {clientID certSN : String}
    (hx : Executed log) (h : (s.exchangeTGS req).Returns log (.ok resp, clientID, certSN)) :
    ∃ x : TGSExchange, log = x.log s req ∧ x.Granted s req resp := by
  obtain ⟨l₁, r, t₁, rfl, htgt, h₁⟩ := Program.returns_bind.mp h
  match r with
  | .error err => simp at h₁
  | .ok tgt =>
  obtain ⟨l₂, r, t₂, rfl, hcheck, h₂⟩ := Program.returns_bind.mp h₁
  match r with
  | .error err => simp at h₂
  | .ok (auth, nonce2) =>
  obtain ⟨l₃, r, t₃, rfl, hidentity, h₃⟩ := Program.returns_bind.mp h₂
  obtain ⟨rfl, heq⟩ := Program.returns_ret.mp h₃
  obtain ⟨rfl, -⟩ := Prod.mk.inj heq
  obtain ⟨l₄, r, t₄, rfl, hrevoked, h₄⟩ := Program.returns_bind.mp hidentity
  match r with
  | .error err => simp at h₄
  | .ok cert =>
  dsimp only at h₄
  split at h₄
  · simp at h₄
  next howner =>
  split at h₄
  · simp at h₄
  next hrole =>
  split at h₄
  · simp at h₄
  next hallowed =>
  obtain ⟨keyed, r, t₅, rfl, h₅⟩ := Program.returns_issue.mp h₄
  match r with
  | .error err => simp at h₅
  | .ok kcv =>
  obtain ⟨l₆, r, t₆, rfl, hticket, h₆⟩ := Program.returns_bind.mp h₅
  match r with
  | .error err => simp at h₆
  | .ok (ticketV, expiresAt) =>
  obtain ⟨l₇, r, t₇, rfl, hreply, h₇⟩ := Program.returns_bind.mp h₆
  match r with
  | .error err => simp at h₇
  | .ok encryptedReply =>
  obtain ⟨rfl, heq⟩ := Program.returns_ret.mp h₇
  cases heq
  -- what each part has issued, with the replies
  obtain ⟨hx₁, hx₂⟩ := hx.of_append
  obtain ⟨hx₂, hx₃⟩ := hx₂.of_append
  obtain ⟨hx₄, hx₅⟩ := hx₃.of_append.1.of_append
  obtain ⟨hx₆, hx₇⟩ := hx₅.tail.of_append
  obtain ⟨first, rfl, htgt, hunexpired⟩ := decryptTGT_returns hx₁ htgt
  obtain ⟨second, mark, rfl, hauth, hclient, hservice, hscope, hwithin, hnonce⟩ :=
    checkRequest_returns hx₂ hcheck
  obtain ⟨third, asked, resp, rfl, hcert, husable⟩ := checkRevocation_returns hx₄ hrevoked
  obtain ⟨issued, sealed, serviceKey, ticketNonce, rfl, hkey, hsize, rfl, rfl⟩ :=
    buildServiceTicket_returns hx₆ hticket
  obtain ⟨replied, closed, repNonce, rfl, hrep, rfl⟩ :=
    encryptTGSReply_returns hx₇.of_append.1 hreply
  refine ⟨{
    tgt, first, auth, second, nonce2, mark, third, asked, resp, cert, keyed, kcv, serviceKey,
    issued, sealed, ticketNonce, replied, closed, repNonce }, rfl, htgt, hunexpired, hauth,
    hclient, hservice, hscope, hwithin, hnonce, hcert, husable, ?_, by simpa using hrole,
    by simpa using hallowed, hkey, hx₅.readRandom, hsize, hrep, rfl⟩
  by_cases hempty : cert.ownerID = ""
  · exact .inl hempty
  · exact .inr (not_not.mp fun hne => howner ⟨hempty, hne⟩)

/-- A call that issued a service ticket made a successful TGS exchange. -/
theorem requestServiceTicket_returns {ctx : AuditMeta} {req : TGSRequest} {resp : TGSResponse}
    (hx : Executed log) (h : (s.requestServiceTicket ctx req).Returns log (.ok resp)) :
    ∃ x : TGSExchange, x.log s req <+: log ∧ x.Granted s req resp := by
  obtain ⟨l₁, ⟨r, clientID, certSN⟩, t₁, rfl, hexchange, h₁⟩ := Program.returns_bind.mp h
  obtain ⟨l₂, -, t₂, rfl, -, h₂⟩ := Program.returns_bind.mp h₁
  obtain ⟨rfl, rfl⟩ := Program.returns_ret.mp h₂
  obtain ⟨x, rfl, hgranted⟩ := exchangeTGS_returns hx.of_append.1 hexchange
  exact ⟨x, List.prefix_append _ _, hgranted⟩

end TGS

/-! ## Calls -/

section Calls

variable {s : Service} {e₀ : Env} {t : State (kdcMachine s)} {i : ℕ} {c : Call (kdcMachine s)}

/-- A ticket-granting ticket was issued by a successful AS exchange. -/
theorem issued_TGT (ht : Reachable e₀ t) (hc : t.call i = some c) {ctx : AuditMeta}
    {q : ASRequest} (hq : c.request = .issueTGT ctx q) {asRep : List UInt8} {expiry : Int64}
    (hr : c.rest.result = some (.issueTGT (.ok (asRep, expiry)))) :
    ∃ x : ASExchange, x.log s q <+: c.log ∧ x.Granted s q asRep expiry := by
  have hreturns := ht.returns hc hr
  rw [hq] at hreturns
  obtain ⟨l₁, r, t₁, hlog, h, h₁⟩ := Program.returns_bind.mp hreturns
  obtain ⟨rfl, heq⟩ := Program.returns_ret.mp h₁
  cases heq
  rw [List.append_nil] at hlog
  subst hlog
  exact issueTGT_returns (executed_log ht hc) h

/-- A service ticket was issued by a successful TGS exchange. -/
theorem issued_ticket (ht : Reachable e₀ t) (hc : t.call i = some c) {ctx : AuditMeta}
    {req : TGSRequest} (hq : c.request = .requestServiceTicket ctx req) {resp : TGSResponse}
    (hr : c.rest.result = some (.requestServiceTicket (.ok resp))) :
    ∃ x : TGSExchange, x.log s req <+: c.log ∧ x.Granted s req resp := by
  have hreturns := ht.returns hc hr
  rw [hq] at hreturns
  obtain ⟨l₁, r, t₁, hlog, h, h₁⟩ := Program.returns_bind.mp hreturns
  obtain ⟨rfl, heq⟩ := Program.returns_ret.mp h₁
  cases heq
  rw [List.append_nil] at hlog
  subst hlog
  exact requestServiceTicket_returns (executed_log ht hc) h

end Calls

end Kdc
