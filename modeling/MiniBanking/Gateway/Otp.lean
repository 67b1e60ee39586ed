import MiniBanking.Concurrency.Trace
import MiniBanking.Go.Text
import MiniBanking.Redis.Store

/-!
# One-time passwords

The gateway writes the HMAC of a password for an email address into Redis and mails the password.
A verification reads the HMAC, reads how many verifications have failed, compares, and then either
counts a failure or deletes the password and issues a registration token. Each command of Redis is
atomic; between two commands of a handler any other handler may run.

## Main definitions

* `Otp.Stmt`, `exec`: the commands and their meaning
* `handleOtpRequest`, `handleOtpVerify`: the handlers
* `otpMachine`: any number of handlers, interleaved
* `VerifyStage`: how far a verification has come

## Main results

* `verify_stage`: every verification is at a stage
-/

namespace Gateway

open Concurrency Go

/-! ## Statements -/

namespace Otp

/-- What the handlers do between two local computations. -/
inductive Stmt where
  /-- `Date.now()` -/
  | now
  /-- `crypto.randomInt(100_000, 1_000_000)` -/
  | randomInt
  /-- `crypto.randomUUID()` -/
  | randomUUID
  | get (key : String)
  /-- `SET key value EX ttl` -/
  | set (key value : String) (ttl : ℤ)
  | incr (key : String)
  | expire (key : String) (ttl : ℤ)
  | del (key : String)
  deriving DecidableEq

/-- The replies to the statements; an error of Redis is thrown. -/
abbrev Reply : Stmt → Type
  | .now => ℤ
  | .randomInt => ℕ
  | .randomUUID => String
  | .get _ => Option Redis.Value
  | .set _ _ _ => Except Unit Unit
  | .incr _ => Except Unit ℤ
  | .expire _ _ => Unit
  | .del _ => Unit

/-- The statements of the handlers with their replies. -/
abbrev signature : Signature := ⟨Stmt, Reply⟩

/-- Programs of the handlers. -/
abbrev Run (α : Type) : Type := Program signature α

/-- Issue a statement and return its reply. -/
abbrev stmt (s : Stmt) : Run (Reply s) := issue (S := signature) s

/-- What all handlers share: the time in milliseconds, and Redis. -/
@[ext] structure Env where
  now : ℤ
  redis : Redis.Db

/-- What the source of randomness gives. -/
structure Choice where
  int : Fin 900000 := 0
  uuid : String := ""

/-- The meaning of the statements. -/
def exec : (s : Stmt) → Choice → Env → Reply s × Env
  | .now, _, e => (e.now, e)
  | .randomInt, c, e => (100000 + c.int, e)
  | .randomUUID, c, e => (c.uuid, e)
  | .get key, _, e => (e.redis.get e.now key, e)
  | .set key value ttl, _, e =>
    match e.redis.set e.now key value (some ttl) with
    | some redis => (.ok (), { e with redis })
    | none => (.error (), e)
  | .incr key, _, e =>
    match e.redis.incr e.now key with
    | some (n, redis) => (.ok n, { e with redis })
    | none => (.error (), e)
  | .expire key ttl, _, e => ((), { e with redis := e.redis.expire e.now key ttl })
  | .del key, _, e => ((), { e with redis := e.redis.del key })

end Otp

open Otp

/-! ## Keys -/

namespace RedisKeys

def otp (email : String) : String := "otp:val:" ++ email

def otpFailed (email : String) : String := "rate:verify:" ++ email

def regToken (jti : String) : String := String.singleton (Char.ofNat 96) ++ "jwt_used:" ++ jti

theorem otp_ne_otpFailed (email email' : String) : otp email ≠ otpFailed email' := by
  intro h
  have hhead := congrArg (fun s => s.toList.head?) h
  simp [otp, otpFailed, String.toList_append] at hhead

theorem regToken_ne_otpFailed (jti email : String) : regToken jti ≠ otpFailed email := by
  intro h
  have hhead := congrArg (fun s => s.toList.head?) h
  simp [regToken, otpFailed, String.toList_append] at hhead

theorem regToken_ne_otp (jti email : String) : regToken jti ≠ otp email := by
  intro h
  have hhead := congrArg (fun s => s.toList.head?) h
  simp [regToken, otp, String.toList_append] at hhead

theorem otpFailed_injective : Function.Injective otpFailed :=
  fun _ _ h => String.append_right_inj _ |>.mp h

theorem otp_injective : Function.Injective otp :=
  fun _ _ h => String.append_right_inj _ |>.mp h

end RedisKeys

/-! ## Handlers -/

/-- The settings of the handlers. -/
structure OtpConfig where
  hmacSha256 : List UInt8 → List UInt8 → Vector UInt8 32
  otpSecret : String
  demoOtp : Option String
  otpExpiresIn : ℤ
  otpMaxAttempts : ℕ
  otpCooldown : ℤ

/-- The registration token, before it is signed. -/
structure RegToken where
  sub : String
  ownerId : String
  purpose : String
  jti : String
  iat : ℤ
  exp : ℤ
  deriving DecidableEq

/-- What a handler replies, or that it throws. -/
inductive OtpResult where
  | dispatched (emailMasked : String) (expiresIn : ℤ)
  | verified (regToken : RegToken) (ownerId : String) (expiresIn : ℤ)
  | failed (status : ℕ) (errorCode message : String)
  | thrown
  deriving DecidableEq

/-- `email.toLowerCase()`, of the letters that an address may have. -/
def toLowerCase (email : String) : String := String.ofList (email.toList.map Char.toLower)

/-- `maskEmail` -/
def maskEmail (email : String) : String :=
  let parts := email.toList.splitOn '@'
  let first := match parts.head?.bind List.head? with
    | some c => String.singleton c
    | none => "undefined"
  first ++ "***@" ++ (parts[1]?).elim "undefined" String.ofList

/-- `parseInt(value, 10)` of what `GET` replied. -/
def parseInt : Redis.Value → Option ℤ
  | .integer n => some n
  | .text s =>
    let body := s.toList.dropWhile isSpace
    let (negative, body) := match body with
      | '-' :: cs => (true, cs)
      | '+' :: cs => (false, cs)
      | cs => (false, cs)
    match body.takeWhile Char.isDigit with
    | [] => none
    | digits =>
      let n : ℤ := digits.foldl (fun n c => 10 * n + (c.toNat - 48)) 0
      some (if negative then -n else n)

namespace OtpConfig

variable (g : OtpConfig)

/-- `hmacOtp` -/
def hmacOtp (otp : String) : String := hex (g.hmacSha256 (utf8 g.otpSecret) (utf8 otp)).toList

/-- `safeEqual`, of the HMAC of a password and what was stored. -/
def isMatch (otp : String) (stored : Redis.Value) : Bool :=
  decide (utf8 (g.hmacOtp otp) = utf8 stored.toText)

/-- `failRaw && parseInt(failRaw, 10) >= ENV.OTP_MAX_ATTEMPTS` -/
def blocked (failRaw : Option Redis.Value) : Bool :=
  match failRaw with
  | none => false
  | some v => v.toText ≠ "" && (parseInt v).any fun n => decide ((g.otpMaxAttempts : ℤ) ≤ n)

/-- The part of `handleOtpRequest` after the password was drawn: its HMAC is stored. -/
def storeOtp (email otp : String) : Run OtpResult := do
  let hmac := g.hmacOtp otp
  let .ok _ ← stmt (.set (RedisKeys.otp email) hmac g.otpExpiresIn)
    | return .thrown
  return .dispatched (maskEmail email) g.otpExpiresIn

/-- `handleOtpRequest` -/
def handleOtpRequest (email : String) : Run OtpResult :=
  match g.demoOtp with
  | some otp => g.storeOtp email otp
  | none => do
    let n ← stmt .randomInt
    g.storeOtp email (toString n)

/-- The part of `handleOtpVerify` after a wrong password: the failure is counted. -/
def countFailure (failKey : String) : Run OtpResult := do
  let .ok count ← stmt (.incr failKey)
    | return .thrown
  if count = 1 then
    stmt (.expire failKey g.otpCooldown)
  return .failed 401 "OTP_MISMATCH" "Invalid OTP"

/-- The part of `handleOtpVerify` after the right password: it is deleted and a registration token
issued. -/
def issueToken (email : String) : Run OtpResult := do
  stmt (.del (RedisKeys.otp email))
  let jti ← stmt .randomUUID
  let iat := (← stmt .now) / 1000
  let ownerId ← stmt .randomUUID
  let token : RegToken :=
    { sub := email, ownerId, purpose := "pki_registration", jti, iat, exp := iat + 600 }
  let .ok _ ← stmt (.set (RedisKeys.regToken jti) "0" 600)
    | return .thrown
  return .verified token ownerId 600

/-- `handleOtpVerify` -/
def handleOtpVerify (email otp : String) : Run OtpResult := do
  let email := toLowerCase email
  let failKey := RedisKeys.otpFailed email
  let some stored ← stmt (.get (RedisKeys.otp email))
    | return .failed 404 "OTP_NOT_FOUND" "No pending OTP for this email"
  if stored.toText = "" then
    return .failed 404 "OTP_NOT_FOUND" "No pending OTP for this email"
  let failRaw ← stmt (.get failKey)
  if g.blocked failRaw then
    return .failed 429 "VERIFY_RATE_LIMITED" "Too many failed attempts. Try again later."
  if g.isMatch otp stored then issueToken email else g.countFailure failKey

end OtpConfig

/-! ## The machine -/

/-- An address that the validation has let through: it is in lower case. -/
structure Email where
  val : String
  lower : toLowerCase val = val
  deriving DecidableEq

/-- A request, validated. -/
inductive OtpRequest where
  | request (email : Email)
  | verify (email : Email) (otp : String)
  deriving DecidableEq

/-- The program of a request. -/
def OtpConfig.program (g : OtpConfig) : OtpRequest → Run OtpResult
  | .request email => g.handleOtpRequest email.val
  | .verify email otp => g.handleOtpVerify email.val otp

/-- The world of the handlers, which keep nothing between their statements but their variables. -/
abbrev otpWorld : World where
  S := signature
  Env := Env
  Loc := Unit
  Choice := Choice
  exec _ s c e _ := some ((exec s c e).1, (exec s c e).2, ())

/-- Any number of handlers, and time that passes in milliseconds. -/
abbrev otpMachine (g : OtpConfig) : Machine where
  toWorld := otpWorld
  Tick := ℕ
  Request := OtpRequest
  Result := OtpResult
  program := g.program
  start := ()
  tick d (e : Env) := some { e with now := e.now + d }

/-! ## What the statements do -/

namespace Otp

/-- The key that a statement may change. -/
def Stmt.writes : Stmt → Option String
  | .set key _ _ | .incr key | .expire key _ | .del key => some key
  | _ => none

variable {s : Stmt} {c : Choice} {e : Env}

/-- A statement takes no time. -/
@[simp] theorem exec_now : (exec s c e).2.now = e.now := by
  cases s with
  | set key value ttl =>
    simp only [exec]
    split <;> rfl
  | incr key =>
    simp only [exec]
    split <;> rfl
  | _ => rfl

/-- A statement leaves its key as it is or changes it, and every other key as it is. -/
theorem exec_redis : (exec s c e).2.redis = e.redis ∨
    ∃ key entry, s.writes = some key ∧ (exec s c e).2.redis = e.redis.put key entry := by
  cases s with
  | set key value ttl =>
    simp only [exec]
    split
    · next redis h => exact .inr ⟨key, _, rfl, Redis.Db.set_cases h⟩
    · exact .inl rfl
  | incr key =>
    simp only [exec]
    split
    · next n redis h => exact .inr ⟨key, _, rfl, (Redis.Db.incr_cases h).2⟩
    · exact .inl rfl
  | expire key ttl =>
    rcases Redis.Db.expire_cases e.redis e.now key ttl with h | ⟨_, _, h⟩
    · exact .inl h.1
    · exact .inr ⟨key, _, rfl, h⟩
  | del key =>
    rcases Redis.Db.del_cases e.redis key with h | h
    · exact .inl h.1
    · exact .inr ⟨key, _, rfl, h.1⟩
  | _ => exact .inl rfl

theorem exec_live {key : String} (h : s.writes ≠ some key) (now : ℤ) :
    (exec s c e).2.redis.live now key = e.redis.live now key := by
  obtain h' | ⟨key', entry, hkey, h'⟩ := exec_redis (s := s) (c := c) (e := e)
  · rw [h']
  · rw [h', Redis.Db.live_put_of_ne]
    rintro rfl
    exact h hkey

/-- A statement leads to a later database. -/
theorem exec_later : e.redis.Later (exec s c e).2.redis := by
  obtain h | ⟨key, entry, -, h⟩ := exec_redis (s := s) (c := c) (e := e)
  · rw [h]
    exact .refl _
  · rw [h]
    exact Redis.Db.later_put _ _ _

end Otp

/-! ## Stages -/

variable {g : OtpConfig}

/-- How far a verification has come. -/
inductive VerifyStage (g : OtpConfig) (email otp : String) :
    List (Event otpWorld) → Run OtpResult → Prop where
  | start {k} : VerifyStage g email otp [] (.call (.get (RedisKeys.otp email)) k)
  | missing {e r a} :
    VerifyStage g email otp [⟨Stmt.get (RedisKeys.otp email), e, r⟩] (.ret a)
  | found {e stored k} : VerifyStage g email otp
    [⟨Stmt.get (RedisKeys.otp email), e, some stored⟩]
      (.call (.get (RedisKeys.otpFailed email)) k)
  | stopped {e stored e' failRaw a} (h : g.blocked failRaw = true) : VerifyStage g email otp
    [⟨Stmt.get (RedisKeys.otp email), e, some stored⟩,
      ⟨Stmt.get (RedisKeys.otpFailed email), e', failRaw⟩] (.ret a)
  | wrong {e stored e' failRaw k} (h : g.blocked failRaw = false)
    (hmatch : g.isMatch otp stored = false) : VerifyStage g email otp
    [⟨Stmt.get (RedisKeys.otp email), e, some stored⟩,
      ⟨Stmt.get (RedisKeys.otpFailed email), e', failRaw⟩]
      (.call (.incr (RedisKeys.otpFailed email)) k)
  | counted {e stored e' failRaw e'' r log rest} (h : g.blocked failRaw = false)
    (hmatch : g.isMatch otp stored = false) (hrest : rest.head = none ∨
      rest.head = some (.expire (RedisKeys.otpFailed email) g.otpCooldown)) :
    VerifyStage g email otp
    (⟨Stmt.get (RedisKeys.otp email), e, some stored⟩ ::
      ⟨Stmt.get (RedisKeys.otpFailed email), e', failRaw⟩ ::
        ⟨Stmt.incr (RedisKeys.otpFailed email), e'', r⟩ :: log) rest
  | right {e stored e' failRaw log rest} (h : g.blocked failRaw = false)
    (hmatch : g.isMatch otp stored = true) (hrest : rest.head = none ∨ rest.head = some .now ∨
      rest.head = some .randomUUID ∨ rest.head = some (.del (RedisKeys.otp email)) ∨
      ∃ jti, rest.head = some (.set (RedisKeys.regToken jti) "0" 600)) :
    VerifyStage g email otp
    (⟨Stmt.get (RedisKeys.otp email), e, some stored⟩ ::
      ⟨Stmt.get (RedisKeys.otpFailed email), e', failRaw⟩ :: log) rest

/-- **Every verification is at a stage.** -/
theorem verify_stage {email : Email} {otp : String} {log : List (Event otpWorld)}
    {rest : Run OtpResult} (h : (g.handleOtpVerify email.val otp).Leads log rest) :
    VerifyStage g email.val otp log rest := by
  rw [OtpConfig.handleOtpVerify, email.lower] at h
  rcases Program.leads_issue.mp h with ⟨rfl, rfl⟩ | ⟨e, stored, log, rfl, h₁⟩
  · exact .start
  rcases stored with _ | stored
  · obtain ⟨rfl, rfl⟩ := Program.leads_ret.mp h₁
    exact .missing
  dsimp only at h₁
  split at h₁
  · obtain ⟨rfl, rfl⟩ := Program.leads_ret.mp h₁
    exact .missing
  rcases Program.leads_issue.mp h₁ with ⟨rfl, rfl⟩ | ⟨e', failRaw, log, rfl, h₂⟩
  · exact .found
  split at h₂
  · next hblocked =>
    obtain ⟨rfl, rfl⟩ := Program.leads_ret.mp h₂
    exact .stopped hblocked
  next hblocked =>
  rw [Bool.not_eq_true] at hblocked
  split at h₂
  · next hmatch =>
    refine .right hblocked hmatch ?_
    rcases Program.leads_issue.mp h₂ with ⟨rfl, rfl⟩ | ⟨-, -, log, rfl, h₃⟩
    · exact .inr (.inr (.inr (.inl rfl)))
    rcases Program.leads_issue.mp h₃ with ⟨rfl, rfl⟩ | ⟨-, jti, log, rfl, h₄⟩
    · exact .inr (.inr (.inl rfl))
    rcases Program.leads_issue.mp h₄ with ⟨rfl, rfl⟩ | ⟨-, time, log, rfl, h₅⟩
    · exact .inr (.inl rfl)
    rcases Program.leads_issue.mp h₅ with ⟨rfl, rfl⟩ | ⟨-, ownerId, log, rfl, h₆⟩
    · exact .inr (.inr (.inl rfl))
    rcases Program.leads_issue.mp h₆ with ⟨rfl, rfl⟩ | ⟨-, r, log, rfl, h₇⟩
    · exact .inr (.inr (.inr (.inr ⟨jti, rfl⟩)))
    rcases r with _ | _ <;>
    · obtain ⟨rfl, rfl⟩ := Program.leads_ret.mp h₇
      exact .inl rfl
  · next hmatch =>
    rw [Bool.not_eq_true] at hmatch
    rcases Program.leads_issue.mp h₂ with ⟨rfl, rfl⟩ | ⟨e'', r, log, rfl, h₃⟩
    · exact .wrong hblocked hmatch
    refine .counted hblocked hmatch ?_
    rcases r with _ | n
    · obtain ⟨rfl, rfl⟩ := Program.leads_ret.mp h₃
      exact .inl rfl
    dsimp only at h₃
    split at h₃
    · rcases Program.leads_issue.mp h₃ with ⟨rfl, rfl⟩ | ⟨-, -, log, rfl, h₄⟩
      · exact .inr rfl
      obtain ⟨rfl, rfl⟩ := Program.leads_ret.mp h₄
      exact .inl rfl
    · obtain ⟨rfl, rfl⟩ := Program.leads_ret.mp h₃
      exact .inl rfl

/-- A request for a password writes only the password. -/
theorem request_head {email : Email} {log : List (Event otpWorld)} {rest : Run OtpResult}
    (h : (g.handleOtpRequest email.val).Leads log rest) : rest.head = none ∨
      rest.head = some .randomInt ∨
      ∃ hmac, rest.head = some (.set (RedisKeys.otp email.val) hmac g.otpExpiresIn) := by
  have hwrite : ∀ {otp} {log : List (Event otpWorld)}, (g.storeOtp email.val otp).Leads log rest → rest.head = none ∨
      ∃ hmac, rest.head = some (.set (RedisKeys.otp email.val) hmac g.otpExpiresIn) := by
    intro otp log h
    rcases Program.leads_issue.mp h with ⟨rfl, rfl⟩ | ⟨-, r, log, rfl, h₁⟩
    · exact .inr ⟨_, rfl⟩
    rcases r with _ | _ <;>
    · obtain ⟨rfl, rfl⟩ := Program.leads_ret.mp h₁
      exact .inl rfl
  unfold OtpConfig.handleOtpRequest at h
  split at h
  · exact (hwrite h).imp_right .inr
  · rcases Program.leads_issue.mp h with ⟨rfl, rfl⟩ | ⟨e, n, log, rfl, h₁⟩
    · exact .inr (.inl rfl)
    · exact (hwrite h₁).imp_right .inr

/-! ## A sample gateway -/

/-- A gateway that allows five attempts in ten minutes; its HMAC is the start of the text. -/
def sampleOtp : OtpConfig where
  hmacSha256 _ text := Vector.ofFn fun i : Fin 32 => text.getD i 0
  otpSecret := "secret"
  demoOtp := none
  otpExpiresIn := 300
  otpMaxAttempts := 5
  otpCooldown := 600

/-- The address of the sample client. -/
def sampleEmail : Email := ⟨"an@bank.vn", by decide⟩

/-- The start of the sample gateway. -/
def sampleOtpStart : State (otpMachine sampleOtp) := ⟨⟨0, .empty⟩, ∅⟩

/-- The labels of a call and of its first `n` statements. -/
def otpCall (i : ℕ) (q : OtpRequest) (n : ℕ) : List (Act (otpMachine sampleOtp)) :=
  .spawn i q :: List.replicate n (.run i {})

/-- A call of the sample gateway with the identifiers it draws. -/
def verifyCall (i n : ℕ) (uuid : String) : List (Act (otpMachine sampleOtp)) :=
  List.replicate n (.run i { uuid })

end Gateway
