import MiniBanking.Concurrency.Count
import MiniBanking.Concurrency.Trace
import MiniBanking.Gateway.AuditSemantics
import MiniBanking.Redis.Store

/-!
# Rate limits of the gateway

A limiter counts the requests with one key in Redis: `INCR` creates or increases the counter, a
second command sets the time to live of a new one. A command of Redis is atomic, but between two
of them any other request may be served, Redis may fail, and the process may die.

## Main definitions

* `Limiter`, `Route`: the four limiters, and the routes they protect
* `rateLimitByIP`, `rateLimitBankByIP`, `rateLimitByCertSn`, `rateLimitOtpByEmail`: what a
  limiter counts a request under
* `RateConfig.check`: the middleware that counts
* `RateConfig.validate`: the validators behind it
* `rateMachine`: any number of requests, interleaved
* `Stage`: how far a request has come

## Main results

* `Stage.next`: every reply leads to a stage
-/

namespace Gateway

open Concurrency Js

/-! ## Requests -/

/-- The limiters. -/
inductive Limiter where
  | as
  | bank
  | tgs
  | otp
  deriving DecidableEq

/-- `RedisKeys` -/
def Limiter.tag : Limiter → String
  | as => "rate:as:"
  | bank => "rate:bank:"
  | tgs => "rate:tgs:"
  | otp => "rate:otp:"

/-- The key of a counter. -/
def counterKey (limiter : Limiter) (value : String) : String := limiter.tag ++ value

/-- The keys of different limiters differ in their sixth characters. -/
theorem counterKey_inj {limiter limiter' : Limiter} {value value' : String}
    (h : counterKey limiter value = counterKey limiter' value') :
    limiter = limiter' ∧ value = value' := by
  have hchar := congrArg (fun s => s.toList[5]?) h
  have hlimiter : limiter = limiter' := by
    cases limiter <;> cases limiter' <;>
      first | rfl | simp [counterKey, Limiter.tag, String.toList_append] at hchar
  subst hlimiter
  exact ⟨rfl, (String.append_right_inj _).mp h⟩

/-- The routes with a limiter. -/
inductive Route where
  | asReq
  | tgsReq
  | me
  | transfer
  | balanceQuery
  | historyQuery
  | otpRequest
  deriving DecidableEq

/-- What `req.body?.name` is: nothing or `null`, a text, or another value with its text. -/
inductive Field where
  | missing
  | text (s : String)
  | other (truthy : Bool) (text : String)
  deriving DecidableEq

/-- A request: where it comes from, and its body by the names of the members. -/
structure Incoming where
  route : Route
  ip : String
  body : String → Field
  /-- The second its validator reads from the clock. -/
  validatedAt : ℤ

/-! ## What is counted -/

/-- What a limiter counts a request under: it lets the request pass without counting, or throws. -/
inductive Counted where
  | skip
  | throws
  | under (limiter : Limiter) (value : String)
  deriving DecidableEq

/-- `email.toLowerCase().trim()` -/
def normalizeEmail (email : String) : String := Js.trim (Js.toLowerCase email)

def rateLimitByIP (req : Incoming) : Counted := .under .as req.ip

def rateLimitBankByIP (req : Incoming) : Counted := .under .bank req.ip

def rateLimitByCertSn (req : Incoming) : Counted :=
  match req.body "cert_sn" with
  | .missing => .skip
  | .text certSn => if certSn = "" then .skip else .under .tgs certSn
  | .other truthy text => if truthy then .under .tgs text else .skip

def rateLimitOtpByEmail (req : Incoming) : Counted :=
  match req.body "email" with
  | .missing => .skip
  | .text email =>
    let email := normalizeEmail email
    if email = "" then .skip else .under .otp email
  | .other _ _ => .throws

/-- The limiter of a route. -/
def counts (req : Incoming) : Counted :=
  match req.route with
  | .asReq | .me => rateLimitByIP req
  | .transfer | .balanceQuery | .historyQuery => rateLimitBankByIP req
  | .tgsReq => rateLimitByCertSn req
  | .otpRequest => rateLimitOtpByEmail req

/-- What a route is to be limited by: the address of the client, the serial number of the
certificate or the email address that its handler is given. -/
def Incoming.limitedBy (req : Incoming) : Option (Limiter × String) :=
  match req.route with
  | .asReq | .me => some (.as, req.ip)
  | .transfer | .balanceQuery | .historyQuery => some (.bank, req.ip)
  | .tgsReq =>
    match req.body "certSn" with
    | .text certSn => some (.tgs, certSn)
    | _ => none
  | .otpRequest =>
    match req.body "email" with
    | .text email => some (.otp, normalizeEmail email)
    | _ => none

/-! ## Statements -/

namespace Rate

inductive Stmt where
  /-- The request comes to the limiter. -/
  | enter
  | incr (key : String)
  | expire (key : String) (ttl : ℤ)
  | ttl (key : String)
  deriving DecidableEq

/-- What becomes of a command: an answer, an error, or the process dies before there is one. -/
inductive Answer (A : Type) where
  | done (a : A)
  | failed
  | died
  deriving DecidableEq

abbrev Reply : Stmt → Type
  | .enter => Unit
  | .incr _ => Answer ℤ
  | .expire _ _ => Answer Unit
  | .ttl _ => Answer ℤ

abbrev signature : Signature := ⟨Stmt, Reply⟩

abbrev Run (α : Type) : Type := Program signature α

abbrev stmt (s : Stmt) : Run (Reply s) := issue (S := signature) s

/-- The fate of a command. One that fails, or whose process dies, has taken effect or not. -/
inductive Fate where
  | done
  | failed (took : Bool)
  | died (took : Bool)

/-- Time, Redis, and how many counters there have been at each key. -/
structure Env where
  now : ℤ
  redis : Redis.Db
  created : String → ℕ

/-- The counter at a key, by its number, while it exists. -/
def Env.life (e : Env) (key : String) : Option ℕ :=
  (e.redis.live e.now key).map fun _ => e.created key

/-- `INCR`, which counts the counters. -/
def Env.incr (e : Env) (key : String) : Option (ℤ × Env) :=
  (e.redis.incr e.now key).map fun (n, redis) => (n, { e with
    redis
    created := if (e.redis.live e.now key).isSome then e.created
      else Function.update e.created key (e.created key + 1) })

def Env.expire (e : Env) (key : String) (ttl : ℤ) : Env :=
  { e with redis := e.redis.expire e.now key ttl }

/-- A command with an answer and the environment after it, as its fate is. -/
def Fate.answer {A : Type} (fate : Fate) (e : Env) (answer : Option (A × Env)) : Answer A × Env :=
  match fate, answer with
  | .done, some (a, e') => (.done a, e')
  | .done, none => (.failed, e)
  | .failed took, some (_, e') => (.failed, if took then e' else e)
  | .failed _, none => (.failed, e)
  | .died took, some (_, e') => (.died, if took then e' else e)
  | .died _, none => (.died, e)

/-- The meaning of the statements. -/
def exec : (s : Stmt) → Fate → Env → Reply s × Env
  | .enter, _, e => ((), e)
  | .incr key, fate, e => fate.answer e (e.incr key)
  | .expire key ttl, fate, e => fate.answer e (some ((), e.expire key ttl))
  | .ttl key, fate, e => fate.answer e (some (e.redis.ttl e.now key, e))

end Rate

open Rate

/-! ## The middleware -/

/-- What becomes of a request. -/
inductive Outcome where
  /-- The handler is called. -/
  | handled
  /-- The validator refuses the request. -/
  | refused
  | limited (retryAfter : ℤ)
  | thrown
  | died
  deriving DecidableEq

/-- `/^[A-Za-z0-9+/]*={0,2}$/` -/
def isBase64 (s : String) : Bool :=
  let padding := s.toList.dropWhile fun c => c.isAlphanum || c = '+' || c = '/'
  padding.all (· = '=') && padding.length ≤ 2

/-- The length of `Buffer.from(s, "base64")`. -/
def decodedLength (s : String) : ℕ := (s.toList.filter (· ≠ '=')).length * 6 / 8

/-- `/^[0-9A-Fa-f]+$/` -/
def isHexText (s : String) : Bool :=
  s ≠ "" && s.toList.all fun c =>
    c.isDigit || ('A' ≤ c && c ≤ 'F') || ('a' ≤ c && c ≤ 'f')

/-- A member that is a text with a property. -/
def Incoming.has (req : Incoming) (name : String) (p : String → Bool) : Bool :=
  match req.body name with
  | .text s => p s
  | _ => false

/-- The settings of the gateway. -/
structure RateConfig where
  disabled : Bool
  window : Limiter → ℤ
  max : Limiter → ℕ
  window_pos : ∀ limiter, 0 < window limiter
  max_pos : ∀ limiter, 0 < max limiter
  /-- `z.email()` -/
  isEmail : String → Bool
  /-- An address is not blank. -/
  isEmail_blank : ∀ s, isEmail s = true → normalizeEmail s ≠ ""
  /-- The validators of the routes that are limited by the address of the client. -/
  validateByIP : Incoming → Bool

namespace RateConfig

variable (g : RateConfig)

/-- `TGSRequestSchema` -/
def validateTGSRequest (req : Incoming) : Bool :=
  req.has "serviceId" (· = "bank-service") && req.has "tgtCiphertext" isBase64 &&
    req.has "authenticator" isBase64 && req.has "certSn" isHexText &&
    req.has "nonce" (fun s => isBase64 s && decodedLength s = 16) &&
    req.has "requestedScope" fun s =>
      ["transfer:create", "balance:read", "history:read", "bank-admin:read"].contains s

def validateOtpRequest (req : Incoming) : Bool :=
  req.has "email" fun s => g.isEmail s && s.toList.length ≤ 254

/-- The validator of a route. -/
def validate (req : Incoming) : Bool :=
  match req.route with
  | .tgsReq => validateTGSRequest req
  | .otpRequest => g.validateOtpRequest req
  | _ => g.validateByIP req

/-- `next()` -/
def next (req : Incoming) : Outcome := if g.validate req then .handled else .refused

/-- The part of `check` after the time to live was read. -/
def afterTtl (limiter : Limiter) (req : Incoming) : Answer ℤ → Run Outcome
  | .died => return .died
  | .failed => return g.next req
  | .done ttl => return .limited (if 0 < ttl then ttl else g.window limiter)

/-- The part of `check` after the request was counted. -/
def verdict (limiter : Limiter) (value : String) (req : Incoming) (count : ℤ) : Run Outcome :=
  if (g.max limiter : ℤ) < count then do
    g.afterTtl limiter req (← stmt (.ttl (counterKey limiter value)))
  else return g.next req

/-- The part of `check` after the time to live of a new counter was set. -/
def afterExpire (limiter : Limiter) (value : String) (req : Incoming) : Answer Unit → Run Outcome
  | .died => return .died
  | .failed => return g.next req
  | .done _ => g.verdict limiter value req 1

/-- The part of `check` after `INCR`. -/
def afterIncr (limiter : Limiter) (value : String) (req : Incoming) : Answer ℤ → Run Outcome
  | .died => return .died
  -- an error of Redis lets the request pass
  | .failed => return g.next req
  | .done count =>
    if count = 1 then do
      g.afterExpire limiter value req
        (← stmt (.expire (counterKey limiter value) (g.window limiter)))
    else g.verdict limiter value req count

/-- `check` -/
def check (limiter : Limiter) (value : String) (req : Incoming) : Run Outcome :=
  if g.disabled then return g.next req
  else do
    g.afterIncr limiter value req (← stmt (.incr (counterKey limiter value)))

/-- The limiter of the route of a request. -/
def limit (req : Incoming) : Run Outcome :=
  match counts req with
  | .skip => return g.next req
  | .throws => return .thrown
  | .under limiter value => g.check limiter value req

/-- A request on its route. -/
def program (req : Incoming) : Run Outcome := do
  stmt .enter
  g.limit req

end RateConfig

/-! ## The machine -/

/-- The world of the middleware. A request keeps which counters there were at its last command. -/
abbrev rateWorld : World where
  S := signature
  Env := Env
  Loc := String → Option ℕ
  Choice := Fate
  exec _ s fate e _ := some ((exec s fate e).1, (exec s fate e).2, (exec s fate e).2.life)

/-- Any number of requests, and time that passes in milliseconds. -/
abbrev rateMachine (g : RateConfig) : Machine where
  toWorld := rateWorld
  Tick := ℕ
  Request := Incoming
  Result := Outcome
  program := g.program
  start := fun _ => none
  tick d (e : Env) := some { e with now := e.now + d }

/-! ## Stages -/

section Stage

variable (g : RateConfig) (req : Incoming)

/-- How far a request has come. -/
inductive Stage : Run Outcome → Prop where
  | entering : Stage (.call .enter fun _ => g.limit req)
  | counting {limiter value} (h : counts req = .under limiter value) :
    Stage (.call (.incr (counterKey limiter value)) (g.afterIncr limiter value req))
  | expiring {limiter value} (h : counts req = .under limiter value) :
    Stage (.call (.expire (counterKey limiter value) (g.window limiter))
      (g.afterExpire limiter value req))
  | deciding {limiter value} (h : counts req = .under limiter value) :
    Stage (.call (.ttl (counterKey limiter value)) (g.afterTtl limiter req))
  | over (outcome : Outcome) : Stage (.ret outcome)

end Stage

variable {g : RateConfig} {req : Incoming}

theorem stage_verdict {limiter : Limiter} {value : String} (h : counts req = .under limiter value)
    (count : ℤ) : Stage g req (g.verdict limiter value req count) := by
  unfold RateConfig.verdict
  split
  · exact .deciding h
  · exact .over _

/-- **Every reply leads to a stage**, unless there are no limits. -/
theorem Stage.next (hdisabled : g.disabled = false) {st : Stmt} {k : Reply st → Run Outcome}
    (h : Stage g req (.call st k)) (r : Reply st) : Stage g req (k r) := by
  cases h with
  | entering =>
    unfold RateConfig.limit
    split
    · exact .over _
    · exact .over _
    · next hcounts =>
      simp only [RateConfig.check, hdisabled, Bool.false_eq_true, if_false]
      exact .counting hcounts
  | counting hcounts =>
    rcases r with count | _ | _
    · simp only [RateConfig.afterIncr]
      split
      · exact .expiring hcounts
      · exact stage_verdict hcounts count
    · exact .over _
    · exact .over _
  | expiring hcounts =>
    rcases r with _ | _ | _
    · exact stage_verdict hcounts 1
    · exact .over _
    · exact .over _
  | deciding hcounts => rcases r with _ | _ | _ <;> exact .over _

end Gateway
