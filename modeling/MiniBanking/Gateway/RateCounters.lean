import MiniBanking.Gateway.RateLimit
import Mathlib.Order.Interval.Finset.Nat

/-!
# Requests and counters

A counter numbers the requests that increase it, so that no more than the maximum reach their
handlers while it lives. This is so as long as every request that is served was counted, and every
counter that was created got its time to live.

## Main definitions

* `RateLimits`: what the limiters are for
* `Harmless`: a command whose failure does no harm
* `MeetsAct`: a step on which the limits depend
* `Ranked`: a request has a number on a counter
* `RatesKept`: the invariant

## Main results

* `rate_limits_hold`: in every run of such steps the limits hold
-/

namespace Gateway

open Concurrency Js Rate

variable {g : RateConfig}

/-! ## What the limiters are for -/

/-- The handler of a route was called, and at the last command of its limiter the counter of the
key was this one. -/
abbrev handledIn (limiter : Limiter) (value : String) (life : ℕ) (c : Call (rateMachine g)) :
    Prop :=
  c.rest.result = some .handled ∧ c.request.limitedBy = some (limiter, value) ∧
    c.loc (counterKey limiter value) = some life

/-- **The limits.** -/
structure RateLimits (g : RateConfig) (s : State (rateMachine g)) : Prop where
  /-- While a counter lives, no more requests with its key reach the handler than are allowed. -/
  bounded : ∀ limiter value life,
    (s.ids (@handledIn g limiter value life)).card ≤ g.max limiter
  /-- A request that passes the validator was counted under its key. -/
  counted : ∀ i c, s.call i = some c → c.rest.result = some .handled →
    ∃ limiter value e n, c.request.limitedBy = some (limiter, value) ∧
      s.Issued i ⟨.incr (counterKey limiter value), e, .done n⟩
  /-- A counter has a time to live, unless a request is going to set it. -/
  timed : ∀ limiter value entry,
    s.env.redis.live s.env.now (counterKey limiter value) = some entry → entry.expires = none →
      ∃ i c, s.call i = some c ∧
        c.rest.head = some (.expire (counterKey limiter value) (g.window limiter))

/-! ## Steps that do no harm -/

/-- The fate of a command does no harm: a request whose counter or time to live cannot be read is
not valid, a counter is not created without an answer, and its time to live is set. -/
def Harmless (g : RateConfig) (req : Incoming) (e : Env) : Stmt → Fate → Prop
  | .incr key, .failed took => g.validate req = false ∧ (took = true → (e.life key).isSome)
  | .incr key, .died took => took = true → (e.life key).isSome
  | .expire _ _, .failed took => took = true
  | .expire _ _, .died took => took = true
  | .ttl _, .failed _ => g.validate req = false
  | _, _ => True

/-- A valid request for a service ticket names the serial number a second time, as `cert_sn`. -/
def NamesSerial (g : RateConfig) (req : Incoming) : Prop :=
  req.route = .tgsReq → g.validate req = true → ∀ certSn, req.body "certSn" = .text certSn →
    req.body "cert_sn" = .text certSn ∨ req.body "cert_sn" = .other true certSn

/-- The steps on which the limits depend. -/
def MeetsAct (u : State (rateMachine g)) : Act (rateMachine g) → Prop
  | .spawn _ req => NamesSerial g req
  | .run i fate => ∀ c st, u.call i = some c → c.rest.head = some st →
      Harmless g c.request u.env st fate
  | .tick _ => True

/-! ## Keys -/

theorem Incoming.has_iff {req : Incoming} {name : String} {p : String → Bool} :
    req.has name p = true ↔ ∃ s, req.body name = .text s ∧ p s = true := by
  unfold Incoming.has
  constructor
  · intro h
    split at h
    · next s hs => exact ⟨s, hs, h⟩
    · cases h
  · rintro ⟨s, hs, hp⟩
    rw [hs]
    exact hp

/-- A valid request is counted under its key. -/
theorem counts_of_valid {req : Incoming} (hnames : NamesSerial g req)
    (hvalid : g.validate req = true) :
    ∃ limiter value, counts req = .under limiter value ∧
      req.limitedBy = some (limiter, value) := by
  cases hroute : req.route with
  | asReq | me =>
    refine ⟨.as, req.ip, ?_, ?_⟩
    · simp [counts, hroute, rateLimitByIP]
    · simp [Incoming.limitedBy, hroute]
  | transfer | balanceQuery | historyQuery =>
    refine ⟨.bank, req.ip, ?_, ?_⟩
    · simp [counts, hroute, rateLimitBankByIP]
    · simp [Incoming.limitedBy, hroute]
  | tgsReq =>
    have hv := hvalid
    simp only [RateConfig.validate, hroute, RateConfig.validateTGSRequest, Bool.and_eq_true] at hv
    obtain ⟨⟨⟨-, hcert⟩, -⟩, -⟩ := hv
    obtain ⟨certSn, hbody, hhex⟩ := Incoming.has_iff.mp hcert
    refine ⟨.tgs, certSn, ?_, by simp [Incoming.limitedBy, hroute, hbody]⟩
    have hne : certSn ≠ "" := by
      simp only [isHexText, Bool.and_eq_true, decide_eq_true_eq] at hhex
      exact hhex.1
    rcases hnames hroute hvalid certSn hbody with h | h
    · simp [counts, hroute, rateLimitByCertSn, h, hne]
    · simp [counts, hroute, rateLimitByCertSn, h]
  | otpRequest =>
    have hv := hvalid
    simp only [RateConfig.validate, hroute, RateConfig.validateOtpRequest] at hv
    obtain ⟨email, hbody, hemail⟩ := Incoming.has_iff.mp hv
    have hne := g.isEmail_blank email (Bool.and_eq_true_iff.mp hemail).1
    refine ⟨.otp, normalizeEmail email, ?_, ?_⟩
    · simp [counts, hroute, rateLimitOtpByEmail, hbody, hne]
    · simp [Incoming.limitedBy, hroute, hbody]

/-! ## Counters -/

namespace Rate

/-- What is at the keys of counters is a number from 1 on. -/
def Env.Numbers (e : Env) : Prop :=
  ∀ limiter value entry, e.redis.entries (counterKey limiter value) = some entry →
    ∃ n, entry.value = .integer n ∧ 1 ≤ n

/-- A counter without a time to live. -/
def Env.Timeless (e : Env) (key : String) : Prop :=
  ∃ entry, e.redis.live e.now key = some entry ∧ entry.expires = none

/-- The number at a key. -/
def Env.count (e : Env) (key : String) : ℤ := e.redis.count e.now key

section Env

variable {e e' : Env} {key key' : String} {limiter : Limiter} {value : String} {n : ℤ}

theorem Env.life_eq_some {life : ℕ} : e.life key = some life ↔
    (∃ entry, e.redis.live e.now key = some entry) ∧ e.created key = life := by
  simp [Env.life]

theorem Env.life_eq_none : e.life key = none ↔ e.redis.live e.now key = none := by
  simp [Env.life]

/-- The counter at a key is a number from 1 on. -/
theorem Env.Numbers.count (h : e.Numbers) (limiter : Limiter) (value : String) :
    e.life (counterKey limiter value) = none ∧ e.count (counterKey limiter value) = 0 ∨
      e.life (counterKey limiter value) = some (e.created (counterKey limiter value)) ∧
        1 ≤ e.count (counterKey limiter value) := by
  simp only [Env.life, Env.count, Redis.Db.count]
  cases hlive : e.redis.live e.now (counterKey limiter value) with
  | none => exact .inl ⟨rfl, rfl⟩
  | some entry =>
    obtain ⟨n, hn, hpos⟩ := h _ _ _ (Option.filter_eq_some_iff.mp hlive).1
    obtain ⟨_, expires⟩ := entry
    cases hn
    exact .inr ⟨rfl, hpos⟩

/-- `INCR` on the counter of a key. -/
structure Env.Counts (e : Env) (key : String) (n : ℤ) (e' : Env) : Prop where
  number : n = e.count key + 1
  now : e'.now = e.now
  live : e'.redis.live e'.now key =
    some ⟨.integer n, (e.redis.live e.now key).bind (·.expires)⟩
  entries : e'.redis.entries key =
    some ⟨.integer n, (e.redis.live e.now key).bind (·.expires)⟩
  others : ∀ key', key' ≠ key → e'.redis.entries key' = e.redis.entries key'
  created : e'.created = if (e.redis.live e.now key).isSome then e.created
    else Function.update e.created key (e.created key + 1)

theorem Env.counts_of_incr (h : e.incr key = some (n, e')) : e.Counts key n e' := by
  obtain ⟨⟨m, redis⟩, hincr, heq⟩ := Option.map_eq_some_iff.mp h
  cases heq
  obtain ⟨hn, rfl⟩ := Redis.Db.incr_cases hincr
  refine ⟨hn, rfl, ?_, Redis.Db.entries_put_self _, fun key' h => ?_, rfl⟩
  · refine Redis.Db.live_put_self fun t ht => ?_
    obtain ⟨entry, hlive, hexpires⟩ := Option.bind_eq_some_iff.mp ht
    exact Redis.Db.lt_of_live hlive t hexpires
  · exact Redis.Db.entries_put_of_ne _ h

theorem Env.Counts.live_of_ne (h : e.Counts key n e') (hne : key' ≠ key) :
    e'.redis.live e'.now key' = e.redis.live e.now key' := by
  rw [Redis.Db.live, h.others _ hne, h.now, Redis.Db.live]

theorem Env.Counts.count (h : e.Counts key n e') : e'.count key = n := by
  rw [Env.count, Redis.Db.count, h.live]

theorem Env.Counts.created_of_some {life : ℕ} (h : e.Counts key n e')
    (hlife : e.life key = some life) : e'.created = e.created := by
  obtain ⟨⟨entry, hlive⟩, -⟩ := Env.life_eq_some.mp hlife
  rw [h.created, hlive]
  rfl

theorem Env.Counts.created_of_none (h : e.Counts key n e') (hlife : e.life key = none) :
    e'.created = Function.update e.created key (e.created key + 1) := by
  rw [h.created, Env.life_eq_none.mp hlife]
  rfl

theorem Env.Counts.created_of_ne (h : e.Counts key n e') (hne : key' ≠ key) :
    e'.created key' = e.created key' := by
  cases hlife : e.life key with
  | none => rw [h.created_of_none hlife, Function.update_of_ne hne]
  | some life => rw [h.created_of_some hlife]

theorem Env.Counts.life (h : e.Counts key n e') : e'.life key = some (e'.created key) :=
  Env.life_eq_some.mpr ⟨⟨_, h.live⟩, rfl⟩

theorem Env.Counts.life_of_ne (h : e.Counts key n e') (hne : key' ≠ key) :
    e'.life key' = e.life key' := by
  rw [Env.life, h.live_of_ne hne, h.created_of_ne hne, Env.life]

theorem Env.Counts.life_of_some {life : ℕ} (h : e.Counts key n e')
    (hlife : e.life key = some life) : e'.life key = some life := by
  rw [h.life, h.created_of_some hlife, (Env.life_eq_some.mp hlife).2]

theorem Env.Counts.timeless_of_none (h : e.Counts key n e') (hlife : e.life key = none) :
    e'.Timeless key := by
  refine ⟨_, h.live, ?_⟩
  rw [Env.life_eq_none.mp hlife]
  rfl

/-- `INCR` keeps whether an existing counter has a time to live. -/
theorem Env.Counts.timeless_iff {life : ℕ} (h : e.Counts key n e')
    (hlife : e.life key = some life) (key' : String) : e'.Timeless key' ↔ e.Timeless key' := by
  by_cases hkey : key' = key
  · subst hkey
    obtain ⟨⟨entry, hlive⟩, -⟩ := Env.life_eq_some.mp hlife
    simp [Env.Timeless, h.live, hlive]
  · rw [Env.Timeless, h.live_of_ne hkey, Env.Timeless]

theorem Env.Counts.timeless_of_ne (h : e.Counts key n e') (hne : key' ≠ key) :
    e'.Timeless key' ↔ e.Timeless key' := by
  rw [Env.Timeless, h.live_of_ne hne, Env.Timeless]

/-- An environment that can increase a counter does. -/
theorem Env.Numbers.incr (h : e.Numbers) (limiter : Limiter) (value : String) :
    ∃ n e', e.incr (counterKey limiter value) = some (n, e') := by
  have hnumber : ∀ entry, e.redis.live e.now (counterKey limiter value) = some entry →
      ∃ n, entry.value = .integer n := by
    intro entry hlive
    obtain ⟨n, hn, -⟩ := h _ _ _ (Option.filter_eq_some_iff.mp hlive).1
    exact ⟨n, hn⟩
  obtain ⟨redis, hincr, -⟩ := Redis.Db.incr_of_number e.redis e.now hnumber
  exact ⟨_, _, by rw [Env.incr, hincr]; rfl⟩

theorem Env.Numbers.counts (h : e.Numbers)
    (hcounts : e.Counts (counterKey limiter value) n e') : e'.Numbers := by
  intro limiter' value' entry hentry
  by_cases hkey : counterKey limiter' value' = counterKey limiter value
  · rw [hkey, hcounts.entries] at hentry
    cases hentry
    have hnumber := hcounts.number
    have hcount := h.count limiter value
    exact ⟨n, rfl, by omega⟩
  · rw [hcounts.others _ hkey] at hentry
    exact h _ _ _ hentry

/-! `EXPIRE` -/

variable {ttl : ℤ}

theorem Env.expire_live (httl : 0 < ttl) (key' : String) :
    (e.expire key ttl).redis.live e.now key' = if key' = key then
      (e.redis.live e.now key).map fun entry => { entry with expires := some (e.now + 1000 * ttl) }
    else e.redis.live e.now key' := by
  rcases Redis.Db.expire_cases e.redis e.now key ttl with ⟨hdb, hlive⟩ | ⟨entry, hlive, hdb⟩
  · rw [Env.expire, hdb]
    split
    · next h => rw [h, hlive]; rfl
    · rfl
  · rw [Env.expire, hdb]
    split
    · next h =>
      rw [h, hlive]
      refine Redis.Db.live_put_self fun t ht => ?_
      cases ht
      omega
    · next h => exact Redis.Db.live_put_of_ne _ h

theorem Env.expire_life (httl : 0 < ttl) (key' : String) :
    (e.expire key ttl).life key' = e.life key' := by
  rw [Env.life, show (e.expire key ttl).now = e.now from rfl, Env.expire_live httl, Env.life]
  split
  · next h => rw [h, Option.map_map]; rfl
  · rfl

theorem Env.expire_count (httl : 0 < ttl) (key' : String) :
    (e.expire key ttl).count key' = e.count key' := by
  simp only [Env.count, Redis.Db.count, show (e.expire key ttl).now = e.now from rfl,
    Env.expire_live httl]
  by_cases h : key' = key
  · subst h
    rw [if_pos rfl]
    rcases e.redis.live e.now key' with _ | ⟨_ | _, _⟩ <;> rfl
  · rw [if_neg h]

theorem Env.expire_timeless (httl : 0 < ttl) (key' : String) :
    (e.expire key ttl).Timeless key' ↔ key' ≠ key ∧ e.Timeless key' := by
  rw [Env.Timeless, show (e.expire key ttl).now = e.now from rfl, Env.expire_live httl]
  by_cases h : key' = key
  · simp [h]
  · simp [h, Env.Timeless]

theorem Env.Numbers.expire (h : e.Numbers) (key : String) (ttl : ℤ) :
    (e.expire key ttl).Numbers := by
  rcases Redis.Db.expire_cases e.redis e.now key ttl with ⟨hdb, -⟩ | ⟨entry, hlive, hdb⟩
  · intro limiter value entry
    rw [Env.expire, hdb]
    exact h _ _ _
  · intro limiter value entry' hentry
    rw [Env.expire, hdb] at hentry
    by_cases hkey : counterKey limiter value = key
    · rw [hkey, Redis.Db.entries_put_self] at hentry
      cases hentry
      exact h limiter value entry (hkey ▸ (Option.filter_eq_some_iff.mp hlive).1)
    · rw [Redis.Db.entries_put_of_ne _ hkey] at hentry
      exact h _ _ _ hentry

/-! Time -/

/-- Commands and time only create counters, and increase those that are there. -/
structure Env.Grows (e e' : Env) : Prop where
  created : ∀ key, e.created key ≤ e'.created key
  kept : ∀ key life, e'.life key = some life → life ≤ e.created key →
    e.life key = some life ∧ e.count key ≤ e'.count key

theorem Env.Grows.refl (e : Env) : e.Grows e := ⟨fun _ => le_rfl, fun _ _ h _ => ⟨h, le_rfl⟩⟩

theorem Env.Counts.grows (h : e.Counts key n e') : e.Grows e' where
  created key' := by
    by_cases hkey : key' = key
    · subst hkey
      cases hlife : e.life key' with
      | none => rw [h.created_of_none hlife, Function.update_self]; exact Nat.le_succ _
      | some life => rw [h.created_of_some hlife]
    · rw [h.created_of_ne hkey]
  kept key' life hlife' hle := by
    by_cases hkey : key' = key
    · subst hkey
      cases hlife : e.life key' with
      | none =>
        rw [h.life, h.created_of_none hlife, Function.update_self] at hlife'
        cases hlife'
        omega
      | some life₀ =>
        rw [h.life_of_some hlife] at hlife'
        have hnumber := h.number
        rw [h.count]
        exact ⟨hlife', by omega⟩
    · rw [h.life_of_ne hkey] at hlife'
      simp only [Env.count, Redis.Db.count, h.live_of_ne hkey]
      exact ⟨hlife', le_rfl⟩

theorem Env.expire_grows (httl : 0 < ttl) : e.Grows (e.expire key ttl) where
  created _ := le_rfl
  kept key' life hlife _ := by
    rw [Env.expire_life httl] at hlife
    rw [Env.expire_count httl]
    exact ⟨hlife, le_rfl⟩

theorem Env.tick_live {d : ℕ} {entry : Redis.Entry}
    (h : e.redis.live (e.now + d) key = some entry) : e.redis.live e.now key = some entry :=
  Redis.Db.live_of_le (le_add_of_nonneg_right (Int.natCast_nonneg d)) h

theorem Env.tick_grows (d : ℕ) : e.Grows { e with now := e.now + d } where
  created _ := le_rfl
  kept key life hlife _ := by
    obtain ⟨⟨entry, hlive⟩, hcreated⟩ := Env.life_eq_some.mp hlife
    have hlive' := Env.tick_live hlive
    refine ⟨Env.life_eq_some.mpr ⟨⟨entry, hlive'⟩, hcreated⟩, ?_⟩
    simp only [Env.count, Redis.Db.count, hlive']
    rw [show Redis.Db.live _ _ _ = _ from hlive]

/-- Only time ends a counter, and none without a time to live. -/
theorem Env.tick_timeless (d : ℕ) (key : String) :
    ({ e with now := e.now + d } : Env).Timeless key ↔ e.Timeless key := by
  constructor
  · rintro ⟨entry, hlive, hexpires⟩
    exact ⟨entry, Env.tick_live hlive, hexpires⟩
  · rintro ⟨entry, hlive, hexpires⟩
    refine ⟨entry, Redis.Db.live_of_lt hlive fun t ht => ?_, hexpires⟩
    rw [hexpires] at ht
    cases ht

theorem Env.Timeless.life (h : e.Timeless key) : e.life key = some (e.created key) := by
  obtain ⟨entry, hlive, -⟩ := h
  exact Env.life_eq_some.mpr ⟨⟨entry, hlive⟩, rfl⟩

end Env

/-! ## Statements -/

section Exec

variable {e e' : Env} {st : Stmt} {fate : Fate}

/-- A statement leaves the environment, increases a counter, or sets its time to live. -/
theorem exec_cases (st : Stmt) (fate : Fate) (e : Env) : (exec st fate e).2 = e ∨
    (∃ key n e', st = .incr key ∧ e.incr key = some (n, e') ∧ (exec st fate e).2 = e') ∨
    ∃ key ttl, st = .expire key ttl ∧ (exec st fate e).2 = e.expire key ttl := by
  cases st with
  | enter => exact .inl rfl
  | ttl key => rcases fate with _ | took | took <;> simp [exec, Fate.answer]
  | expire key ttl =>
    rcases fate with _ | took | took
    · exact .inr (.inr ⟨key, ttl, rfl, rfl⟩)
    all_goals
      cases took
      · exact .inl rfl
      · exact .inr (.inr ⟨key, ttl, rfl, rfl⟩)
  | incr key =>
    cases hincr : e.incr key with
    | none => rcases fate with _ | took | took <;> simp [exec, Fate.answer, hincr]
    | some counted =>
      obtain ⟨n, e'⟩ := counted
      rcases fate with _ | took | took
      · exact .inr (.inl ⟨key, n, e', rfl, hincr, by simp [exec, Fate.answer, hincr]⟩)
      all_goals
        cases took
        · exact .inl (by simp [exec, Fate.answer, hincr])
        · exact .inr (.inl ⟨key, n, e', rfl, hincr, by simp [exec, Fate.answer, hincr]⟩)

/-- An error of a command that cannot fail by itself is its fate. -/
theorem Fate.of_failed {A : Type} {a : A} (h : (fate.answer e (some (a, e'))).1 = .failed) :
    ∃ took, fate = .failed took := by
  rcases fate with _ | took | took
  · cases h
  · exact ⟨took, rfl⟩
  · cases h

theorem Fate.of_done {A : Type} {a b : A} (h : (fate.answer e (some (a, e'))).1 = .done b) :
    fate = .done := by
  rcases fate with _ | took | took
  · rfl
  · cases h
  · cases h

theorem exec_incr_done {key : String} {n : ℤ} (h : e.incr key = some (n, e')) :
    exec (.incr key) .done e = (.done n, e') := by simp [exec, Fate.answer, h]

/-- An answer to `INCR` is its number. -/
theorem incr_of_exec {key : String} {n : ℤ} (h : exec (.incr key) fate e = (.done n, e')) :
    e.incr key = some (n, e') := by
  cases hincr : e.incr key with
  | none => rcases fate with _ | took | took <;> simp [exec, Fate.answer, hincr] at h
  | some counted =>
    rcases fate with _ | took | took <;> simp [exec, Fate.answer, hincr] at h
    obtain ⟨hn, he⟩ := h
    rw [← hn, ← he]

end Exec

end Rate

/-! ## Numbers on counters -/

variable {s t : State (rateMachine g)} {a : Act (rateMachine g)} {i j : ℕ} {key : String} {n : ℤ}
  {life : ℕ}

/-- The request has a number on a counter of a key. -/
def Ranked (s : State (rateMachine g)) (i : ℕ) (key : String) (n : ℤ) (life : ℕ) : Prop :=
  ∃ e e' : Env, s.Issued i ⟨.incr key, e, .done n⟩ ∧ e.incr key = some (n, e') ∧
    e'.life key = some life

/-- A number that is new, or was there. -/
theorem Ranked.of_next (hn : next s a = some t) (h : Ranked t i key n life) :
    Ranked s i key n life ∨
      (∃ fate, a = .run i fate) ∧ s.env.incr key = some (n, t.env) ∧ t.env.life key = some life := by
  obtain ⟨e, e', hissued, hincr, hlife⟩ := h
  rcases Issued.of_next hn hissued with hold | ⟨fate, loc, loc', rfl, rfl, hexec⟩
  · exact .inl ⟨e, e', hold, hincr, hlife⟩
  · obtain ⟨hreply, henv⟩ := Prod.mk.inj (Option.some.inj hexec)
    have hnew := incr_of_exec (Prod.ext hreply (Prod.mk.inj henv).1)
    obtain ⟨-, rfl⟩ := Prod.mk.inj (Option.some.inj (hincr.symm.trans hnew))
    exact .inr ⟨⟨fate, rfl⟩, hnew, hlife⟩

/-- A request keeps its number. -/
theorem Ranked.next (h : Ranked s i key n life) (hn : Concurrency.next s a = some t) :
    Ranked t i key n life := by
  obtain ⟨e, e', ⟨c, hc, hev⟩, hincr, hlife⟩ := h
  obtain ⟨c', hc', -, hlog⟩ := State.call_next hn hc
  exact ⟨e, e', ⟨c', hc', hlog.subset hev⟩, hincr, hlife⟩

/-! ## Stages -/

section Stages

variable {req : Incoming} {st : Stmt} {k : Reply st → Run Outcome} {e : Env} {fate : Fate}

theorem Stage.window_pos {ttl : ℤ} {k : Reply (.expire key ttl) → Run Outcome}
    (h : Stage g req (.call (.expire key ttl) k)) : 0 < ttl := by
  cases h
  exact g.window_pos _

theorem Stage.expire_iff {limiter : Limiter} {value : String} {ttl : ℤ}
    {k : Reply (.expire (counterKey limiter value) ttl) → Run Outcome}
    (h : Stage g req (.call (.expire (counterKey limiter value) ttl) k)) :
    ttl = g.window limiter := by
  generalize hkey : counterKey limiter value = key at k h
  cases h
  obtain ⟨rfl, -⟩ := counterKey_inj hkey
  rfl

theorem verdict_head {limiter : Limiter} {value : String} {count : ℤ} {ttl : ℤ} :
    (g.verdict limiter value req count).head ≠ some (.expire key ttl) := by
  unfold RateConfig.verdict
  split <;> rintro ⟨⟩

/-- The time to live is set next after the first request was counted. -/
theorem Stage.next_expiring {ttl : ℤ} (h : Stage g req (.call st k))
    (hhead : (k (exec st fate e).1).head = some (.expire key ttl)) :
    st = .incr key ∧ ∃ e', e.incr key = some (1, e') ∧ exec (.incr key) fate e = (.done 1, e') := by
  cases h with
  | entering =>
    simp only [RateConfig.limit, RateConfig.check] at hhead
    split at hhead
    · cases hhead
    · cases hhead
    · split at hhead <;> cases hhead
  | @counting limiter value hcounts =>
    obtain ⟨r, e', hexec⟩ : ∃ r e', exec (.incr (counterKey limiter value)) fate e = (r, e') :=
      ⟨_, _, rfl⟩
    rw [hexec] at hhead
    rcases r with count | _ | _
    · simp only [RateConfig.afterIncr] at hhead
      split at hhead
      · next hone =>
        subst hone
        cases hhead
        exact ⟨rfl, e', incr_of_exec hexec, hexec⟩
      · exact absurd hhead verdict_head
    · cases hhead
    · cases hhead
  | expiring hcounts =>
    revert hhead
    rcases (exec _ fate e).1 with _ | _ | _ <;> intro hhead
    · exact absurd hhead verdict_head
    · cases hhead
    · cases hhead
  | deciding hcounts =>
    revert hhead
    rcases (exec _ fate e).1 with _ | _ | _ <;> intro hhead <;> cases hhead

theorem next_eq_handled : g.next req = .handled ↔ g.validate req = true := by
  unfold RateConfig.next
  split
  · next h => simp [h]
  · next h => simp [h]

theorem verdict_handled {limiter : Limiter} {value : String} {count : ℤ}
    (h : (g.verdict limiter value req count).result = some .handled) :
    count ≤ g.max limiter ∧ g.validate req = true := by
  unfold RateConfig.verdict at h
  split at h
  · cases h
  · next hle => exact ⟨not_lt.mp hle, next_eq_handled.mp (Option.some.inj h)⟩

/-- **A request is handled** after it was counted within the limit, or after the time to live of
its counter was set. -/
theorem Stage.next_handled (h : Stage g req (.call st k)) (hnames : NamesSerial g req)
    (hdisabled : g.disabled = false) (hnumbers : e.Numbers) (hharmless : Harmless g req e st fate)
    (hhandled : (k (exec st fate e).1).result = some .handled) :
    ∃ limiter value, req.limitedBy = some (limiter, value) ∧
      ((∃ (n : ℤ) (e' : Env), n ≤ g.max limiter ∧ st = .incr (counterKey limiter value) ∧
          exec (.incr (counterKey limiter value)) fate e = (.done n, e')) ∨
        st = .expire (counterKey limiter value) (g.window limiter) ∧
          (exec st fate e).2 = e.expire (counterKey limiter value) (g.window limiter)) := by
  have hkey : ∀ {limiter value}, counts req = .under limiter value → g.validate req = true →
      req.limitedBy = some (limiter, value) := by
    intro limiter value hcounts hvalid
    obtain ⟨limiter', value', hcounts', hlimited⟩ := counts_of_valid hnames hvalid
    cases hcounts.symm.trans hcounts'
    exact hlimited
  cases h with
  | entering =>
    simp only [RateConfig.limit, RateConfig.check, hdisabled, Bool.false_eq_true, if_false]
      at hhandled
    split at hhandled
    · next hskip =>
      obtain ⟨_, _, hcounts, -⟩ :=
        counts_of_valid hnames (next_eq_handled.mp (Option.some.inj hhandled))
      cases hskip.symm.trans hcounts
    · cases hhandled
    · cases hhandled
  | @counting limiter value hcounts =>
    obtain ⟨r, e', hexec⟩ : ∃ r e', exec (.incr (counterKey limiter value)) fate e = (r, e') :=
      ⟨_, _, rfl⟩
    rw [hexec] at hhandled
    rcases r with count | _ | _
    · simp only [RateConfig.afterIncr] at hhandled
      split at hhandled
      · cases hhandled
      · obtain ⟨hle, hvalid⟩ := verdict_handled hhandled
        exact ⟨limiter, value, hkey hcounts hvalid, .inl ⟨count, e', hle, rfl, hexec⟩⟩
    · -- an error lets the request pass, but it is not valid
      have hvalid := next_eq_handled.mp (Option.some.inj hhandled)
      obtain ⟨n, e'', hincr⟩ := hnumbers.incr limiter value
      have hfailed : (exec (.incr (counterKey limiter value)) fate e).1 = .failed := by rw [hexec]
      rw [exec, hincr] at hfailed
      obtain ⟨took, rfl⟩ := Fate.of_failed hfailed
      rw [hharmless.1] at hvalid
      cases hvalid
    · cases hhandled
  | @expiring limiter value hcounts =>
    obtain ⟨r, hr⟩ : ∃ r, (exec (.expire (counterKey limiter value) (g.window limiter)) fate e).1 =
      r := ⟨_, rfl⟩
    rw [hr] at hhandled
    rcases r with _ | _ | _
    · obtain rfl := Fate.of_done hr
      exact ⟨limiter, value, hkey hcounts (verdict_handled hhandled).2, .inr ⟨rfl, rfl⟩⟩
    · obtain ⟨took, rfl⟩ := Fate.of_failed hr
      obtain rfl : took = true := hharmless
      have hvalid := next_eq_handled.mp (Option.some.inj hhandled)
      exact ⟨limiter, value, hkey hcounts hvalid, .inr ⟨rfl, rfl⟩⟩
    · cases hhandled
  | @deciding limiter value hcounts =>
    obtain ⟨r, hr⟩ : ∃ r, (exec (.ttl (counterKey limiter value)) fate e).1 = r := ⟨_, rfl⟩
    rw [hr] at hhandled
    rcases r with _ | _ | _
    · cases hhandled
    · obtain ⟨took, rfl⟩ := Fate.of_failed hr
      have hvalid := next_eq_handled.mp (Option.some.inj hhandled)
      rw [show g.validate req = false from hharmless] at hvalid
      cases hvalid
    · cases hhandled

/-- Only the counters of limiters are increased. -/
theorem Stage.counterKey_of_incr {k : Reply (.incr key) → Run Outcome}
    (h : Stage g req (.call (.incr key) k)) : ∃ limiter value, key = counterKey limiter value := by
  cases h
  exact ⟨_, _, rfl⟩

/-- After a first request was counted, the time to live is set. -/
theorem Stage.head_of_one {k : Reply (.incr key) → Run Outcome}
    (h : Stage g req (.call (.incr key) k)) :
    ∃ ttl, (k (.done 1)).head = some (.expire key ttl) := by
  cases h
  exact ⟨_, rfl⟩

theorem Stage.numbers (h : Stage g req (.call st k)) (he : e.Numbers) :
    (exec st fate e).2.Numbers := by
  rcases exec_cases st fate e with heq | ⟨key, n, e', rfl, hincr, heq⟩ | ⟨key, ttl, -, heq⟩
  · rw [heq]
    exact he
  · obtain ⟨limiter, value, rfl⟩ := h.counterKey_of_incr
    rw [heq]
    exact he.counts (Env.counts_of_incr hincr)
  · rw [heq]
    exact he.expire key ttl

/-- A counter without a time to live stays so, until it is set. -/
theorem Stage.timeless (h : Stage g req (.call st k)) (hst : ∀ ttl, st ≠ .expire key ttl)
    (htimeless : e.Timeless key) :
    (exec st fate e).2.Timeless key ∧ (exec st fate e).2.created key = e.created key := by
  rcases exec_cases st fate e with heq | ⟨key', n, e', rfl, hincr, heq⟩ | ⟨key', ttl, rfl, heq⟩
  · rw [heq]
    exact ⟨htimeless, rfl⟩
  · have hcounts := Env.counts_of_incr hincr
    rw [heq]
    by_cases hkey : key = key'
    · subst hkey
      have hlife := htimeless.life
      exact ⟨(hcounts.timeless_iff hlife key).mpr htimeless, by rw [hcounts.created_of_some hlife]⟩
    · exact ⟨(hcounts.timeless_of_ne hkey).mpr htimeless, hcounts.created_of_ne hkey⟩
  · rw [heq]
    refine ⟨(Env.expire_timeless h.window_pos key).mpr ⟨?_, htimeless⟩, rfl⟩
    rintro rfl
    exact hst ttl rfl

/-- A counter without a time to live was so, or it is created with an answer. -/
theorem Stage.of_timeless (h : Stage g req (.call st k)) (he : e.Numbers)
    (hharmless : Harmless g req e st fate) (htimeless : (exec st fate e).2.Timeless key) :
    e.Timeless key ∧ (∀ ttl, st ≠ .expire key ttl) ∨
      ∃ ttl, (k (exec st fate e).1).head = some (.expire key ttl) := by
  cases h with
  | entering => exact .inl ⟨htimeless, by rintro ttl ⟨⟩⟩
  | @counting limiter value hcounts =>
    obtain ⟨n, e', hincr⟩ := he.incr limiter value
    have hstep := Env.counts_of_incr hincr
    have heffect : (exec (.incr (counterKey limiter value)) fate e).2 = e ∨
        (exec (.incr (counterKey limiter value)) fate e).2 = e' := by
      rcases fate with _ | took | took
      · exact .inr (by rw [exec_incr_done hincr])
      all_goals cases took <;> simp [exec, Fate.answer, hincr]
    by_cases hold : e.Timeless key
    · exact .inl ⟨hold, by rintro ttl ⟨⟩⟩
    -- the counter is new, so that the answer is 1
    refine .inr ?_
    rcases heffect with heq | heq
    · rw [heq] at htimeless
      exact absurd htimeless hold
    obtain rfl : key = counterKey limiter value := by
      by_contra hne
      rw [heq] at htimeless
      exact hold ((hstep.timeless_of_ne hne).mp htimeless)
    have hlife : e.life (counterKey limiter value) = none := by
      refine Option.eq_none_iff_forall_ne_some.mpr fun life hlife => ?_
      rw [heq] at htimeless
      exact hold ((hstep.timeless_iff hlife _).mp htimeless)
    have htook : ∀ took, (took = true → (e.life (counterKey limiter value)).isSome) →
        took = false := by
      intro took himp
      cases took with
      | false => rfl
      | true => rw [hlife] at himp; cases himp rfl
    rcases fate with _ | took | took
    · obtain rfl : n = 1 := by
        have hnumber := hstep.number
        rcases he.count limiter value with ⟨-, hcount⟩ | ⟨hsome, -⟩
        · omega
        · cases hlife.symm.trans hsome
      rw [exec_incr_done hincr]
      exact ⟨_, rfl⟩
    · obtain rfl := htook took hharmless.2
      simp only [exec, Fate.answer, hincr] at htimeless
      exact absurd htimeless hold
    · obtain rfl := htook took hharmless
      simp only [exec, Fate.answer, hincr] at htimeless
      exact absurd htimeless hold
  | @expiring limiter value hcounts =>
    have heffect : (exec (.expire (counterKey limiter value) (g.window limiter)) fate e).2 =
        e.expire (counterKey limiter value) (g.window limiter) := by
      rcases fate with _ | took | took
      · rfl
      all_goals
        obtain rfl : took = true := hharmless
        rfl
    rw [heffect, Env.expire_timeless (g.window_pos limiter)] at htimeless
    refine .inl ⟨htimeless.2, ?_⟩
    rintro ttl heq
    cases heq
    exact htimeless.1 rfl
  | deciding hcounts =>
    refine .inl ⟨?_, by rintro ttl ⟨⟩⟩
    rcases fate with _ | took | took
    · exact htimeless
    all_goals cases took <;> exact htimeless

end Stages

/-- Every step only creates and increases counters. -/
theorem grows_of_next (hstages : ∀ i c, s.call i = some c → Stage g c.request c.rest)
    (hn : next s a = some t) : s.env.Grows t.env := by
  obtain ⟨i, q, rfl, -, rfl⟩ | ⟨i, fate, q, st, k, loc, log, r, env, loc', rfl, hi, he, rfl⟩ |
    ⟨d, env, rfl, hd, rfl⟩ := next_cases hn
  · exact .refl _
  · obtain ⟨-, henv⟩ := Prod.mk.inj (Option.some.inj he)
    obtain ⟨rfl, -⟩ := Prod.mk.inj henv
    rcases exec_cases st fate s.env with heq | ⟨key, n, e', -, hincr, heq⟩ | ⟨key, ttl, rfl, heq⟩
    · exact heq.symm ▸ .refl _
    · exact heq.symm ▸ (Env.counts_of_incr hincr).grows
    · exact heq.symm ▸ Env.expire_grows (hstages i _ hi).window_pos
  · cases hd
    exact Env.tick_grows d

/-! ## The invariant -/

/-- **The invariant.** The requests that were counted have different numbers on each counter, and a
counter without a time to live was created by a request that sets it next. -/
structure RatesKept (g : RateConfig) (s : State (rateMachine g)) : Prop where
  numbers : s.env.Numbers
  stages : ∀ i c, s.call i = some c → Stage g c.request c.rest
  names : ∀ i c, s.call i = some c → NamesSerial g c.request
  ranks : ∀ i limiter value n life, Ranked s i (counterKey limiter value) n life →
    1 ≤ n ∧ life ≤ s.env.created (counterKey limiter value) ∧
      (s.env.life (counterKey limiter value) = some life →
        n ≤ s.env.count (counterKey limiter value))
  apart : ∀ i j limiter value n life, Ranked s i (counterKey limiter value) n life →
    Ranked s j (counterKey limiter value) n life → i = j
  pending : ∀ i c limiter value ttl, s.call i = some c →
    c.rest.head = some (.expire (counterKey limiter value) ttl) →
      s.env.Timeless (counterKey limiter value) ∧
        Ranked s i (counterKey limiter value) 1 (s.env.created (counterKey limiter value))
  timed : ∀ limiter value, s.env.Timeless (counterKey limiter value) → ∃ i c ttl,
    s.call i = some c ∧ c.rest.head = some (.expire (counterKey limiter value) ttl)
  handled : ∀ i c, s.call i = some c → c.rest.result = some .handled →
    ∃ limiter value n life, c.request.limitedBy = some (limiter, value) ∧
      Ranked s i (counterKey limiter value) n life ∧ n ≤ g.max limiter ∧
        c.loc (counterKey limiter value) = some life

namespace RatesKept

theorem start {e : Env} (h : ∀ limiter value, e.redis.entries (counterKey limiter value) = none) :
    RatesKept g ⟨e, ∅⟩ where
  numbers limiter value entry hentry := by
    rw [h] at hentry
    cases hentry
  stages i c hc := by cases hc
  names i c hc := by cases hc
  ranks i limiter value n life hranked := by
    obtain ⟨_, _, ⟨c, hc, -⟩, -⟩ := hranked
    cases hc
  apart i j limiter value n life hranked := by
    obtain ⟨_, _, ⟨c, hc, -⟩, -⟩ := hranked
    cases hc
  pending i c limiter value ttl hc := by cases hc
  timed limiter value htimeless := by
    obtain ⟨entry, hlive, -⟩ := htimeless
    have hentry := (Option.filter_eq_some_iff.mp hlive).1
    rw [h] at hentry
    cases hentry
  handled i c hc := by cases hc

variable {limiter : Limiter} {value : String} (h : RatesKept g s)
include h

theorem ranks_next (hn : next s a = some t) (hranked : Ranked t i (counterKey limiter value) n life) :
    1 ≤ n ∧ life ≤ t.env.created (counterKey limiter value) ∧
      (t.env.life (counterKey limiter value) = some life →
        n ≤ t.env.count (counterKey limiter value)) := by
  have hgrows := grows_of_next h.stages hn
  rcases hranked.of_next hn with hold | ⟨-, hincr, hlife⟩
  · obtain ⟨hpos, hle, hcount⟩ := h.ranks _ _ _ _ _ hold
    refine ⟨hpos, hle.trans (hgrows.created _), fun hlife => ?_⟩
    obtain ⟨hlife, hcounts⟩ := hgrows.kept _ _ hlife hle
    exact (hcount hlife).trans hcounts
  · have hcounts := Env.counts_of_incr hincr
    have hnumber := hcounts.number
    have hcount := h.numbers.count limiter value
    exact ⟨by omega, (Env.life_eq_some.mp hlife).2.ge, fun _ => hcounts.count.ge⟩

/-- The number of the request that is counted is larger than those before it. -/
theorem not_ranked_of_incr {e' : Env} (hincr : s.env.incr (counterKey limiter value) = some (n, e'))
    (hlife : e'.life (counterKey limiter value) = some life) :
    ¬ Ranked s i (counterKey limiter value) n life := by
  intro hranked
  have hcounts := Env.counts_of_incr hincr
  have hnumber := hcounts.number
  obtain ⟨-, hle, hcount⟩ := h.ranks _ _ _ _ _ hranked
  rw [hcounts.life] at hlife
  obtain rfl := Option.some.inj hlife
  rcases h.numbers.count limiter value with ⟨hnone, -⟩ | ⟨hsome, -⟩
  · rw [hcounts.created_of_none hnone, Function.update_self] at hle
    omega
  · rw [hcounts.created_of_some hsome] at hcount
    have hle' := hcount hsome
    omega

theorem apart_next (hn : next s a = some t) (hi : Ranked t i (counterKey limiter value) n life)
    (hj : Ranked t j (counterKey limiter value) n life) : i = j := by
  rcases hi.of_next hn with hi | ⟨⟨fate, rfl⟩, hincr, hlife⟩
  · rcases hj.of_next hn with hj | ⟨-, hincr, hlife⟩
    · exact h.apart _ _ _ _ _ _ hi hj
    · exact absurd hi (h.not_ranked_of_incr hincr hlife)
  · rcases hj.of_next hn with hj | ⟨⟨fate', heq⟩, -, -⟩
    · exact absurd hj (h.not_ranked_of_incr hincr hlife)
    · exact (Act.run.inj heq).1

/-- One request sets the time to live of a counter. -/
theorem pending_eq {c c' : Call (rateMachine g)} {ttl ttl' : ℤ} (hi : s.call i = some c)
    (hj : s.call j = some c') (hc : c.rest.head = some (.expire (counterKey limiter value) ttl))
    (hc' : c'.rest.head = some (.expire (counterKey limiter value) ttl')) : i = j :=
  h.apart _ _ _ _ _ _ (h.pending _ _ _ _ _ hi hc).2 (h.pending _ _ _ _ _ hj hc').2

/-- A request that comes. -/
theorem spawn {req : Incoming} (hi : s.call i = none) (hnames : NamesSerial g req)
    (hn : next s (.spawn i req) = some (s.put i ⟨req, g.program req, fun _ => none, []⟩)) :
    RatesKept g (s.put i ⟨req, g.program req, fun _ => none, []⟩) where
  numbers := h.numbers
  stages j c hj := by
    rw [State.call_put] at hj
    split at hj
    · cases hj
      exact .entering
    · exact h.stages j c hj
  names j c hj := by
    rw [State.call_put] at hj
    split at hj
    · cases hj
      exact hnames
    · exact h.names j c hj
  ranks _ _ _ _ _ := h.ranks_next hn
  apart _ _ _ _ _ _ := h.apart_next hn
  pending j c limiter value ttl hj hhead := by
    rw [State.call_put] at hj
    split at hj
    · cases hj
      cases hhead
    · obtain ⟨htimeless, hranked⟩ := h.pending _ _ _ _ _ hj hhead
      exact ⟨htimeless, hranked.next hn⟩
  timed limiter value htimeless := by
    obtain ⟨j, c, ttl, hj, hhead⟩ := h.timed _ _ htimeless
    have hji : j ≠ i := by
      rintro rfl
      rw [hi] at hj
      cases hj
    exact ⟨j, c, ttl, by rw [State.call_put_of_ne _ _ hji, hj], hhead⟩
  handled j c hj hhandled := by
    rw [State.call_put] at hj
    split at hj
    · cases hj
      cases hhandled
    · obtain ⟨limiter, value, n, life, hlimited, hranked, hle, hloc⟩ := h.handled _ _ hj hhandled
      exact ⟨limiter, value, n, life, hlimited, hranked.next hn, hle, hloc⟩

/-- A command. -/
theorem run (hdisabled : g.disabled = false) {fate : Fate} {req : Incoming} {st : Stmt}
    {k : Reply st → Run Outcome} {loc : String → Option ℕ} {log : List (Event rateWorld)}
    (hi : s.call i = some ⟨req, .call st k, loc, log⟩) (hharmless : Harmless g req s.env st fate)
    (hn : next s (.run i fate) = some t)
    (ht : t = ({ s with env := (exec st fate s.env).2 }).put i ⟨req, k (exec st fate s.env).1,
      (exec st fate s.env).2.life, log ++ [Event.mk st s.env (exec st fate s.env).1]⟩) :
    RatesKept g t := by
  have hstage : Stage g req (.call st k) := h.stages i _ hi
  have hnames : NamesSerial g req := h.names i _ hi
  have henv : t.env = (exec st fate s.env).2 := by rw [ht]; rfl
  have hself : t.call i = some ⟨req, k (exec st fate s.env).1, (exec st fate s.env).2.life,
      log ++ [Event.mk st s.env (exec st fate s.env).1]⟩ := by
    rw [ht]
    exact State.call_put_self _ _ _
  have hother : ∀ {j}, j ≠ i → t.call j = s.call j := by
    intro j hji
    rw [ht]
    exact State.call_put_of_ne _ _ hji
  have hnew : ∀ {key n e'}, st = .incr key → exec (.incr key) fate s.env = (.done n, e') →
      Ranked t i key n (e'.created key) := by
    rintro key n e' rfl hexec
    have hincr := incr_of_exec hexec
    refine ⟨s.env, e', ⟨_, hself, ?_⟩, hincr, (Env.counts_of_incr hincr).life⟩
    rw [hexec]
    exact List.mem_append_right _ (List.mem_singleton_self _)
  refine ⟨?_, ?_, ?_, fun _ _ _ _ _ => h.ranks_next hn, fun _ _ _ _ _ _ => h.apart_next hn,
    ?_, ?_, ?_⟩
  · rw [henv]
    exact hstage.numbers h.numbers
  · intro j c hj
    by_cases hji : j = i
    · subst hji
      obtain rfl := Option.some.inj (hself.symm.trans hj)
      exact hstage.next hdisabled _
    · exact h.stages j c (hother hji ▸ hj)
  · intro j c hj
    by_cases hji : j = i
    · subst hji
      obtain rfl := Option.some.inj (hself.symm.trans hj)
      exact hnames
    · exact h.names j c (hother hji ▸ hj)
  · intro j c limiter value ttl hj hhead
    by_cases hji : j = i
    · subst hji
      obtain rfl := Option.some.inj (hself.symm.trans hj)
      obtain ⟨rfl, e', hincr, hexec⟩ := hstage.next_expiring hhead
      have hcounts := Env.counts_of_incr hincr
      have hnone : s.env.life (counterKey limiter value) = none := by
        have hnumber := hcounts.number
        rcases h.numbers.count limiter value with ⟨hnone, -⟩ | ⟨-, hcount⟩
        · exact hnone
        · omega
      have hcreated := hnew rfl hexec
      rw [henv, hexec]
      exact ⟨hcounts.timeless_of_none hnone, hcreated⟩
    · have hj' := hother hji ▸ hj
      obtain ⟨htimeless, hranked⟩ := h.pending j c limiter value ttl hj' hhead
      have hst : ∀ ttl, st ≠ .expire (counterKey limiter value) ttl := by
        rintro ttl rfl
        exact hji (h.pending_eq hj' hi hhead rfl)
      obtain ⟨hkept, hcreated⟩ := @Stage.timeless _ _ _ _ _ _ fate hstage hst htimeless
      rw [henv, hcreated]
      exact ⟨hkept, hranked.next hn⟩
  · intro limiter value htimeless
    rw [henv] at htimeless
    rcases hstage.of_timeless h.numbers hharmless htimeless with ⟨hold, hst⟩ | ⟨ttl, hhead⟩
    · obtain ⟨j, c, ttl, hj, hhead⟩ := h.timed limiter value hold
      have hji : j ≠ i := by
        rintro rfl
        obtain rfl := Option.some.inj (hi.symm.trans hj)
        exact hst ttl (Option.some.inj hhead)
      exact ⟨j, c, ttl, by rw [hother hji, hj], hhead⟩
    · exact ⟨i, _, ttl, hself, hhead⟩
  · intro j c hj hhandled
    by_cases hji : j = i
    · subst hji
      obtain rfl := Option.some.inj (hself.symm.trans hj)
      obtain ⟨limiter, value, hlimited, hway⟩ := hstage.next_handled hnames hdisabled h.numbers
        hharmless hhandled
      rcases hway with ⟨n, e', hle, rfl, hexec⟩ | ⟨rfl, heffect⟩
      · refine ⟨limiter, value, n, _, hlimited, hnew rfl hexec, hle, ?_⟩
        change (exec _ fate s.env).2.life _ = _
        rw [hexec]
        exact (Env.counts_of_incr (incr_of_exec hexec)).life
      · -- the time to live was set by the request that created the counter
        obtain ⟨htimeless, hranked⟩ := h.pending j _ limiter value _ hi rfl
        refine ⟨limiter, value, 1, _, hlimited, hranked.next hn, ?_, ?_⟩
        · exact_mod_cast g.max_pos limiter
        · change (exec _ fate s.env).2.life _ = _
          rw [heffect, Env.expire_life hstage.window_pos]
          exact htimeless.life
    · obtain ⟨limiter, value, n, life, hlimited, hranked, hle, hloc⟩ :=
        h.handled j c (hother hji ▸ hj) hhandled
      exact ⟨limiter, value, n, life, hlimited, hranked.next hn, hle, hloc⟩

/-- Time passes. -/
theorem tick {d : ℕ}
    (hn : next s (.tick d) = some { s with env := { s.env with now := s.env.now + d } }) :
    RatesKept g { s with env := { s.env with now := s.env.now + d } } where
  numbers := h.numbers
  stages := h.stages
  names := h.names
  ranks _ _ _ _ _ := h.ranks_next hn
  apart _ _ _ _ _ _ := h.apart_next hn
  pending j c limiter value ttl hj hhead := by
    obtain ⟨htimeless, hranked⟩ := h.pending _ _ _ _ _ hj hhead
    exact ⟨(Env.tick_timeless d _).mpr htimeless, hranked.next hn⟩
  timed limiter value htimeless := h.timed _ _ ((Env.tick_timeless d _).mp htimeless)
  handled j c hj hhandled := by
    obtain ⟨limiter, value, n, life, hlimited, hranked, hle, hloc⟩ := h.handled _ _ hj hhandled
    exact ⟨limiter, value, n, life, hlimited, hranked.next hn, hle, hloc⟩

/-- **The invariant is kept** by every step that meets its condition. -/
theorem next (hdisabled : g.disabled = false) (hmeets : MeetsAct s a)
    (hn : Concurrency.next s a = some t) : RatesKept g t := by
  obtain ⟨i, req, rfl, hi, rfl⟩ | ⟨i, fate, req, st, k, loc, log, r, env, loc', rfl, hi, he, rfl⟩ |
    ⟨d, env, rfl, hd, rfl⟩ := next_cases hn
  · exact h.spawn hi hmeets hn
  · obtain ⟨rfl, henv⟩ := Prod.mk.inj (Option.some.inj he)
    obtain ⟨rfl, rfl⟩ := Prod.mk.inj henv
    exact h.run hdisabled hi (hmeets _ st hi rfl) hn rfl
  · cases hd
    exact h.tick hn

/-- **The invariant is what the limits need.** -/
theorem limits : RateLimits g s where
  bounded limiter value life := by
    -- the requests that are handled have different numbers, from 1 to the maximum
    have hnumber : ∀ i ∈ s.ids (@handledIn g limiter value life), ∃ n : ℤ,
        Ranked s i (counterKey limiter value) n life ∧ 1 ≤ n ∧ n ≤ g.max limiter := by
      intro i hi
      obtain ⟨c, hc, hhandled, hlimited, hloc⟩ := State.mem_ids.mp hi
      obtain ⟨limiter', value', n, life', hlimited', hranked, hle, hloc'⟩ :=
        h.handled i c hc hhandled
      cases hlimited.symm.trans hlimited'
      cases hloc.symm.trans hloc'
      exact ⟨n, hranked, (h.ranks _ _ _ _ _ hranked).1, hle⟩
    choose! number hranked hone hmax using hnumber
    calc (s.ids (@handledIn g limiter value life)).card
        ≤ (Finset.Icc 1 (g.max limiter)).card :=
          Finset.card_le_card_of_injOn (fun i => (number i).toNat) ?_ ?_
      _ = g.max limiter := by simp
    · intro i hi
      have hone := hone i hi
      have hmax := hmax i hi
      simp only [Finset.coe_Icc, Set.mem_Icc]
      omega
    · intro i hi j hj heq
      have honei := hone i hi
      have honej := hone j hj
      have hsame : number i = number j := by
        simp only at heq
        omega
      exact h.apart i j limiter value _ life (hranked i hi) (hsame ▸ hranked j hj)
  counted i c hc hhandled := by
    obtain ⟨limiter, value, n, life, hlimited, ⟨e, _, hissued, -, -⟩, -⟩ := h.handled i c hc hhandled
    exact ⟨limiter, value, e, n, hlimited, hissued⟩
  timed limiter value entry hlive hexpires := by
    obtain ⟨i, c, ttl, hc, hhead⟩ := h.timed limiter value ⟨entry, hlive, hexpires⟩
    refine ⟨i, c, hc, ?_⟩
    rw [hhead]
    have hstage := h.stages i c hc
    obtain ⟨req, rest, loc, log⟩ := c
    cases rest with
    | ret a => cases hhead
    | call st k =>
      cases hhead
      rw [hstage.expire_iff]

end RatesKept

/-! ## Runs -/

/-- **The limits hold** in every run whose steps meet their conditions, from a Redis without
counters. -/
theorem rate_limits_hold (hdisabled : g.disabled = false) {e : Env}
    (hstart : ∀ limiter value, e.redis.entries (counterKey limiter value) = none)
    {acts : List (Act (rateMachine g))} (h : Steps ⟨e, ∅⟩ acts s)
    (hmeets : ∀ n a u v, TakenAt ⟨e, ∅⟩ acts n a u v → MeetsAct u a) : RateLimits g s := by
  suffices hkept : RatesKept g s from hkept.limits
  induction h with
  | nil => exact .start hstart
  | snoc hsteps hn ih =>
    refine (ih fun n a u v htaken => ?_).next hdisabled ?_ hn
    · exact hmeets n a u v (htaken.snoc _)
    · exact hmeets _ _ _ _ (.last hsteps hn)

/-! ## Sample runs -/

section Samples

theorem sampleWindow_pos (_ : Limiter) : (0 : ℤ) < 60 := by decide

theorem sampleMax_pos (_ : Limiter) : 0 < 2 := by decide

theorem sampleEmail_blank (s : String)
    (h : (s.toList.contains '@' && decide (normalizeEmail s ≠ "")) = true) :
    normalizeEmail s ≠ "" := of_decide_eq_true (Bool.and_eq_true_iff.mp h).2

/-- Two requests a minute. -/
def sampleRates : RateConfig where
  disabled := false
  window := fun _ => 60
  max := fun _ => 2
  window_pos := sampleWindow_pos
  max_pos := sampleMax_pos
  isEmail s := s.toList.contains '@' && decide (normalizeEmail s ≠ "")
  isEmail_blank := sampleEmail_blank
  validateByIP _ := true

def sampleRateStart : State (rateMachine sampleRates) := ⟨⟨0, .empty, fun _ => 0⟩, ∅⟩

/-- A request for an authentication. -/
def sampleAs : Incoming := ⟨.asReq, "10.0.0.1", fun _ => .missing, 0⟩

/-- A valid request for a service ticket, as the frontend sends it. -/
def sampleTgs : Incoming where
  route := .tgsReq
  ip := "10.0.0.1"
  body name := match name with
    | "serviceId" => .text "bank-service"
    | "tgtCiphertext" => .text "AAAA"
    | "authenticator" => .text "AAAA"
    | "certSn" => .text "0A1B"
    | "nonce" => .text "AAAAAAAAAAAAAAAAAAAAAA=="
    | "requestedScope" => .text "transfer:create"
    | _ => .missing
  validatedAt := 0

/-- A request is counted, its counter gets its time to live, and it is handled. -/
def countedRun : List (Act (rateMachine sampleRates)) :=
  [.spawn 0 sampleAs, .run 0 .done, .run 0 .done, .run 0 .done]

/-- A request for a service ticket is handled. -/
def uncountedRun : List (Act (rateMachine sampleRates)) := [.spawn 0 sampleTgs, .run 0 .done]

/-- The process dies after it has created a counter. -/
def orphanedRun : List (Act (rateMachine sampleRates)) :=
  [.spawn 0 sampleAs, .run 0 .done, .run 0 .done, .run 0 (.died false)]

theorem meetsAct_countedRun (n : ℕ) (a : Act (rateMachine sampleRates))
    (u v : State (rateMachine sampleRates)) (h : TakenAt sampleRateStart countedRun n a u v) :
    MeetsAct u a := by
  have ha : a ∈ countedRun := List.mem_of_getElem? h.act
  simp only [countedRun, List.mem_cons, List.not_mem_nil, or_false] at ha
  rcases ha with rfl | rfl | rfl | rfl
  · rintro ⟨⟩
  all_goals
    rintro c st - -
    cases st <;> trivial

/-- One of two requests that are allowed is handled. -/
theorem rate_limits_hold_of_countedRun : ∃ s, Steps sampleRateStart countedRun s ∧
    s.result 0 = some .handled ∧ RateLimits sampleRates s := by
  have hruns : (runAll sampleRateStart countedRun).map (fun s => s.result 0) =
      some (some .handled) := by decide +kernel
  obtain ⟨s, hs, hresult⟩ := steps_of_view hruns
  exact ⟨s, hs, hresult, rate_limits_hold rfl (fun _ _ => rfl) hs meetsAct_countedRun⟩

/-- A request for a service ticket is handled uncounted, and a counter lives for ever. -/
theorem rate_limits_fail : (∃ s, Steps sampleRateStart uncountedRun s ∧ ¬ RateLimits sampleRates s) ∧
    ∃ s, Steps sampleRateStart orphanedRun s ∧ ¬ RateLimits sampleRates s := by
  have huncounted : (runAll sampleRateStart uncountedRun).map (fun s => (s.call 0).map fun c =>
      (c.rest.result, c.log.map (·.stmt))) = some (some (some .handled, [.enter])) := by
    decide +kernel
  have horphaned : (runAll sampleRateStart orphanedRun).map (fun s =>
      (s.env.redis.live s.env.now (counterKey .as "10.0.0.1"), s.ids fun c => c.rest.head ≠ none)) =
        some (some ⟨.integer 1, none⟩, ∅) := by decide +kernel
  constructor
  · obtain ⟨s, hs, hview⟩ := steps_of_view huncounted
    refine ⟨s, hs, fun hlimits => ?_⟩
    obtain ⟨c, hc, hview⟩ := Option.map_eq_some_iff.mp hview
    obtain ⟨hresult, hlog⟩ := Prod.mk.inj hview
    obtain ⟨limiter, value, e, n, -, ⟨c', hc', hev⟩⟩ := hlimits.counted 0 c hc hresult
    obtain rfl := Option.some.inj (hc.symm.trans hc')
    have hmem := List.mem_map_of_mem (f := (·.stmt)) hev
    rw [hlog] at hmem
    cases List.mem_singleton.mp hmem
  · obtain ⟨s, hs, hview⟩ := steps_of_view horphaned
    refine ⟨s, hs, fun hlimits => ?_⟩
    obtain ⟨hlive, hids⟩ := Prod.mk.inj hview
    obtain ⟨i, c, hc, hhead⟩ := hlimits.timed .as "10.0.0.1" _ hlive rfl
    have hmem : i ∈ s.ids fun c => c.rest.head ≠ none :=
      State.mem_ids.mpr ⟨c, hc, by rw [hhead]; rintro ⟨⟩⟩
    rw [hids] at hmem
    exact absurd hmem (Finset.notMem_empty i)

end Samples

end Gateway
