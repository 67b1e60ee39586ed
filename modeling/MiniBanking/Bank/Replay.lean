import MiniBanking.Bank.Gate

/-!
# Replays of AP exchanges

A request is marked as seen in Redis, or in `used_nonces` when Redis fails, never in both. So a
ticket and an authenticator pass twice only if the two stores are asked about them in turn, or if
the marker in Redis expires while a call is on its way from the expiry check to Redis.

## Main definitions

* `Markers`: what the stores keep of the markings of a run
* `WithinLifetime`: tickets of five minutes
* `OneStore`, `Prompt`: the runs in which the markers work

## Main results

* `Markers.of_reachable`: the invariant of the two stores
* `replay_safety`: in such runs no ticket and authenticator pass twice
-/

namespace Bank

open Concurrency Go Kerberos Postgres

/-! ## The two stores -/

section Stores

variable {rounding : Rounding} {others : List Conn} {choice : Choice} {e e' : Env} {l l' : Conn}

/-- Entries of the stores are only added. -/
theorem exec_stores {s : Stmt} {r : Reply s}
    (h : exec rounding others s choice e l = some (r, e', l')) :
    e.redis ⊆ e'.redis ∧ e.usedNonces ⊆ e'.usedNonces := by
  obtain rfl | ⟨rfl, -, tx, -, -, rfl⟩ | ⟨hmarks, -⟩ := exec_env h
  · exact ⟨List.Subset.refl _, List.Subset.refl _⟩
  · exact ⟨List.Subset.refl _, List.Subset.refl _⟩
  cases s with
  | insertUsedNonce | createSession =>
    simp only [exec] at h
    split at h
    all_goals
      cases h
      simp
  | setNX key ttl =>
    simp only [exec] at h
    split at h
    · cases h
      simp
    · cases h
      split
      · simp
      · simp [Env.setKey]
  | _ => cases hmarks

/-- Redis reports a key new when it does not have it, and has it from then on. -/
theorem exec_setNX_true {key : String} {ttl : ℤ}
    (h : exec rounding others (.setNX key ttl) choice e l = some (Except.ok true, e', l')) :
    (∀ expires, (key, expires) ∈ e.redis → expires ≤ e.clock.ns) ∧
      (key, e.clock.ns + ttl) ∈ e'.redis := by
  simp only [exec] at h
  split at h
  · cases h
  obtain ⟨hreply, henv⟩ := Prod.mk.inj (Option.some.inj h)
  obtain ⟨rfl, -⟩ := Prod.mk.inj henv
  have hnew : e.hasKey key = false := by
    have hreply : (if choice.lost then (Except.error () : Except Unit Bool)
        else Except.ok (!e.hasKey key)) = Except.ok true := hreply
    split at hreply
    · cases hreply
    · simpa using Except.ok.inj hreply
  constructor
  · intro expires hmem
    by_contra hlt
    have hany : e.hasKey key = true :=
      List.any_eq_true.mpr ⟨_, hmem, by simpa using hlt⟩
    rw [hnew] at hany
    cases hany
  · simp [hnew, Env.setKey]

/-- The database accepts a nonce when it does not have it, and has it from then on. -/
theorem exec_insertUsedNonce_ok {nonce : String} {usedAt : Instant} {expiresAt : ℤ}
    (h : exec rounding others (.insertUsedNonce nonce usedAt expiresAt) choice e l =
      some (Except.ok (), e', l')) : nonce ∉ e.usedNonces ∧ nonce ∈ e'.usedNonces := by
  simp only [exec] at h
  split at h
  · cases h
  · next hnew =>
    obtain ⟨-, henv⟩ := Prod.mk.inj (Option.some.inj h)
    obtain ⟨rfl, -⟩ := Prod.mk.inj henv
    rw [Bool.or_eq_true, not_or, decide_eq_true_eq] at hnew
    exact ⟨hnew.2, by simp⟩

end Stores

/-! ## The markings of a run -/

section Markings

variable {rounding : Rounding} {Request Result : Type} {program : Request → Run Result}

/-- A key was new in Redis. -/
def redisMark (key : String) (ttl : ℤ) (e : Env) : Event (world rounding) :=
  ⟨Stmt.setNX key ttl, e, Except.ok true⟩

/-- A nonce was new in the database. -/
def usedMark (nonce : String) (usedAt : Instant) (expiresAt : ℤ) (e : Env) :
    Event (world rounding) :=
  ⟨Stmt.insertUsedNonce nonce usedAt expiresAt, e, Except.ok ()⟩

/-- What the stores keep of the markings of a run: every marking is still there, of two markings
of one key in Redis the later one finds the earlier one over, and no nonce was new twice in the
database. -/
structure Markers (s : State (machine rounding program)) : Prop where
  redis : ∀ i key ttl e, s.Issued i (redisMark key ttl e) → (key, e.clock.ns + ttl) ∈ s.env.redis
  used : ∀ i nonce usedAt expiresAt e, s.Issued i (usedMark nonce usedAt expiresAt e) →
    nonce ∈ s.env.usedNonces
  apart : ∀ i j key ttl ttl' e e', i ≠ j → s.Issued i (redisMark key ttl e) →
    s.Issued j (redisMark key ttl' e') →
      (key, e.clock.ns + ttl) ∈ e'.redis ∧ e.clock.ns + ttl ≤ e'.clock.ns ∨
      (key, e'.clock.ns + ttl') ∈ e.redis ∧ e'.clock.ns + ttl' ≤ e.clock.ns
  once : ∀ i j nonce usedAt usedAt' expiresAt expiresAt' e e', i ≠ j →
    s.Issued i (usedMark nonce usedAt expiresAt e) →
    ¬ s.Issued j (usedMark nonce usedAt' expiresAt' e')

/-- A step keeps what the stores have. -/
theorem stores_next {s t : State (machine rounding program)} {a : Act (machine rounding program)}
    (hn : next s a = some t) :
    s.env.redis ⊆ t.env.redis ∧ s.env.usedNonces ⊆ t.env.usedNonces := by
  obtain ⟨j, q, rfl, -, rfl⟩ | ⟨j, choice, q, st, k, loc, log, r, env, loc', rfl, -, he, rfl⟩ |
    ⟨m, env, rfl, hm, rfl⟩ := next_cases hn
  · exact ⟨List.Subset.refl _, List.Subset.refl _⟩
  · exact exec_stores he
  · simp only [machine] at hm
    split at hm
    · cases hm
      exact ⟨List.Subset.refl _, List.Subset.refl _⟩
    · cases hm

/-- A marking in Redis is an old one, or this step finds the key new and leaves it there. -/
theorem redisMark_next {s t : State (machine rounding program)}
    {a : Act (machine rounding program)} (hn : next s a = some t) {i : ℕ} {key : String} {ttl : ℤ}
    {e : Env} (h : t.Issued i (redisMark key ttl e)) :
    s.Issued i (redisMark key ttl e) ∨ ∃ choice, a = .run i choice ∧ e = s.env ∧
      (∀ expires, (key, expires) ∈ e.redis → expires ≤ e.clock.ns) ∧
      (key, e.clock.ns + ttl) ∈ t.env.redis := by
  obtain h | ⟨choice, loc, loc', ha, rfl, hx⟩ := Issued.of_next hn h
  · exact .inl h
  · have hx : exec rounding (s.others i) (.setNX key ttl) choice s.env loc =
        some (Except.ok true, t.env, loc') := hx
    exact .inr ⟨choice, ha, rfl, exec_setNX_true hx⟩

/-- A marking in the database is an old one, or this step finds the nonce new and leaves it
there. -/
theorem usedMark_next {s t : State (machine rounding program)}
    {a : Act (machine rounding program)} (hn : next s a = some t) {i : ℕ} {nonce : String}
    {usedAt : Instant} {expiresAt : ℤ} {e : Env}
    (h : t.Issued i (usedMark nonce usedAt expiresAt e)) :
    s.Issued i (usedMark nonce usedAt expiresAt e) ∨ ∃ choice, a = .run i choice ∧ e = s.env ∧
      nonce ∉ e.usedNonces ∧ nonce ∈ t.env.usedNonces := by
  obtain h | ⟨choice, loc, loc', ha, rfl, hx⟩ := Issued.of_next hn h
  · exact .inl h
  · have hx : exec rounding (s.others i) (.insertUsedNonce nonce usedAt expiresAt) choice s.env
        loc = some (Except.ok (), t.env, loc') := hx
    exact .inr ⟨choice, ha, rfl, exec_insertUsedNonce_ok hx⟩

/-- **The stores keep every marking**, in every reachable state. -/
theorem Markers.of_reachable {e₀ : Env} {s : State (machine rounding program)}
    (hs : Reachable (M := machine rounding program) e₀ s) : Markers s := by
  refine hs.induct (P := Markers) ?_ ?_
  · have hnone : ∀ i ev, ¬ (⟨e₀, ∅⟩ : State (machine rounding program)).Issued i ev := by
      rintro i ev ⟨c, hc, -⟩
      cases hc
    exact {
      redis := fun i _ _ _ h => absurd h (hnone i _)
      used := fun i _ _ _ _ h => absurd h (hnone i _)
      apart := fun i _ _ _ _ _ _ _ h => absurd h (hnone i _)
      once := fun i _ _ _ _ _ _ _ _ _ h => absurd h (hnone i _) }
  intro s t a hreach ih hn
  obtain ⟨hredis, hused⟩ := stores_next hn
  -- a step acts for one call, so of two markings of different calls at most one is new
  have hact : ∀ {i j : ℕ} {c c' : Choice}, a = .run i c → a = .run j c' → i = j :=
    fun h h' => (Act.run.inj (h.symm.trans h')).1
  constructor
  · intro i key ttl e h
    obtain h | ⟨choice, -, -, -, hmem⟩ := redisMark_next hn h
    · exact hredis (ih.redis i key ttl e h)
    · exact hmem
  · intro i nonce usedAt expiresAt e h
    obtain h | ⟨choice, -, -, -, hmem⟩ := usedMark_next hn h
    · exact hused (ih.used i nonce usedAt expiresAt e h)
    · exact hmem
  · intro i j key ttl ttl' e e' hij h h'
    obtain h | ⟨choice, ha, rfl, hnew, -⟩ := redisMark_next hn h <;>
      obtain h' | ⟨choice', ha', rfl, hnew', -⟩ := redisMark_next hn h'
    · exact ih.apart i j key ttl ttl' e e' hij h h'
    · have hmem := ih.redis i key ttl e h
      exact .inl ⟨hmem, hnew' _ hmem⟩
    · have hmem := ih.redis j key ttl' e' h'
      exact .inr ⟨hmem, hnew _ hmem⟩
    · exact absurd (hact ha ha') hij
  · intro i j nonce usedAt usedAt' expiresAt expiresAt' e e' hij h h'
    obtain h | ⟨choice, ha, rfl, hnew, -⟩ := usedMark_next hn h <;>
      obtain h' | ⟨choice', ha', rfl, hnew', -⟩ := usedMark_next hn h'
    · exact ih.once i j nonce usedAt usedAt' expiresAt expiresAt' e e' hij h h'
    · exact hnew' (ih.used i nonce usedAt expiresAt e h)
    · exact hnew (ih.used j nonce usedAt' expiresAt' e' h')
    · exact hij (hact ha ha')

end Markings

/-! ## Replays -/

section Replays

variable {h : Handler} {rounding : Rounding}

/-- In the run of `s` every ticket is presented within five minutes before its expiry, as those
of the KDC are. -/
def WithinLifetime (h : Handler) (rounding : Rounding) (s : State (handlerMachine h rounding)) :
    Prop :=
  ∀ i c ticketV authenticator (x : ApExchange), s.call i = some c →
    c.request.presented = some (ticketV, authenticator) → x.Opens h ticketV authenticator →
    x.log rounding <+: c.log → x.ticket.expires.ns ≤ x.first.clock.time.ns + 300 * second

/-- Redis does not fail at a key for one call and find it new for another one. -/
def OneStore (h : Handler) (rounding : Rounding) (s : State (handlerMachine h rounding)) : Prop :=
  ∀ i j key ttl ttl' e e', i ≠ j → s.Issued i (redisMark key ttl e) →
    ¬ s.Issued j ⟨Stmt.setNX key ttl', e', Except.error ()⟩

/-- A call that asks Redis about a key which was there before, and finds it new, asks before its
ticket expires. -/
def Prompt (h : Handler) (rounding : Rounding) (s : State (handlerMachine h rounding)) : Prop :=
  ∀ i c ticketV authenticator (x : ApExchange) key ttl (e : Env), s.call i = some c →
    c.request.presented = some (ticketV, authenticator) → x.Opens h ticketV authenticator →
    redisMark key ttl e ∈ c.log → (∃ expires, (key, expires) ∈ e.redis) →
    e.clock.time.ns < x.ticket.expires.ns

/-- What a call has issued before the marking it has in its log. -/
theorem marked_cases {s : State (handlerMachine h rounding)} {clock : Instant}
    (hs : Reachable (Env.initial clock) s) {i : ℕ} {c : Call (handlerMachine h rounding)}
    (hc : s.call i = some c) (hmarked : Marked c.log) :
    (∃ key e x before, h.hasReplay = true ∧ redisMark key replayTTL e ∈ c.log ∧
      before <+: c.log ∧ Marking h c.request before key e x) ∨
    (∃ nonce usedAt expiresAt e x before, usedMark nonce usedAt expiresAt e ∈ c.log ∧
      (h.hasReplay = true → ∃ e', Event.mk (Stmt.setNX nonce replayTTL) e' (Except.error ()) ∈
        c.log) ∧ before <+: c.log ∧ Marking h c.request before nonce e x) := by
  obtain ⟨⟨st, e, r⟩, hev, hmarks⟩ := hmarked
  obtain ⟨before, after, hlog⟩ := List.append_of_mem hev
  have hle : before <+: c.log := ⟨_, hlog.symm⟩
  obtain ⟨loc, hG⟩ := (handler_kept h rounding).issued_under hs hc hlog
  cases st with
  | setNX key ttl =>
    obtain rfl : r = Except.ok true := hmarks
    obtain ⟨rfl, hreplay, x, hx⟩ := hG
    exact .inl ⟨key, e, x, before, hreplay, hev, hle, hx⟩
  | insertUsedNonce nonce usedAt expiresAt =>
    obtain rfl : r = Except.ok () := hmarks
    obtain ⟨hredis, x, hx⟩ := hG
    refine .inr ⟨nonce, usedAt, expiresAt, e, x, before, hev, fun hr => ?_, hle, hx⟩
    obtain ⟨e', he'⟩ := hredis hr
    exact ⟨e', hle.subset he'⟩
  | _ => exact hmarks.elim

/-- The key of a marking is that of the ticket and the authenticator. -/
theorem Marking.opens {q : ApRequest} {log : Log rounding} {key : String} {e : Env}
    {x : ApExchange} (hm : Marking h q log key e x) {ticketV authenticator : List UInt8}
    (hq : q.presented = some (ticketV, authenticator)) : x.Opens h ticketV authenticator := by
  obtain ⟨ticketV', authenticator', scope, hq', hx⟩ := hm.passed
  rw [hq] at hq'
  cases hq'
  exact hx.toOpens

theorem Marking.key_eq {q q' : ApRequest} {log log' : Log rounding} {key key' : String}
    {e e' : Env} {x x' : ApExchange} (hm : Marking h q log key e x)
    (hm' : Marking h q' log' key' e' x') {presented : List UInt8 × List UInt8}
    (hq : q.presented = some presented) (hq' : q'.presented = some presented) :
    key = key' ∧ x.ticket = x'.ticket := by
  have hx := hm.opens hq
  have hx' := hm'.opens hq'
  have hticket : x.ticket = x'.ticket := Option.some.inj (hx.ticket.symm.trans hx'.ticket)
  have hauthn := hx.authenticator
  rw [hticket, hx'.authenticator] at hauthn
  exact ⟨by rw [hm.key, hm'.key, ApExchange.marker, ApExchange.marker, hticket,
    Option.some.inj hauthn], hticket⟩

/-- A second marking in Redis comes too late for a prompt call: the first one lasts as long as
the ticket. -/
theorem not_later {s : State (handlerMachine h rounding)} (hlifetime : WithinLifetime h rounding s)
    (hprompt : Prompt h rounding s) {i j : ℕ} {c c' : Call (handlerMachine h rounding)}
    (hc : s.call i = some c) (hc' : s.call j = some c') {key : String} {e e' : Env}
    {x x' : ApExchange} {before before' : Log rounding}
    {presented : List UInt8 × List UInt8}
    (hq : c.request.presented = some presented) (hq' : c'.request.presented = some presented)
    (hm : Marking h c.request before key e x) (hm' : Marking h c'.request before' key e' x')
    (hle : before <+: c.log) (hmark' : redisMark key replayTTL e' ∈ c'.log)
    (hfirst : (key, e.clock.ns + replayTTL) ∈ e'.redis) :
    ¬ e.clock.ns + replayTTL ≤ e'.clock.ns := by
  intro hlate
  have hbefore := hprompt j c' _ _ x' key replayTTL e' hc' hq' (hm'.opens hq') hmark' ⟨_, hfirst⟩
  have hlife := hlifetime i c _ _ x hc hq (hm.opens hq) (hm.issued.trans hle)
  have horder : x.first.clock.ns ≤ e.clock.ns := hm.first
  rw [← (hm.key_eq hm' hq hq').2] at hbefore
  rw [ns_time] at hbefore hlife
  rw [replayTTL] at hlate
  rw [second] at hbefore hlife
  omega

/-- Of the calls with one ticket and one authenticator, at most one has passed: its request was
marked. -/
def PassOnce (h : Handler) (rounding : Rounding) (s : State (handlerMachine h rounding)) : Prop :=
  ∀ i j c c' presented, s.call i = some c → s.call j = some c' →
    c.request.presented = some presented → c'.request.presented = some presented →
    Marked c.log → Marked c'.log → i = j

/-- **Replay safety.** In every state that interleaved calls of the handler can reach, if tickets
live five minutes, Redis does not fail at a key that it finds new for another call, and calls ask
Redis about keys it had before their tickets expire, then no ticket and authenticator pass
twice. -/
theorem replay_safety (h : Handler) (rounding : Rounding) (clock : Instant)
    (s : State (handlerMachine h rounding)) (hs : Reachable (Env.initial clock) s)
    (hlifetime : WithinLifetime h rounding s) (hstore : OneStore h rounding s)
    (hprompt : Prompt h rounding s) : PassOnce h rounding s := by
  intro i j c c' presented hc hc' hq hq' hmarked hmarked'
  by_contra hij
  have hmarkers := Markers.of_reachable hs
  obtain ⟨key, e, x, before, hreplay, hmark, hle, hm⟩ |
      ⟨key, usedAt, expiresAt, e, x, before, hmark, hredis, hle, hm⟩ :=
        marked_cases hs hc hmarked <;>
    obtain ⟨key', e', x', before', hreplay', hmark', hle', hm'⟩ |
      ⟨key', usedAt', expiresAt', e', x', before', hmark', hredis', hle', hm'⟩ :=
        marked_cases hs hc' hmarked' <;>
    obtain ⟨rfl, -⟩ := hm.key_eq hm' hq hq'
  · -- both in Redis: the later one came after the ticket of the earlier one expired
    obtain ⟨hmem, hlate⟩ | ⟨hmem, hlate⟩ := hmarkers.apart i j key _ _ e e' hij ⟨c, hc, hmark⟩
      ⟨c', hc', hmark'⟩
    · exact not_later hlifetime hprompt hc hc' hq hq' hm hm' hle hmark' hmem hlate
    · exact not_later hlifetime hprompt hc' hc hq' hq hm' hm hle' hmark hmem hlate
  · -- one in each store: Redis failed for the one that is in the database
    obtain ⟨e₀, he₀⟩ := hredis' hreplay
    exact hstore i j key _ _ e e₀ hij ⟨c, hc, hmark⟩ ⟨c', hc', he₀⟩
  · obtain ⟨e₀, he₀⟩ := hredis hreplay'
    exact hstore j i key _ _ e' e₀ (Ne.symm hij) ⟨c', hc', hmark'⟩ ⟨c, hc, he₀⟩
  · -- both in the database, where the nonce is unique
    exact hmarkers.once i j key _ _ _ _ e e' hij ⟨c, hc, hmark⟩ ⟨c', hc', hmark'⟩

end Replays

/-! ## A sample replay -/

section Sample

/-- What a request of the sample user 1 for a balance presents. -/
def sampleExchange : List UInt8 × List UInt8 :=
  (sampleTicket scopeBalance 1700000300, sampleAuthenticator 1700000000)

/-- The request. -/
def sampleBalance : ApRequest := .getBalance sampleExchange.1 sampleExchange.2 ""

/-- One request for a balance is made twice, and Redis fails when the second call asks. -/
def replayedInOutage : List (Act (handlerMachine sampleHandler .cut)) :=
  handlerCall 0 sampleBalance 6 ++ handlerCall 1 sampleBalance 5 ++
    [.run 1 { fail := true : Choice }, .run 1 {}, .run 1 {}, .run 1 {}]

/-- A request was marked, as a computation. -/
def hasMark {rounding : Rounding} (log : Log rounding) : Bool := log.any fun
  | ⟨.setNX _ _, _, .ok true⟩ => true
  | ⟨.insertUsedNonce _ _ _, _, .ok ()⟩ => true
  | _ => false

theorem marked_of_hasMark {rounding : Rounding} {log : Log rounding} (h : hasMark log = true) :
    Marked log := by
  obtain ⟨ev, hev, hmark⟩ := List.any_eq_true.mp h
  refine ⟨ev, hev, ?_⟩
  split at hmark
  · exact rfl
  · exact rfl
  · cases hmark

theorem sampleTicket_expires :
    (sampleHandler.decryptTicket (sampleTicket scopeBalance 1700000300)).map (·.expires) =
      some (.unix 1700000300) := by decide +kernel

/-- The tickets of sample exchanges are presented within their lifetime. -/
theorem withinLifetime_of_isSample {s : State (handlerMachine sampleHandler .cut)}
    (hs : isSample sampleExchange s = true) : WithinLifetime sampleHandler .cut s := by
  intro i c ticketV authenticator x hc hq hx hlog
  obtain ⟨hopens, hfirst, -, -⟩ := exchange_of_isSample hs hc hq hx hlog
  have hexpires := sampleTicket_expires
  rw [hopens.ticket] at hexpires
  have hexpires : x.ticket.expires = .unix 1700000300 := Option.some.inj hexpires
  rw [hexpires, hfirst]
  decide

theorem replayedInOutage_runs : ∃ s, Steps handlerStart replayedInOutage s ∧
    (isSample sampleExchange s, s.request 0, s.request 1,
      (s.call 0).map (hasMark ·.log), (s.call 1).map (hasMark ·.log)) =
    (true, some sampleBalance, some sampleBalance, some true, some true) :=
  steps_of_view (by decide +kernel)

/-- A request that was marked in Redis passes again when Redis fails. -/
theorem replay_safety_of_outage :
    ¬ ∀ (h : Handler) (rounding : Rounding) (clock : Instant)
      (s : State (handlerMachine h rounding)), Reachable (Env.initial clock) s →
        WithinLifetime h rounding s → PassOnce h rounding s := by
  intro hall
  obtain ⟨s, hs, hview⟩ := replayedInOutage_runs
  simp only [Prod.mk.injEq, State.request, Option.map_eq_some_iff] at hview
  obtain ⟨hsample, ⟨c₀, hc₀, hq₀⟩, ⟨c₁, hc₁, hq₁⟩, ⟨c₀', hc₀', hmark₀⟩, c₁', hc₁', hmark₁⟩ := hview
  obtain rfl := Option.some.inj (hc₀.symm.trans hc₀')
  obtain rfl := Option.some.inj (hc₁.symm.trans hc₁')
  have honce := hall sampleHandler .cut sampleClock s ⟨_, hs⟩ (withinLifetime_of_isSample hsample)
  have heq := honce 0 1 c₀ c₁ sampleExchange hc₀ hc₁ (congrArg _ hq₀) (congrArg _ hq₁)
    (marked_of_hasMark hmark₀) (marked_of_hasMark hmark₁)
  exact absurd heq (by decide)

/-- One request for a balance is made twice while Redis works. -/
def replayedAtOnce : List (Act (handlerMachine sampleHandler .cut)) :=
  handlerCall 0 sampleBalance 6 ++ handlerCall 1 sampleBalance 7

/-- Redis did not fail, and what it found new it had not had before, as a computation. -/
def redisWorks {rounding : Rounding} (log : Log rounding) : Bool := log.all fun
  | ⟨.setNX _ _, _, .error _⟩ => false
  | ⟨.setNX _ _, e, .ok true⟩ => e.redis.isEmpty
  | _ => true

theorem replayedAtOnce_runs : ∃ s, Steps handlerStart replayedAtOnce s ∧
    (isSample sampleExchange s, s.calls.entries.all fun c => redisWorks c.2.log,
      (s.call 0).map (hasMark ·.log), (s.call 1).map (hasMark ·.log)) =
    (true, true, some true, some false) :=
  steps_of_view (by decide +kernel)

/-- While Redis works the second request does not pass. -/
theorem replay_safety_of_replayedAtOnce : ∃ s, Steps handlerStart replayedAtOnce s ∧
    (s.call 0).map (hasMark ·.log) = some true ∧ PassOnce sampleHandler .cut s := by
  obtain ⟨s, hs, hview⟩ := replayedAtOnce_runs
  simp only [Prod.mk.injEq] at hview
  obtain ⟨hsample, hworks, hmark, -⟩ := hview
  have hredis : ∀ i c, s.call i = some c → ∀ ev ∈ c.log, _ := fun i c hc =>
    List.all_eq_true.mp (List.all_eq_true.mp hworks ⟨i, c⟩ (AList.mem_lookup_iff.mp hc))
  refine ⟨s, hs, hmark, replay_safety sampleHandler .cut sampleClock s ⟨_, hs⟩
    (withinLifetime_of_isSample hsample) ?_ ?_⟩
  · rintro i j key ttl ttl' e e' - - ⟨c, hc, hev⟩
    exact absurd (hredis j c hc _ hev) Bool.false_ne_true
  · rintro i c ticketV authenticator x key ttl e hc - - hev ⟨expires, hmem⟩
    have hempty : e.redis.isEmpty = true := hredis i c hc _ hev
    rw [List.isEmpty_iff.mp hempty] at hmem
    cases hmem

end Sample

end Bank
