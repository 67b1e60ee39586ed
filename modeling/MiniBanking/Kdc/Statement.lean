import MiniBanking.Kdc.Certificate
import MiniBanking.Concurrency.Markers
import MiniBanking.Concurrency.Trace

/-!
# The KDC's environment

What the KDC's programs may do between two local computations, and what it does to what all calls
share: Redis and the clock. A key that Redis sets may be in it although it reports a failure.

## Main definitions

* `Stmt`, `Reply`: the statements with their replies
* `Env`, `Choice`, `exec`: the environment, what decides an outcome, and the statements' meaning
* `world`, `machine`: the machine of a family of programs over these statements
* `replayMarkers`: Redis as a store of expiring keys

## Main results

* `Executed`: what the statements of a list replied
* `marked_apart`: two calls mark a key only one after the other's marker has expired
* `clock_log`: the clock never goes back along the statements of a call
-/

namespace Kdc

open Concurrency Go

/-! ## Statements -/

/-- The actions of `kdc_audit_log`. -/
inductive AuditAction where
  | asTicketIssued
  | asRejected
  | tgsTicketIssued
  | tgsRejected
  deriving DecidableEq

/-- A key-issuance event recorded to `kdc_audit_log`. -/
structure AuditEvent where
  action : AuditAction
  clientID : String := ""
  certSerial : String := ""
  scope : String := ""
  reason : String := ""
  requestID : String := ""
  ip : String := ""
  deriving DecidableEq

/-- How a call of the CA fails: with `codes.NotFound`, or otherwise. -/
inductive CallError where
  | notFound
  | other
  deriving DecidableEq

/-- What the KDC's programs may do between two local computations. -/
inductive Stmt where
  /-- `clock.Now()`. -/
  | now
  /-- `io.ReadFull` of so many bytes from the source of randomness. -/
  | readRandom (n : ℕ)
  /-- `SET key 1 NX` with a time to live. -/
  | setNX (key : String) (ttl : Duration)
  | verifyCertificate (serialNumber : String)
  | audit (e : AuditEvent)
  deriving DecidableEq

/-- The replies to the statements. -/
abbrev Reply : Stmt → Type
  | .now => Instant
  | .readRandom _ => Except Unit (List UInt8)
  | .setNX _ _ => Except Unit Bool
  | .verifyCertificate _ => Except CallError VerifyCertificateResponse
  | .audit _ => Unit

/-- The statements of the KDC with their replies. -/
abbrev signature : Signature := ⟨Stmt, Reply⟩

/-- Programs of the KDC. -/
abbrev Run (α : Type) : Type := Program signature α

/-- Issue a statement and return its reply. -/
abbrev stmt (s : Stmt) : Run (Reply s) := issue (S := signature) s

/-! ## Environment -/

/-- What all calls share. -/
structure Env where
  clock : Instant
  /-- The keys in Redis, with the times they expire. -/
  redis : List (String × ℤ)

/-- What decides a statement's outcome. -/
structure Choice where
  /-- The statement fails. -/
  fail : Bool := false
  /-- It reports a failure after it took effect. -/
  lost : Bool := false
  bytes : List UInt8 := []
  cert : Except CallError VerifyCertificateResponse := .error .other

/-- The key is in Redis. -/
def Env.hasKey (e : Env) (key : String) : Bool :=
  e.redis.any fun (k, expires) => k = key && decide (e.clock.ns < expires)

/-- The key is set in Redis until the time to live is over. -/
def Env.setKey (e : Env) (key : String) (ttl : Duration) : Env :=
  { e with redis := (key, e.clock.ns + ttl.toInt) :: e.redis }

/-- The meaning of the statements. -/
def exec : (s : Stmt) → Choice → Env → Reply s × Env
  | .now, _, e => (e.clock, e)
  | .readRandom n, c, e =>
    (if c.fail then .error () else .ok ((c.bytes ++ List.replicate n 0).take n), e)
  | .setNX key ttl, c, e =>
    if c.fail then (.error (), e)
    else
      (if c.lost then .error () else .ok (!e.hasKey key),
        if e.hasKey key then e else e.setKey key ttl)
  | .verifyCertificate _, c, e => (c.cert, e)
  | .audit _, _, e => ((), e)

/-- The world of the KDC's programs, whose calls keep nothing between their statements. -/
abbrev world : World where
  S := signature
  Env := Env
  Loc := Unit
  Choice := Choice
  exec _ s c e _ := some ((exec s c e).1, (exec s c e).2, ())

/-- The statements of a call, in their order. -/
abbrev Log := List (Event world)

/-- The machine of a family of programs of the KDC. The clock never goes back. -/
abbrev machine {Request Result : Type} (program : Request → Run Result) : Machine where
  toWorld := world
  Tick := Instant
  Request := Request
  Result := Result
  program := program
  start := ()
  tick t (e : Env) := if e.clock ≤ t then some { e with clock := t } else none

/-! ## What the statements do -/

section Exec

variable {s : Stmt} {c : Choice} {e : Env}

theorem exec_clock : (exec s c e).2.clock = e.clock := by
  cases s with
  | setNX key ttl =>
    simp only [exec]
    split
    · rfl
    · dsimp only
      split <;> rfl
  | _ => rfl

/-- Entries of Redis are only added. -/
theorem exec_redis : e.redis ⊆ (exec s c e).2.redis := by
  cases s with
  | setNX key ttl =>
    simp only [exec]
    split
    · exact List.Subset.refl _
    · dsimp only
      split
      · exact List.Subset.refl _
      · exact List.subset_cons_self _ _
  | _ => exact List.Subset.refl _

/-- Redis reports a key new when it does not have it, and has it from then on. -/
theorem exec_setNX_true {key : String} {ttl : Duration}
    (h : (exec (.setNX key ttl) c e).1 = Except.ok true) :
    (∀ expires, (key, expires) ∈ e.redis → expires ≤ e.clock.ns) ∧
      (key, e.clock.ns + ttl.toInt) ∈ (exec (.setNX key ttl) c e).2.redis := by
  by_cases hfail : c.fail = true
  · simp only [exec, if_pos hfail] at h
    cases h
  simp only [exec, if_neg hfail] at h ⊢
  have hnew : e.hasKey key = false := by
    have h : (if c.lost then Except.error () else Except.ok (!e.hasKey key) :
      Except Unit Bool) = .ok true := h
    split at h
    · cases h
    · simpa using Except.ok.inj h
  refine ⟨fun expires hmem => ?_, by simp [hnew, Env.setKey]⟩
  by_contra hlt
  have hhas : e.hasKey key = true := List.any_eq_true.mpr ⟨_, hmem, by simpa using hlt⟩
  rw [hnew] at hhas
  cases hhas

end Exec

/-! ## What was replied -/

/-- Every statement of the list replied what it means. -/
def Executed (log : Log) : Prop := ∀ ev ∈ log, ∃ choice, ev.reply = (exec ev.stmt choice ev.env).1

theorem Executed.mono {log log' : Log} (h : Executed log) (hsub : log' ⊆ log) : Executed log' :=
  fun ev hev => h ev (hsub hev)

theorem Executed.of_append {log log' : Log} (h : Executed (log ++ log')) :
    Executed log ∧ Executed log' :=
  ⟨h.mono (List.subset_append_left _ _), h.mono (List.subset_append_right _ _)⟩

theorem Executed.tail {ev : Event world} {log : Log} (h : Executed (ev :: log)) : Executed log :=
  h.mono (List.subset_cons_self _ _)

/-- A reading of the clock is the time in its environment. -/
theorem Executed.now {e : Env} {t : Instant} {log : Log}
    (h : Executed ((⟨Stmt.now, e, t⟩ : Event world) :: log)) : t = e.clock :=
  (h _ (List.mem_cons_self ..)).choose_spec

/-- Random bytes are as many as were asked for. -/
theorem Executed.readRandom {n : ℕ} {e : Env} {bytes : List UInt8} {log : Log}
    (h : Executed ((⟨Stmt.readRandom n, e, Except.ok bytes⟩ : Event world) :: log)) :
    bytes.length = n := by
  obtain ⟨choice, h⟩ := h _ (List.mem_cons_self ..)
  have h : (Except.ok bytes : Except Unit (List UInt8)) = if choice.fail then .error ()
    else .ok ((choice.bytes ++ List.replicate n 0).take n) := h
  split at h
  · cases h
  · cases h
    simp

/-! ## Runs -/

/-- A key was new in Redis. -/
def marked (key : String) (ttl : Duration) (e : Env) : Event world :=
  ⟨Stmt.setNX key ttl, e, Except.ok true⟩

/-- Redis as a store of expiring keys. -/
def replayMarkers : Markers world where
  Key := String
  entries := Env.redis
  clock e := e.clock.ns
  marks ev key ttl := ∃ d : Duration, ttl = d.toInt ∧ ev = marked key d ev.env
  grows h := by
    obtain ⟨-, henv⟩ := Prod.mk.inj (Option.some.inj h)
    rw [← (Prod.mk.inj henv).1]
    exact exec_redis
  absent h hm := by
    obtain ⟨d, rfl, hev⟩ := hm
    obtain ⟨hreply, henv⟩ := Prod.mk.inj (Option.some.inj h)
    cases hev
    exact (exec_setNX_true hreply).1
  present h hm := by
    obtain ⟨d, rfl, hev⟩ := hm
    obtain ⟨hreply, henv⟩ := Prod.mk.inj (Option.some.inj h)
    cases hev
    rw [← (Prod.mk.inj henv).1]
    exact (exec_setNX_true hreply).2

section Runs

variable {Request Result : Type} {program : Request → Run Result} {e₀ : Env}

theorem tick_redis (m : Instant) (e e' : Env) (h : (machine program).tick m e = some e') :
    e.redis ⊆ e'.redis := by
  simp only [machine] at h
  split at h
  · cases h
    exact List.Subset.refl _
  · cases h

/-- Of two calls that mark a key, one does it after the other's marker has expired. -/
theorem marked_apart {s : State (machine program)}
    (hs : Reachable (M := machine program) e₀ s) {i j : ℕ} (hij : i ≠ j)
    {key : String} {ttl ttl' : Duration} {e e' : Env} (h : s.Issued i (marked key ttl e))
    (h' : s.Issued j (marked key ttl' e')) :
    e.clock.ns + ttl.toInt ≤ e'.clock.ns ∨ e'.clock.ns + ttl'.toInt ≤ e.clock.ns :=
  Markers.apart (M := machine program) replayMarkers tick_redis hs hij h ⟨ttl, rfl, rfl⟩ h'
    ⟨ttl', rfl, rfl⟩

/-- **The clock never goes back** along the statements of a call. -/
theorem clock_log {s : State (machine program)} (hs : Reachable (M := machine program) e₀ s)
    {i : ℕ} {c : Call (machine program)} (hc : s.call i = some c) :
    c.log.Pairwise fun ev ev' => ev.env.clock.ns ≤ ev'.env.clock.ns := by
  refine (hs.log_ordered (R := fun e e' : Env => e.clock.ns ≤ e'.clock.ns) ?_ ?_ ?_ hc).1
  · exact fun a b c => le_trans
  · intro others st c e l r e' l' h
    obtain ⟨-, henv⟩ := Prod.mk.inj (Option.some.inj h)
    rw [← (Prod.mk.inj henv).1]
    exact (congrArg Instant.ns exec_clock).ge
  · intro m e e' h
    simp only [machine] at h
    split at h
    · next hle =>
      cases h
      exact hle
    · cases h

/-- The statements of a call replied what they mean. -/
theorem executed_log {s : State (machine program)} (hs : Reachable (M := machine program) e₀ s)
    {i : ℕ} {c : Call (machine program)} (hc : s.call i = some c) : Executed c.log := by
  intro ev hev
  obtain ⟨others, choice, loc, env, loc', hx⟩ := hs.log_exec ⟨c, hc, hev⟩
  exact ⟨choice, (Prod.mk.inj (Option.some.inj hx)).1.symm⟩

end Runs

end Kdc
