import MiniBanking.Gateway.Otp

/-!
# How often a one-time password is used

A verification reads the password, compares, and deletes the key in a later command. If another
handler has deleted or written the key in between, the verification issues a second token for one
password, or deletes a password that it has not read.

## Main definitions

* `otpRead`: the write of the password that a verification has read
* `Deletes`: a verification has deleted the password
* `Untouched`: since a verification has read the password, nothing has changed its key

## Main results

* `Used.next`: the invariant of the deletions
* `otp_used_once`: no two verifications issue a token for one write, and none deletes another one
-/

namespace Gateway

open Concurrency Go Otp

variable {g : OtpConfig} {email : Email}

/-! ## Reading and deleting -/

/-- The write of the password that a verification has read, by the number of changes of its key. -/
def otpRead (email : Email) (c : Call (otpMachine g)) : Option ℕ :=
  match c.log with
  | ⟨.get _, e, some _⟩ :: _ => some (e.redis.changes (RedisKeys.otp email.val))
  | _ => none

/-- Call `i` is a verification that has read the password in one environment and has deleted it in
another. -/
def Deletes (email : Email) (t : State (otpMachine g)) (i : ℕ) (e₀ e : Env) : Prop :=
  ∃ c otp stored tail r, t.call i = some c ∧ c.request = .verify email otp ∧
    c.log = ⟨Stmt.get (RedisKeys.otp email.val), e₀, some stored⟩ :: tail ∧
    (⟨Stmt.del (RedisKeys.otp email.val), e, r⟩ : Event otpWorld) ∈ c.log

/-- When a verification is about to delete the password, no command has changed its key since the
verification has read it. -/
def Untouched (email : Email) (t : State (otpMachine g)) (i : ℕ) : Prop :=
  ∀ c e₀ stored tail, t.call i = some c → c.rest.head = some (.del (RedisKeys.otp email.val)) →
    c.log = ⟨Stmt.get (RedisKeys.otp email.val), e₀, some stored⟩ :: tail →
    t.env.redis.changes (RedisKeys.otp email.val) = e₀.redis.changes (RedisKeys.otp email.val)

/-- A verification that issues a token has read the password and has deleted it. -/
theorem verified_returns {otp : String} {log : List (Event otpWorld)} {token : RegToken}
    {ownerId : String} {expiresIn : ℤ}
    (h : (g.handleOtpVerify email.val otp).Returns log (.verified token ownerId expiresIn)) :
    ∃ e₀ stored tail e r,
      log = ⟨Stmt.get (RedisKeys.otp email.val), e₀, some stored⟩ :: tail ∧
      (⟨Stmt.del (RedisKeys.otp email.val), e, r⟩ : Event otpWorld) ∈ log := by
  rw [OtpConfig.handleOtpVerify, email.lower] at h
  obtain ⟨e₀, stored, log, rfl, h₁⟩ := Program.returns_issue.mp h
  rcases stored with _ | stored
  · cases (Program.returns_ret.mp h₁).2
  dsimp only at h₁
  split at h₁
  · cases (Program.returns_ret.mp h₁).2
  obtain ⟨e₁, failRaw, log, rfl, h₂⟩ := Program.returns_issue.mp h₁
  split at h₂
  · cases (Program.returns_ret.mp h₂).2
  split at h₂
  · obtain ⟨e, r, log, rfl, -⟩ := Program.returns_issue.mp h₂
    exact ⟨e₀, stored, _, e, r, rfl, by simp⟩
  · -- a wrong password issues no token
    obtain ⟨e, r, log, rfl, h₃⟩ := Program.returns_issue.mp h₂
    rcases r with _ | n
    · cases (Program.returns_ret.mp h₃).2
    dsimp only at h₃
    split at h₃
    · obtain ⟨-, -, log, rfl, h₄⟩ := Program.returns_issue.mp h₃
      cases (Program.returns_ret.mp h₄).2
    · cases (Program.returns_ret.mp h₃).2

/-! ## Runs -/

section Runs

variable {e₀ : Env} {t u : State (otpMachine g)} {a : Act (otpMachine g)}

/-- A step leads to a later database. -/
theorem later_next (hn : next t a = some u) : t.env.redis.Later u.env.redis := by
  obtain ⟨j, q, rfl, -, rfl⟩ | ⟨j, choice, q, st, k, loc, log, r, env, loc', rfl, -, he, rfl⟩ |
    ⟨d, env, rfl, hd, rfl⟩ := next_cases hn
  · exact .refl _
  · obtain ⟨-, henv⟩ := Prod.mk.inj (Option.some.inj he)
    rw [State.put_env, ← (Prod.mk.inj henv).1]
    exact exec_later
  · cases hd
    exact .refl _

/-- The statements of a call find later and later databases. -/
theorem later_log (ht : Reachable e₀ t) {i : ℕ} {c : Call (otpMachine g)} (hc : t.call i = some c)
    {ev : Event otpWorld} (hev : ev ∈ c.log) : ev.env.redis.Later t.env.redis := by
  refine (ht.log_ordered (R := fun e e' : Env => e.redis.Later e'.redis) ?_ ?_ ?_ hc).2 ev hev
  · exact fun _ _ _ => Redis.Db.Later.trans
  · intro others st c e l r e' l' h
    obtain ⟨-, henv⟩ := Prod.mk.inj (Option.some.inj h)
    rw [← (Prod.mk.inj henv).1]
    exact exec_later
  · intro d e e' h
    cases h
    exact .refl _

/-- A password that was read is there. -/
theorem entry_of_read (ht : Reachable e₀ t) {i : ℕ} {key : String} {e : Env} {v : Redis.Value}
    (h : t.Issued i ⟨Stmt.get key, e, some v⟩) : ∃ entry, e.redis.entries key = some entry := by
  obtain ⟨others, choice, loc, env, loc', hx⟩ := ht.log_exec h
  have hreply : e.redis.get e.now key = some v := (Prod.mk.inj (Option.some.inj hx)).1
  obtain ⟨entry, hentry, -⟩ := Redis.Db.entry_of_get hreply
  exact ⟨entry, hentry⟩

/-- A deletion is an old one, or the one of this step. -/
theorem Deletes.of_next (hn : next t a = some u) {i : ℕ} {e₁ e : Env}
    (h : Deletes email u i e₁ e) : Deletes email t i e₁ e ∨
      ∃ choice c stored tail, a = .run i choice ∧ t.call i = some c ∧
        c.rest.head = some (.del (RedisKeys.otp email.val)) ∧
        c.log = ⟨Stmt.get (RedisKeys.otp email.val), e₁, some stored⟩ :: tail ∧ e = t.env ∧
        u.env = (exec (.del (RedisKeys.otp email.val)) choice t.env).2 := by
  obtain ⟨c, otp, stored, tail, r, hc, hreq, hlog, hmem⟩ := h
  obtain ⟨j, q, rfl, -, rfl⟩ | ⟨j, choice, q, st, k, loc, log, r', env, loc', rfl, hj, he, rfl⟩ |
    ⟨d, env, rfl, hd, rfl⟩ := next_cases hn
  · rw [State.call_put] at hc
    split at hc
    · cases hc
      cases hlog
    · exact .inl ⟨c, otp, stored, tail, r, hc, hreq, hlog, hmem⟩
  · rw [State.call_put] at hc
    split at hc
    · next hij =>
      subst hij
      cases hc
      cases log with
      | nil =>
        -- the first statement of a verification deletes nothing
        cases (List.mem_singleton.mp hmem).trans (List.cons.inj hlog).1
      | cons ev log =>
        obtain ⟨rfl, rfl⟩ := List.cons.inj hlog
        rcases List.mem_append.mp hmem with hmem | hmem
        · exact .inl ⟨_, otp, stored, log, r, hj, hreq, rfl, hmem⟩
        · obtain hev := List.mem_singleton.mp hmem
          cases hev
          obtain ⟨-, henv⟩ := Prod.mk.inj (Option.some.inj he)
          exact .inr ⟨choice, _, stored, log, rfl, hj, rfl, rfl, rfl, (Prod.mk.inj henv).1.symm⟩
    · exact .inl ⟨c, otp, stored, tail, r, hc, hreq, hlog, hmem⟩
  · exact .inl ⟨c, otp, stored, tail, r, hc, hreq, hlog, hmem⟩

/-- **The invariant of the deletions**: each deletes what its verification has read, which is gone
since then, and no two verifications that delete have read the same write. -/
structure Used (email : Email) (t : State (otpMachine g)) : Prop where
  kept : ∀ i e₁ e, Deletes email t i e₁ e →
    e.redis.entries (RedisKeys.otp email.val) = e₁.redis.entries (RedisKeys.otp email.val) ∧
    e₁.redis.changes (RedisKeys.otp email.val) < t.env.redis.changes (RedisKeys.otp email.val)
  apart : ∀ i j e₁ e e₁' e', i ≠ j → Deletes email t i e₁ e → Deletes email t j e₁' e' →
    e₁.redis.changes (RedisKeys.otp email.val) ≠ e₁'.redis.changes (RedisKeys.otp email.val)

/-- The deletion of this step finds what its verification has read. -/
theorem deletes_read (ht : Reachable e₀ t) {i : ℕ} (hi : Untouched email t i) {choice : Choice}
    {c : Call (otpMachine g)} {stored : Redis.Value} {e₁ : Env} {tail : List (Event otpWorld)}
    (hc : t.call i = some c) (hhead : c.rest.head = some (.del (RedisKeys.otp email.val)))
    (hlog : c.log = ⟨Stmt.get (RedisKeys.otp email.val), e₁, some stored⟩ :: tail) :
    t.env.redis.changes (RedisKeys.otp email.val) =
        e₁.redis.changes (RedisKeys.otp email.val) ∧
      t.env.redis.entries (RedisKeys.otp email.val) =
        e₁.redis.entries (RedisKeys.otp email.val) ∧
      e₁.redis.changes (RedisKeys.otp email.val) <
        (exec (.del (RedisKeys.otp email.val)) choice t.env).2.redis.changes
          (RedisKeys.otp email.val) := by
  have hfirst : (⟨Stmt.get (RedisKeys.otp email.val), e₁, some stored⟩ : Event otpWorld) ∈
      c.log := hlog ▸ List.mem_cons_self ..
  have hsame := hi c e₁ stored tail hc hhead hlog
  have hentry := (later_log ht hc hfirst).entry _ hsame.symm
  obtain ⟨entry, hread⟩ := entry_of_read ht ⟨c, hc, hfirst⟩
  refine ⟨hsame, hentry.symm, ?_⟩
  simp only [exec, Redis.Db.del, ← hentry, hread, Redis.Db.changes_put_self, hsame]
  exact Nat.lt_succ_self _

theorem Used.next (ht : Reachable e₀ t) (h : Used email t) (hn : next t a = some u)
    (huntouched : ∀ i choice, a = .run i choice → Untouched email t i) : Used email u where
  kept i e₁ e hdel := by
    obtain hdel | ⟨choice, c, stored, tail, ha, hc, hhead, hlog, rfl, hu⟩ := hdel.of_next hn
    · obtain ⟨hentry, hlt⟩ := h.kept i e₁ e hdel
      exact ⟨hentry, lt_of_lt_of_le hlt ((later_next hn).mono _)⟩
    · obtain ⟨-, hentry, hlt⟩ := deletes_read ht (huntouched i choice ha) hc hhead hlog
      exact ⟨hentry, hu ▸ hlt⟩
  apart i j e₁ e e₁' e' hij hdel hdel' := by
    obtain hdel | ⟨choice, c, stored, tail, ha, hc, hhead, hlog, -, -⟩ := hdel.of_next hn <;>
      obtain hdel' | ⟨choice', c', stored', tail', ha', hc', hhead', hlog', -, -⟩ :=
        hdel'.of_next hn
    · exact h.apart i j e₁ e e₁' e' hij hdel hdel'
    · -- what was read before it was deleted is not what is read now
      have hsame := huntouched j choice' ha' c' e₁' stored' tail' hc' hhead' hlog'
      exact ne_of_lt (hsame ▸ (h.kept i e₁ e hdel).2)
    · have hsame := huntouched i choice ha c e₁ stored tail hc hhead hlog
      exact (ne_of_lt (hsame ▸ (h.kept j e₁' e' hdel').2)).symm
    · exact absurd (Act.run.inj (ha.symm.trans ha')).1 hij

/-- **A one-time password is used once**, in every run in which nothing changes the key of a password
between its reading and its deletion by a verification: no two verifications issue a token for one
write of a password, and a verification deletes what it has read. -/
theorem otp_used_once {acts : List (Act (otpMachine g))} (h : Steps ⟨e₀, ∅⟩ acts t)
    (huntouched : ∀ n i choice u v, TakenAt ⟨e₀, ∅⟩ acts n (.run i choice) u v →
      Untouched email u i) :
    (∀ i j c c' otp otp' token token' ownerId ownerId' expiresIn expiresIn', t.call i = some c →
      t.call j = some c' → c.request = .verify email otp → c'.request = .verify email otp' →
      c.rest.result = some (.verified token ownerId expiresIn) →
      c'.rest.result = some (.verified token' ownerId' expiresIn') →
      otpRead email c = otpRead email c' → i = j) ∧
    ∀ i e₁ e, Deletes email t i e₁ e →
      e.redis.entries (RedisKeys.otp email.val) = e₁.redis.entries (RedisKeys.otp email.val) := by
  have hused : Used email t := by
    induction h with
    | nil =>
      exact ⟨fun i _ _ ⟨_, _, _, _, _, hc, _⟩ => (by cases hc),
        fun i _ _ _ _ _ _ ⟨_, _, _, _, _, hc, _⟩ => (by cases hc)⟩
    | snoc hsteps hn ih =>
      refine (ih fun n i choice u v htaken => ?_).next ⟨_, hsteps⟩ hn ?_
      · exact huntouched n i choice u v (htaken.snoc _)
      · rintro i choice rfl
        exact huntouched _ i choice _ _ (.last hsteps hn)
  refine ⟨?_, fun i e₁ e hdel => (hused.kept i e₁ e hdel).1⟩
  intro i j c c' otp otp' token token' ownerId ownerId' x x' hc hc' hreq hreq' hres hres' hread
  have hreach : Reachable e₀ t := ⟨acts, h⟩
  have hreturns := hreach.returns hc hres
  have hreturns' := hreach.returns hc' hres'
  rw [hreq] at hreturns
  rw [hreq'] at hreturns'
  obtain ⟨e₁, stored, tail, e, r, hlog, hdel⟩ := verified_returns hreturns
  obtain ⟨e₁', stored', tail', e', r', hlog', hdel'⟩ := verified_returns hreturns'
  by_contra hij
  refine hused.apart i j e₁ e e₁' e' hij ⟨c, otp, stored, tail, r, hc, hreq, hlog, hdel⟩
    ⟨c', otp', stored', tail', r', hc', hreq', hlog', hdel'⟩ ?_
  simpa [otpRead, hlog, hlog'] using hread

end Runs

/-! ## Sample runs -/

section Samples

/-- The password is requested and verified. -/
def verifiedOnce : List (Act (otpMachine sampleOtp)) :=
  otpCall 0 (.request sampleEmail) 2 ++ otpCall 1 (.verify sampleEmail "100000") 7

/-- The password is requested, and two verifications have compared it before either deletes it. -/
def verifiedTwice : List (Act (otpMachine sampleOtp)) :=
  otpCall 0 (.request sampleEmail) 2 ++ otpCall 1 (.verify sampleEmail "100000") 2 ++
    otpCall 2 (.verify sampleEmail "100000") 2 ++ verifyCall 1 5 "o1" ++ verifyCall 2 5 "o2"

/-- Whether the password that a call is about to delete is the one that it has read. -/
def isUntouched (t : State (otpMachine sampleOtp)) (i : ℕ) : Bool :=
  match t.call i with
  | some c => match c.log with
    | ⟨.get _, e, some _⟩ :: _ => c.rest.head ≠ some (.del (RedisKeys.otp sampleEmail.val)) ||
        t.env.redis.changes (RedisKeys.otp sampleEmail.val) =
          e.redis.changes (RedisKeys.otp sampleEmail.val)
    | _ => true
  | none => true

theorem untouched_of_isUntouched {t : State (otpMachine sampleOtp)} {i : ℕ}
    (h : isUntouched t i = true) : Untouched sampleEmail t i := by
  intro c e₀ stored tail hc hhead hlog
  simpa [isUntouched, hc, hlog, hhead] using h

/-- In the first run nothing comes between a reading and a deletion. -/
theorem untouched_verifiedOnce (n i : ℕ) (choice : Choice) (u v : State (otpMachine sampleOtp))
    (h : TakenAt sampleOtpStart verifiedOnce n (.run i choice) u v) : Untouched sampleEmail u i := by
  have hall : ∀ n < 11, ∀ i < 2, (runAll sampleOtpStart (verifiedOnce.take n)).map (fun u =>
      isUntouched u i) = some true := by decide +kernel
  have hn : n < 11 := (List.getElem?_eq_some_iff.mp h.act).1
  have hi : i < 2 := by
    have hmem := List.mem_of_getElem? h.act
    simp only [verifiedOnce, otpCall, List.mem_append, List.mem_cons, List.mem_replicate] at hmem
    grind
  obtain ⟨u', hu', huntouched⟩ := steps_of_view (hall n hn i hi)
  obtain rfl := h.before.det hu'
  exact untouched_of_isUntouched huntouched

/-- What a call returned, and which password it has read. -/
def tokenView (t : State (otpMachine sampleOtp)) (i : ℕ) : Option (Option OtpResult × Option ℕ) :=
  (t.call i).map fun c => (c.rest.result, otpRead sampleEmail c)

/-- One verification issues a token for the password. -/
theorem otp_used_once_of_verifiedOnce : ∃ t, Steps sampleOtpStart verifiedOnce t ∧
    tokenView t 1 = some (some (.verified
      ⟨"an@bank.vn", "", "pki_registration", "", 0, 600⟩ "" 600), some 1) ∧
    ∀ i e₁ e, Deletes sampleEmail t i e₁ e →
      e.redis.entries (RedisKeys.otp sampleEmail.val) =
        e₁.redis.entries (RedisKeys.otp sampleEmail.val) := by
  have hruns : (runAll sampleOtpStart verifiedOnce).map (fun t => tokenView t 1) =
      some (some (some (.verified ⟨"an@bank.vn", "", "pki_registration", "", 0, 600⟩ "" 600),
        some 1)) := by decide +kernel
  obtain ⟨t, ht, hview⟩ := steps_of_view hruns
  exact ⟨t, ht, hview, (otp_used_once ht untouched_verifiedOnce).2⟩

/-- Two verifications issue a token with an owner of its own for one password. -/
theorem otp_used_twice : ∃ t, Steps sampleOtpStart verifiedTwice t ∧
    tokenView t 1 = some (some (.verified
      ⟨"an@bank.vn", "o1", "pki_registration", "o1", 0, 600⟩ "o1" 600), some 1) ∧
    tokenView t 2 = some (some (.verified
      ⟨"an@bank.vn", "o2", "pki_registration", "o2", 0, 600⟩ "o2" 600), some 1) := by
  have hruns : (runAll sampleOtpStart verifiedTwice).map (fun t => (tokenView t 1, tokenView t 2)) =
      some (some (some (.verified ⟨"an@bank.vn", "o1", "pki_registration", "o1", 0, 600⟩ "o1" 600),
        some 1), some (some (.verified
          ⟨"an@bank.vn", "o2", "pki_registration", "o2", 0, 600⟩ "o2" 600), some 1)) := by
    decide +kernel
  obtain ⟨t, ht, hview⟩ := steps_of_view hruns
  obtain ⟨h₁, h₂⟩ := Prod.mk.inj hview
  exact ⟨t, ht, h₁, h₂⟩

end Samples

end Gateway
