import MiniBanking.Concurrency.Count
import MiniBanking.Gateway.Otp

/-!
# How often a one-time password is guessed

A verification reads the number of failures, compares, and counts a failure in a later command. The
failures that are counted and those that are still to be counted bound the wrong passwords that
were compared; the handler sees only the first.

## Main definitions

* `comparedWrong`, `uncounted`: a wrong password was compared, and its failure is still to be counted
* `wrongIds`, `uncountedIds`: the verifications of either kind
* `HasAttempt`: a verification that is going to compare a wrong password has an attempt left

## Main results

* `guess`: what a statement does to the wrong passwords that were compared
* `attempts_bounded`: with an attempt left for each wrong password, no more are compared than
  attempts are allowed
-/

namespace Gateway

open Concurrency Go Otp

variable {g : OtpConfig}

/-! ## Wrong passwords -/

/-- The verification has compared a wrong password for the address. -/
def comparedWrong (email : Email) (c : Call (otpMachine g)) : Bool :=
  match c.request, c.log with
  | .verify email' otp, ⟨.get _, _, some stored⟩ :: ⟨.get _, _, failRaw⟩ :: _ =>
    email' = email && !g.blocked failRaw && !g.isMatch otp stored
  | _, _ => false

/-- The failure of the verification is still to be counted. -/
def uncounted (email : Email) (c : Call (otpMachine g)) : Bool :=
  c.rest.head = some (.incr (RedisKeys.otpFailed email.val))

/-- The failures that are counted for an address. -/
def Otp.Env.failures (e : Env) (email : Email) : ℤ :=
  e.redis.count e.now (RedisKeys.otpFailed email.val)

/-- The verifications that have compared a wrong password for an address. -/
def wrongIds (t : State (otpMachine g)) (email : Email) : Finset ℕ :=
  t.ids fun c => comparedWrong email c = true

/-- The verifications of an address that have compared a wrong password and still have to count the
failure. -/
def uncountedIds (t : State (otpMachine g)) (email : Email) : Finset ℕ :=
  t.ids fun c => uncounted email c = true

/-- A verification that is going to compare a wrong password has an attempt left: the failures that
are counted and those that are still to be counted are fewer than the attempts. -/
def HasAttempt (email : Email) (t : State (otpMachine g)) (i : ℕ) : Prop :=
  ∀ c otp key e stored, t.call i = some c → c.request = .verify email otp →
    c.log = [⟨.get key, e, some stored⟩] → g.isMatch otp stored = false →
    g.blocked (t.env.redis.get t.env.now (RedisKeys.otpFailed email.val)) = false →
    t.env.failures email + (uncountedIds t email).card < g.otpMaxAttempts

/-! ## One call -/

/-- What a statement of a call does to the wrong passwords for an address. -/
inductive Guess (email : Email) (env : Env) (c : Call (otpMachine g)) (st : Stmt)
    (c' : Call (otpMachine g)) : Prop where
  /-- Nothing, and the failures are not touched, or only get their expiry. -/
  | none (hwrong : comparedWrong email c' = comparedWrong email c)
    (hopen : uncounted email c = false) (hopen' : uncounted email c' = false)
    (hst : st.writes ≠ some (RedisKeys.otpFailed email.val) ∨
      st = .expire (RedisKeys.otpFailed email.val) g.otpCooldown)
  /-- One is compared, after the failures were read. -/
  | compared (otp : String) (e : Env) (stored : Redis.Value)
    (hreq : c.request = .verify email otp)
    (hlog : c.log = [⟨Stmt.get (RedisKeys.otp email.val), e, some stored⟩])
    (hst : st.writes = none) (hmatch : g.isMatch otp stored = false)
    (hblocked : g.blocked (env.redis.get env.now (RedisKeys.otpFailed email.val)) = false)
    (hwrong' : comparedWrong email c' = true)
    (hopen : uncounted email c = false) (hopen' : uncounted email c' = true)
  /-- A failure is counted. -/
  | counted (hst : st = .incr (RedisKeys.otpFailed email.val))
    (hwrong : comparedWrong email c' = comparedWrong email c)
    (hopen : uncounted email c = true) (hopen' : uncounted email c' = false)

section Guess

variable {email : Email} {otp : String} {log : List (Event otpWorld)} {st : Stmt}
  {k : Reply st → Run OtpResult} {l l' : Unit} {rest : Run OtpResult}

/-- The keys that a verification writes. -/
theorem VerifyStage.writes {email : String} (h : VerifyStage g email otp log rest) {st : Stmt}
    (hst : rest.head = some st) : st.writes = none ∨ st.writes = some (RedisKeys.otp email) ∨
      st.writes = some (RedisKeys.otpFailed email) ∨
      ∃ jti, st.writes = some (RedisKeys.regToken jti) := by
  cases h with
  | start | found =>
    cases hst
    exact .inl rfl
  | missing | stopped => cases hst
  | wrong =>
    cases hst
    exact .inr (.inr (.inl rfl))
  | counted _ _ hrest =>
    rcases hrest with h | h
    all_goals
      rw [h] at hst
      cases hst
    exact .inr (.inr (.inl rfl))
  | right _ _ hrest =>
    rcases hrest with h | h | h | h | ⟨jti, h⟩
    all_goals
      rw [h] at hst
      cases hst
    · exact .inl rfl
    · exact .inl rfl
    · exact .inr (.inl rfl)
    · exact .inr (.inr (.inr ⟨jti, rfl⟩))

/-- Other requests than verifications of an address do not touch its failures. -/
theorem writes_of_ne {q : OtpRequest} (h : (g.program q).Leads log rest)
    (hq : ∀ otp, q ≠ .verify email otp) {st : Stmt} (hst : rest.head = some st) :
    st.writes ≠ some (RedisKeys.otpFailed email.val) := by
  intro hwrites
  cases q with
  | request email' =>
    obtain h | h | ⟨hmac, h⟩ := request_head h
    all_goals
      rw [h] at hst
      cases hst
    · cases hwrites
    · exact RedisKeys.otp_ne_otpFailed _ _ (Option.some.inj hwrites)
  | verify email' otp =>
    obtain h | h | h | ⟨jti, h⟩ := (verify_stage h).writes hst
    · cases h.symm.trans hwrites
    · exact RedisKeys.otp_ne_otpFailed _ _ (Option.some.inj (h.symm.trans hwrites))
    · have hval := RedisKeys.otpFailed_injective (Option.some.inj (h.symm.trans hwrites))
      refine hq otp (congrArg (OtpRequest.verify · otp) ?_)
      cases email
      cases email'
      cases hval
      rfl
    · exact RedisKeys.regToken_ne_otpFailed _ _ (Option.some.inj (h.symm.trans hwrites))

/-- They compare nothing for it. -/
theorem comparedWrong_of_ne {q : OtpRequest} (hq : ∀ otp, q ≠ .verify email otp)
    (rest : Run OtpResult) (l : Unit) (log : List (Event otpWorld)) :
    comparedWrong (g := g) email ⟨q, rest, l, log⟩ = false := by
  cases q with
  | request email' => rfl
  | verify email' otp =>
    have hne : email' ≠ email := by
      rintro rfl
      exact hq otp rfl
    unfold comparedWrong
    split
    · next heq _ =>
      cases heq
      simp [hne]
    · rfl

/-- Nothing is compared before two replies. -/
theorem comparedWrong_short {rest : Run OtpResult} {l : Unit} (h : log.length ≤ 1) :
    comparedWrong (g := g) email ⟨.verify email otp, rest, l, log⟩ = false := by
  unfold comparedWrong
  split
  · next _ hlog =>
    rw [show log = _ from hlog] at h
    simp at h
  · rfl

/-- With two replies, their outcome is compared. -/
theorem comparedWrong_long {rest : Run OtpResult} {l : Unit} {key key' : String} {e e' : Env}
    {stored : Redis.Value} {failRaw : Option Redis.Value} :
    comparedWrong (g := g) email ⟨.verify email otp, rest, l,
      ⟨Stmt.get key, e, some stored⟩ :: ⟨Stmt.get key', e', failRaw⟩ :: log⟩ =
      (!g.blocked failRaw && !g.isMatch otp stored) := by
  simp [comparedWrong]

/-- A call counts no failure unless that is what it does next. -/
theorem uncounted_eq_false {q : OtpRequest} {rest : Run OtpResult} {l : Unit}
    {log : List (Event otpWorld)}
    (h : ∀ st, rest.head = some st → st.writes ≠ some (RedisKeys.otpFailed email.val)) :
    uncounted (g := g) email ⟨q, rest, l, log⟩ = false := by
  refine decide_eq_false fun hhead => h _ hhead rfl

theorem uncounted_eq_false_of_head {q : OtpRequest} {rest : Run OtpResult} {l : Unit}
    {log : List (Event otpWorld)} (h : ∀ key, rest.head ≠ some (.incr key)) :
    uncounted (g := g) email ⟨q, rest, l, log⟩ = false := decide_eq_false (h _)

/-- After three replies a verification counts no failure any more. -/
theorem VerifyStage.past (h : VerifyStage g email.val otp log rest) (hlen : 3 ≤ log.length)
    (q : OtpRequest) (l : Unit) : uncounted (g := g) email ⟨q, rest, l, log⟩ = false := by
  refine uncounted_eq_false_of_head fun key => ?_
  cases h with
  | start | missing | found | stopped | wrong => simp at hlen
  | counted _ _ hrest => rcases hrest with h | h <;> rw [h] <;> rintro ⟨⟩
  | right _ _ hrest => rcases hrest with h | h | h | h | ⟨jti, h⟩ <;> rw [h] <;> rintro ⟨⟩

/-- **What a statement does to the wrong passwords.** -/
theorem guess {q : OtpRequest} (h : (g.program q).Leads log (.call st k)) (choice : Choice)
    (env : Env) : Guess (g := g) email env ⟨q, .call st k, l, log⟩ st
      ⟨q, k (exec st choice env).1, l', log ++ [⟨st, env, (exec st choice env).1⟩]⟩ := by
  obtain ⟨r, hr⟩ : ∃ r, (exec st choice env).1 = r := ⟨_, rfl⟩
  have h' := h.snoc env r
  rw [hr]
  by_cases hq : ∃ otp, q = .verify email otp
  swap
  · rw [not_exists] at hq
    refine .none ?_ ?_ ?_ (.inl (writes_of_ne h hq rfl))
    · rw [comparedWrong_of_ne hq, comparedWrong_of_ne hq]
    · exact uncounted_eq_false fun st hst => writes_of_ne h hq hst
    · exact uncounted_eq_false fun st hst => writes_of_ne h' hq hst
  obtain ⟨otp, rfl⟩ := hq
  have hs := verify_stage h
  have hs' := verify_stage h'
  generalize k r = rest' at hs' ⊢
  -- the stage after the statement follows from the one before it and the reply
  cases hs with
  | start =>
    refine .none ?_ rfl ?_ (.inl (by rintro ⟨⟩))
    · rw [comparedWrong_short (by simp), comparedWrong_short (by simp)]
    · cases hs' <;> rfl
  | found =>
    obtain rfl : env.redis.get env.now (RedisKeys.otpFailed email.val) = r := hr
    cases hs' with
    | stopped hblocked =>
      refine .none ?_ rfl rfl (.inl (by rintro ⟨⟩))
      rw [List.singleton_append, comparedWrong_long, comparedWrong_short (by simp), hblocked]
      rfl
    | wrong hblocked hmatch =>
      refine .compared otp _ _ rfl rfl rfl hmatch hblocked ?_ rfl (decide_eq_true rfl)
      rw [List.singleton_append, comparedWrong_long, hblocked, hmatch]
      rfl
    | right hblocked hmatch hrest =>
      refine .none ?_ rfl ?_ (.inl (by rintro ⟨⟩))
      · rw [List.singleton_append, comparedWrong_long, comparedWrong_short (by simp), hmatch,
          Bool.not_true, Bool.and_false]
      · refine uncounted_eq_false_of_head fun key => ?_
        rcases hrest with h | h | h | h | ⟨jti, h⟩ <;> rw [h] <;> rintro ⟨⟩
  | wrong hblocked hmatch =>
    refine .counted rfl ?_ (decide_eq_true rfl) (hs'.past (by simp) _ _)
    rw [List.cons_append, List.cons_append, comparedWrong_long]
    exact comparedWrong_long.symm
  | counted hblocked hmatch hrest =>
    obtain rfl : st = .expire (RedisKeys.otpFailed email.val) g.otpCooldown := by
      rcases hrest with h | h
      · cases h
      · exact Option.some.inj h
    refine .none ?_ rfl (hs'.past (by simp) _ _) (.inr rfl)
    rw [List.cons_append, List.cons_append, comparedWrong_long]
    exact comparedWrong_long.symm
  | right hblocked hmatch hrest =>
    have hwrites : st.writes ≠ some (RedisKeys.otpFailed email.val) := by
      rcases hrest with h | h | h | h | ⟨jti, h⟩
      · cases h
      · cases h
        rintro ⟨⟩
      · cases h
        rintro ⟨⟩
      · cases h
        exact fun h => RedisKeys.otp_ne_otpFailed _ _ (Option.some.inj h)
      · cases h
        exact fun h => RedisKeys.regToken_ne_otpFailed _ _ (Option.some.inj h)
    refine .none ?_ ?_ (hs'.past (by simp) _ _) (.inl hwrites)
    · rw [List.cons_append, List.cons_append, comparedWrong_long]
      exact comparedWrong_long.symm
    · refine uncounted_eq_false fun st' hst' => ?_
      cases hst'
      exact hwrites

end Guess

/-! ## Runs -/

section Runs

variable {email : Email} {s t u : State (otpMachine g)} {a : Act (otpMachine g)}

theorem now_le_now (hn : next t a = some u) : t.env.now ≤ u.env.now := by
  obtain ⟨j, q, rfl, -, rfl⟩ | ⟨j, choice, q, st, k, loc, log, r, env, loc', rfl, -, he, rfl⟩ |
    ⟨d, env, rfl, hd, rfl⟩ := next_cases hn
  · exact le_rfl
  · obtain ⟨-, henv⟩ := Prod.mk.inj (Option.some.inj he)
    rw [State.put_env, ← (Prod.mk.inj henv).1]
    exact exec_now.ge
  · cases hd
    exact le_add_of_nonneg_right (Int.natCast_nonneg d)

theorem uncounted_start (q : OtpRequest) :
    uncounted (g := g) email ⟨q, g.program q, (), []⟩ = false := by
  cases q with
  | request email' =>
    refine uncounted_eq_false_of_head fun key => ?_
    simp only [OtpConfig.program, OtpConfig.handleOtpRequest]
    split <;> rintro ⟨⟩
  | verify email' otp => rfl

/-- **The invariant of a period.** From a state without failures on, the failures are a number that
does not expire in the period, the failures that are counted and those that are still to be counted
are at least as many as the wrong passwords that were compared, and these are no more than are
allowed. -/
structure InPeriod (email : Email) (s t : State (otpMachine g)) : Prop where
  since : s.env.now ≤ t.env.now
  entry : ∀ e, t.env.redis.live t.env.now (RedisKeys.otpFailed email.val) = some e →
    (∃ n, e.value = .integer n) ∧
      ∀ x, e.expires = some x → s.env.now + 1000 * g.otpCooldown ≤ x
  counted : ((wrongIds t email \ wrongIds s email).card : ℤ) ≤
    t.env.failures email + (uncountedIds t email).card
  most : (wrongIds t email \ wrongIds s email).card ≤ g.otpMaxAttempts

/-- At the start of a period there are no failures. -/
theorem InPeriod.start (h : s.env.redis.live s.env.now (RedisKeys.otpFailed email.val) = none) :
    InPeriod email s s where
  since := le_rfl
  entry e he := by rw [h] at he; cases he
  counted := by
    rw [Finset.sdiff_self, Finset.card_empty, Env.failures, Redis.Db.count, h]
    simp
  most := by simp

/-- What a step changes of the failures and of the calls that have compared. -/
theorem InPeriod.of_eq (h : InPeriod email s t) (hnow : t.env.now ≤ u.env.now)
    (hlive : u.env.redis.live u.env.now (RedisKeys.otpFailed email.val) =
      t.env.redis.live t.env.now (RedisKeys.otpFailed email.val))
    (hwrong : wrongIds u email = wrongIds t email)
    (hopen : uncountedIds u email = uncountedIds t email) : InPeriod email s u where
  since := h.since.trans hnow
  entry e he := h.entry e (hlive ▸ he)
  counted := by
    have hfailures : u.env.failures email = t.env.failures email := by
      simp only [Env.failures, Redis.Db.count, hlive]
    rw [hwrong, hopen, hfailures]
    exact h.counted
  most := hwrong ▸ h.most

/-- **A statement keeps the invariant**, if a verification that is going to compare a wrong password
has an attempt left. -/
theorem InPeriod.statement (h : InPeriod email s t)
    (hperiod : t.env.now < s.env.now + 1000 * g.otpCooldown) {i : ℕ} {choice : Choice}
    {c c' : Call (otpMachine g)} {st : Stmt} (hc : t.call i = some c)
    (hguess : Guess email t.env c st c') (hattempt : HasAttempt email t i) :
    InPeriod email s (({ t with env := (exec st choice t.env).2 }).put i c') := by
  have hids : ∀ (P : Call (otpMachine g) → Prop) [DecidablePred P], (P c' ↔ P c) →
      (({ t with env := (exec st choice t.env).2 }).put i c').ids P = t.ids P :=
    fun P _ hP => State.ids_put_of_iff (s := { t with env := (exec st choice t.env).2 }) hc hP
  have hnow : (({ t with env := (exec st choice t.env).2 }).put i c').env.now = t.env.now :=
    exec_now
  cases hguess with
  | none hwrong hopen hopen' hst =>
    have hwrongs := hids (fun c => comparedWrong email c = true) (by rw [hwrong])
    have hopens := hids (fun c => uncounted email c = true) (by rw [hopen, hopen'])
    rcases hst with hst | rfl
    · refine h.of_eq hnow.ge ?_ hwrongs hopens
      rw [hnow]
      exact exec_live hst _
    -- the failures get their expiry, which is after the period
    rcases Redis.Db.expire_cases t.env.redis t.env.now
      (RedisKeys.otpFailed email.val) g.otpCooldown with ⟨hdb, -⟩ | ⟨e, he, hdb⟩
    · refine h.of_eq hnow.ge ?_ hwrongs hopens
      exact congrArg (Redis.Db.live · t.env.now _) hdb
    · have hsince := h.since
      have hlive : (t.env.redis.expire t.env.now (RedisKeys.otpFailed email.val)
          g.otpCooldown).live t.env.now (RedisKeys.otpFailed email.val) =
            some { e with expires := some (t.env.now + 1000 * g.otpCooldown) } := by
        rw [hdb]
        refine Redis.Db.live_put_self fun x hx => ?_
        cases hx
        omega
      have hfailures : (exec (.expire (RedisKeys.otpFailed email.val) g.otpCooldown) choice
          t.env).2.failures email = t.env.failures email := by
        obtain ⟨⟨n, hn⟩, -⟩ := h.entry e he
        obtain ⟨value, expires⟩ := e
        cases hn
        simp only [Env.failures, Redis.Db.count, exec, hlive, he]
      refine ⟨h.since, ?_, ?_, ?_⟩
      · intro e' he'
        obtain rfl := Option.some.inj (hlive.symm.trans he')
        refine ⟨(h.entry e he).1, fun x hx => ?_⟩
        cases hx
        omega
      · rw [wrongIds, hwrongs, uncountedIds, hopens, State.put_env, hfailures]
        exact h.counted
      · rw [wrongIds, hwrongs]
        exact h.most
  | compared otp e stored hreq hlog hst hmatch hblocked hwrong' hopen hopen' =>
    have hattempts := hattempt c otp _ e stored hc hreq hlog hmatch hblocked
    have hredis : (exec st choice t.env).2.redis = t.env.redis := by
      obtain h | ⟨key, entry, hkey, -⟩ := exec_redis (s := st) (c := choice) (e := t.env)
      · exact h
      · rw [hst] at hkey
        cases hkey
    have henv : (exec st choice t.env).2 = t.env := Env.ext exec_now hredis
    have hnot : i ∉ uncountedIds t email := by
      intro hi
      obtain ⟨c'', hc'', hopen''⟩ := State.mem_ids.mp hi
      obtain rfl := Option.some.inj (hc.symm.trans hc'')
      rw [hopen] at hopen''
      cases hopen''
    rw [henv]
    have hwrongs : wrongIds (t.put i c') email = insert i (wrongIds t email) := by
      rw [wrongIds, State.ids_put, if_pos hwrong', wrongIds]
    have hopens : uncountedIds (t.put i c') email = insert i (uncountedIds t email) := by
      rw [uncountedIds, State.ids_put, if_pos hopen', uncountedIds]
    have hcard : (insert i (wrongIds t email) \ wrongIds s email).card ≤
        (wrongIds t email \ wrongIds s email).card + 1 := by
      by_cases hi : i ∈ wrongIds s email
      · rw [Finset.insert_sdiff_of_mem _ hi]
        exact Nat.le_succ _
      · rw [Finset.insert_sdiff_of_notMem _ hi]
        exact Finset.card_insert_le _ _
    have hcounted := h.counted
    refine ⟨h.since, h.entry, ?_, ?_⟩
    · rw [hwrongs, hopens, Finset.card_insert_of_notMem hnot, State.put_env]
      push_cast
      omega
    · rw [hwrongs]
      omega
  | counted hst hwrong hopen hopen' =>
    subst hst
    obtain ⟨redis, hincr, hlive⟩ := Redis.Db.incr_of_number t.env.redis t.env.now
      fun e he => (h.entry e he).1
    have henv : (exec (.incr (RedisKeys.otpFailed email.val)) choice t.env).2 =
        { t.env with redis } := by simp only [exec, hincr]
    have hin : i ∈ uncountedIds t email := State.mem_ids.mpr ⟨c, hc, hopen⟩
    have hwrongs := hids (fun c => comparedWrong email c = true) (by rw [hwrong])
    have hopens : uncountedIds (({ t with
        env := (exec (.incr (RedisKeys.otpFailed email.val)) choice t.env).2 }).put i c') email =
          (uncountedIds t email).erase i := by
      rw [uncountedIds, State.ids_put, if_neg (by rw [hopen']; exact Bool.false_ne_true)]
      rfl
    have hfailures : (exec (.incr (RedisKeys.otpFailed email.val)) choice t.env).2.failures email =
        t.env.failures email + 1 := by
      rw [henv, Env.failures, Redis.Db.count, hlive]
      rfl
    have hcounted := h.counted
    refine ⟨h.since.trans hnow.ge, ?_, ?_, ?_⟩
    · intro e he
      rw [State.put_env, henv] at he
      obtain rfl := Option.some.inj (hlive.symm.trans he)
      refine ⟨⟨_, rfl⟩, fun x hx => ?_⟩
      obtain ⟨e, he, hexpires⟩ := Option.bind_eq_some_iff.mp hx
      exact (h.entry e he).2 x hexpires
    · have hpos : 0 < (uncountedIds t email).card := Finset.card_pos.mpr ⟨i, hin⟩
      rw [wrongIds, hwrongs, hopens, Finset.card_erase_of_mem hin, State.put_env, hfailures]
      rw [wrongIds] at hcounted
      omega
    · rw [wrongIds, hwrongs]
      exact h.most

/-- The invariant is kept by every step in the period. -/
theorem InPeriod.next {e₀ : Env} (ht : Reachable e₀ t) (h : InPeriod email s t)
    (hn : next t a = some u) (hperiod : u.env.now < s.env.now + 1000 * g.otpCooldown)
    (hattempt : ∀ i choice, a = .run i choice → HasAttempt email t i) : InPeriod email s u := by
  have hle := now_le_now hn
  obtain ⟨i, q, rfl, hi, rfl⟩ | ⟨i, choice, q, st, k, l, log, r, env, l', rfl, hi, he, rfl⟩ |
    ⟨d, env, rfl, hd, rfl⟩ := next_cases hn
  · refine h.of_eq le_rfl rfl ?_ ?_
    · refine State.ids_put_of_not hi ?_
      cases q <;> simp [comparedWrong]
    · refine State.ids_put_of_not hi ?_
      rw [uncounted_start]
      exact Bool.false_ne_true
  · obtain ⟨rfl, henv⟩ := Prod.mk.inj (Option.some.inj he)
    obtain ⟨rfl, -⟩ := Prod.mk.inj henv
    exact h.statement (lt_of_le_of_lt hle hperiod) hi (guess (ht.leads hi) choice t.env)
      (hattempt i choice rfl)
  · cases hd
    refine h.of_eq hle ?_ rfl rfl
    -- what has not expired does not expire in the period
    cases hlive : t.env.redis.live t.env.now (RedisKeys.otpFailed email.val) with
    | none =>
      refine Option.eq_none_iff_forall_ne_some.mpr fun e he => ?_
      rw [Redis.Db.live_of_le hle he] at hlive
      cases hlive
    | some e =>
      exact Redis.Db.live_of_lt hlive fun x hx =>
        lt_of_lt_of_le hperiod ((h.entry e hlive).2 x hx)

/-- **The wrong passwords of a period are bounded** by the attempts that are allowed, from a state
without failures on until they could expire, in every run in which each verification that is going
to compare a wrong password has an attempt left. -/
theorem attempts_bounded {e₀ : Env} (hs : Reachable e₀ s) {acts : List (Act (otpMachine g))}
    (h : Steps s acts t)
    (hfresh : s.env.redis.live s.env.now (RedisKeys.otpFailed email.val) = none)
    (hperiod : t.env.now < s.env.now + 1000 * g.otpCooldown)
    (hattempt : ∀ n i choice u v, TakenAt s acts n (.run i choice) u v → HasAttempt email u i) :
    (wrongIds t email \ wrongIds s email).card ≤ g.otpMaxAttempts := by
  suffices hcounted : InPeriod email s t from hcounted.most
  induction h with
  | nil => exact .start hfresh
  | snoc hsteps hn ih =>
    have hlt := lt_of_le_of_lt (now_le_now hn) hperiod
    refine (ih hlt fun n i choice u v htaken => ?_).next (hs.steps hsteps) hn hperiod ?_
    · exact hattempt n i choice u v (htaken.snoc _)
    · rintro i choice rfl
      exact hattempt _ i choice _ _ (.last hsteps hn)

end Runs

/-! ## Sample runs -/

section Samples

/-- The password is requested, and a verification with another one runs to its end. -/
def guessedOnce : List (Act (otpMachine sampleOtp)) :=
  otpCall 0 (.request sampleEmail) 2 ++ otpCall 1 (.verify sampleEmail "000000") 4

/-- The password is requested, and six verifications read the failures before any is counted. -/
def guessedAtOnce : List (Act (otpMachine sampleOtp)) :=
  otpCall 0 (.request sampleEmail) 2 ++
    (List.range 6).flatMap fun i => otpCall (i + 1) (.verify sampleEmail "000000") 2

/-- In the first run every verification has an attempt left. -/
theorem hasAttempt_guessedOnce (n i : ℕ) (choice : Choice) (u v : State (otpMachine sampleOtp))
    (h : TakenAt sampleOtpStart guessedOnce n (.run i choice) u v) : HasAttempt sampleEmail u i := by
  have hleft : ∀ n < 8, (runAll sampleOtpStart (guessedOnce.take n)).map (fun u =>
      decide (u.env.failures sampleEmail + (uncountedIds u sampleEmail).card <
        sampleOtp.otpMaxAttempts)) = some true := by decide +kernel
  have hn : n < 8 := (List.getElem?_eq_some_iff.mp h.act).1
  obtain ⟨u', hu', hlt⟩ := steps_of_view (hleft n hn)
  obtain rfl := h.before.det hu'
  exact fun _ _ _ _ _ _ _ _ _ _ => of_decide_eq_true hlt

theorem guessedOnce_runs : ∃ t, Steps sampleOtpStart guessedOnce t ∧
    decide (t.env.now < 600000 ∧ (wrongIds t sampleEmail).card = 1) = true :=
  steps_of_view (by decide +kernel)

/-- One wrong password is compared. -/
theorem attempts_bounded_of_guessedOnce : ∃ t, Steps sampleOtpStart guessedOnce t ∧
    (wrongIds t sampleEmail).card = 1 ∧
    (wrongIds t sampleEmail \ wrongIds sampleOtpStart sampleEmail).card ≤
      sampleOtp.otpMaxAttempts := by
  obtain ⟨t, ht, hview⟩ := guessedOnce_runs
  obtain ⟨hnow, hcard⟩ := of_decide_eq_true hview
  exact ⟨t, ht, hcard, attempts_bounded ⟨[], .nil⟩ ht rfl hnow
    hasAttempt_guessedOnce⟩

/-- Six wrong passwords are compared where five attempts are allowed. -/
theorem attempts_exceeded : ∃ t, Steps sampleOtpStart guessedAtOnce t ∧
    t.env.now < sampleOtpStart.env.now + 1000 * sampleOtp.otpCooldown ∧
    ¬ (wrongIds t sampleEmail \ wrongIds sampleOtpStart sampleEmail).card ≤
      sampleOtp.otpMaxAttempts := by
  have hruns : (runAll sampleOtpStart guessedAtOnce).map (fun t =>
      decide (t.env.now < sampleOtpStart.env.now + 1000 * sampleOtp.otpCooldown ∧
        ¬ (wrongIds t sampleEmail \ wrongIds sampleOtpStart sampleEmail).card ≤
          sampleOtp.otpMaxAttempts)) = some true := by decide +kernel
  obtain ⟨t, ht, hview⟩ := steps_of_view hruns
  exact ⟨t, ht, of_decide_eq_true hview⟩

end Samples

end Gateway
