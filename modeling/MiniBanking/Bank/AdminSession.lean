import MiniBanking.Bank.Authorization
import MiniBanking.Concurrency.Past

/-!
# Sessions of administrators

An administrator presents a ticket once. From then on a token admits the methods for
administrators: the bank keeps a session under the token's hash and asks neither the CA nor the
clock of the ticket's issuer again. So all that is checked of an administrator is what was checked
when the session was opened.

## Main definitions

* `SessionOrigin`: the call that opened an accepted session, with what it showed

## Main results

* `sessions_stored`: every session that Redis has was stored by a call
* `SessionOpened.mono`: the evidence of a call stays
* `admin_session_sound`: every accepted session was opened for its token by a call that passed the
  AP exchange for administrators, whose ticket has not expired
-/

namespace Bank

open Concurrency Go Kerberos Postgres

/-! ## Where a session comes from -/

/-- A call opened a session for a token. Its ticket has the scope for administrators and names the
client and the certificate of the session, the CA reported the certificate usable and that of a
bank administrator, the request was marked as seen, all of this before the session is accepted at
`now`, and the expiry of the ticket is still to come. -/
structure SessionOrigin (h : Handler) {rounding : Rounding} (c : Call (handlerMachine h rounding))
    (rawToken : String) (session : AdminSession) (now : Instant)
    (ticketV authenticator : List UInt8) (x : ApExchange) (bytes : List UInt8) : Prop where
  request : c.request = ApRequest.createAdminSession ticketV authenticator
  opened : SessionOpened h ticketV authenticator c.log x bytes
  token : h.svc.hexHash (utf8 rawToken) = h.svc.hexHash (utf8 (Handler.rawURLEncoding bytes))
  admin : session.adminID = x.ticket.clientID
  cert : session.certSN = x.ticket.certSN
  scope : x.ticket.scope = "bank-admin:read"
  owner : x.cert.ownerId = "" ∨ x.cert.ownerId = session.adminID
  role : x.cert.role = .bankAdmin
  before : ∀ ev ∈ x.log rounding, ev.env.clock ≤ now
  expires : x.ticket.expires = .unix session.expiresAt
  unexpired : now.ns < session.expiresAt.toInt * second

/-- The evidence of a call stays while the call goes on. -/
theorem SessionOpened.mono {h : Handler} {rounding : Rounding} {ticketV authenticator : List UInt8}
    {log log' : Log rounding} {x : ApExchange} {bytes : List UInt8}
    (ho : SessionOpened h ticketV authenticator log x bytes) (hle : log <+: log') :
    SessionOpened h ticketV authenticator log' x bytes where
  passed := ho.passed
  role := ho.role
  issued := ho.issued.trans hle
  marked := ho.marked.mono hle
  drawn := ho.drawn.imp fun _ hmem => hle.subset hmem

/-! ## The sessions in Redis -/

section Stored

variable {rounding : Rounding} {others : List Conn} {c : Choice} {e e' : Env} {l l' : Conn}

/-- A statement that changes the sessions stores one. -/
theorem exec_sessions {s : Stmt} {r : Reply s}
    (h : exec rounding others s c e l = some (r, e', l')) :
    e'.sessions = e.sessions ∨ ∃ tokenHash session ttl, s = .createSession tokenHash session ttl ∧
      e'.sessions = (tokenHash, session, e.clock.ns + ttl) :: e.sessions := by
  cases s with
  | now | random | readRandom | mapOrder | lookup | audit | getSession | verifyCertificate =>
    cases h
    exact .inl rfl
  | findTransactionByIdempotencyKey | beginTx | commit | rollback | insertUsedNonce =>
    simp only [exec] at h
    repeat' split at h
    all_goals
      cases h
      exact .inl rfl
  | setNX key ttl =>
    simp only [exec] at h
    split at h
    · cases h
      exact .inl rfl
    · cases h
      left
      split <;> rfl
  | query q => exact .inl (by rw [(inTx_cases h).1])
  | createSession tokenHash session ttl =>
    simp only [exec] at h
    split at h
    · cases h
      exact .inl rfl
    · cases h
      exact .inr ⟨tokenHash, session, ttl, rfl, rfl⟩

variable {h : Handler} {clock : Instant} {s : State (handlerMachine h rounding)}

/-- **Every session that Redis has was stored by a call.** -/
theorem sessions_stored (hs : Reachable (Env.initial clock) s) :
    ∀ tokenHash session expires, (tokenHash, session, expires) ∈ s.env.sessions →
      ∃ i ttl e r, s.Issued i ⟨Stmt.createSession tokenHash session ttl, e, r⟩ := by
  refine hs.induct (P := fun s : State (handlerMachine h rounding) =>
    ∀ tokenHash session expires, (tokenHash, session, expires) ∈ s.env.sessions →
      ∃ i ttl e r, s.Issued i ⟨Stmt.createSession tokenHash session ttl, e, r⟩) ?_ ?_
  · intro tokenHash session expires hmem
    cases hmem
  intro s t a _ ih hn tokenHash session expires hmem
  have hold : (tokenHash, session, expires) ∈ s.env.sessions →
      ∃ i ttl e r, t.Issued i ⟨Stmt.createSession tokenHash session ttl, e, r⟩ := by
    intro hmem
    obtain ⟨i, ttl, e, r, hissued⟩ := ih tokenHash session expires hmem
    exact ⟨i, ttl, e, r, ((Leads.refl s).next hn).issued hissued⟩
  obtain ⟨i, q, rfl, -, rfl⟩ | ⟨i, choice, q, st, k, loc, log, r, env, loc', rfl, hi, hx, rfl⟩ |
    ⟨m, env, rfl, hm, rfl⟩ := next_cases hn
  · exact hold hmem
  · rcases exec_sessions hx with heq | ⟨tokenHash', session', ttl, rfl, heq⟩
    · exact hold (heq ▸ hmem)
    · -- the session is the one this step stores, or an earlier one
      have hmem : (tokenHash, session, expires) ∈
          (tokenHash', session', s.env.clock.ns + ttl) :: s.env.sessions := heq ▸ hmem
      rcases List.mem_cons.mp hmem with hnew | hmem
      · obtain ⟨rfl, rfl, -⟩ := hnew
        refine ⟨i, ttl, s.env, r, _, State.call_put_self _ _ _, ?_⟩
        exact List.mem_append_right _ (List.mem_singleton_self _)
      · exact hold hmem
  · simp only at hm
    split at hm
    · cases hm
      exact hold hmem
    · cases hm

end Stored

/-! ## Accepted sessions -/

section Accepted

variable {h : Handler} {rounding : Rounding} {clock : Instant}
  {s : State (handlerMachine h rounding)}

/-- What a call that accepted a session has issued: it read the session's text and the clock. -/
theorem returns_requireAdminSession {rawToken : String} {session : AdminSession}
    {log : Log rounding}
    (hret : Program.Returns (W := world rounding) (h.program (.requireAdminSession rawToken)) log
      (.requireAdminSession (.ok session))) :
    ∃ e encoded now reply, log = [⟨Stmt.getSession (h.svc.hexHash (utf8 rawToken)), e,
        Except.ok (some encoded)⟩, ⟨Stmt.now, now, reply⟩] ∧
      unmarshal AdminSession.fields encoded ⟨"", "", "", 0⟩ = some session ∧
      Handler.sessionExpired session reply.time = false ∧ session.role = "bank_admin" := by
  obtain ⟨before, a, after, rfl, hbody, hafter⟩ := Program.returns_bind.mp hret
  obtain ⟨rfl, ha⟩ := Program.returns_ret.mp hafter
  obtain rfl := ApResult.requireAdminSession.inj ha
  rw [List.append_nil]
  unfold Handler.requireAdminSession at hbody
  split at hbody
  · cases (Program.returns_ret.mp hbody).2
  obtain ⟨e, reply, tail, rfl, hreply⟩ := Program.returns_issue.mp hbody
  rcases reply with _ | _ | encoded
  · cases (Program.returns_ret.mp hreply).2
  · cases (Program.returns_ret.mp hreply).2
  have hcheck : Program.Returns (W := world rounding) (Handler.checkSession encoded) tail
      (.ok session) := hreply
  unfold Handler.checkSession at hcheck
  split at hcheck
  · next session' hsession =>
    obtain ⟨now, reply, tail, rfl, hrest⟩ := Program.returns_issue.mp hcheck
    cases hexpired : Handler.sessionExpired session' (Instant.time reply) with
    | true =>
      rw [if_pos hexpired] at hrest
      cases (Program.returns_ret.mp hrest).2
    | false =>
      rw [hexpired, if_neg Bool.false_ne_true] at hrest
      by_cases hrole : session'.role = "bank_admin"
      · rw [if_neg (not_not.mpr hrole)] at hrest
        obtain ⟨rfl, ha⟩ := Program.returns_ret.mp hrest
        obtain rfl := Except.ok.inj ha
        exact ⟨e, encoded, now, reply, rfl, hsession, hexpired, hrole⟩
      · rw [if_pos hrole] at hrest
        cases (Program.returns_ret.mp hrest).2
  · cases (Program.returns_ret.mp hcheck).2

/-- The environments of a call's statements are in the order of the clock. -/
theorem log_clock (hs : Reachable (Env.initial clock) s) {i : ℕ}
    {c : Call (handlerMachine h rounding)} (hc : s.call i = some c) :
    c.log.Pairwise (fun ev ev' => ev.env.clock ≤ ev'.env.clock) ∧
      ∀ ev ∈ c.log, ev.env.clock ≤ s.env.clock := by
  refine hs.log_ordered (R := fun e e' : Env => e.clock ≤ e'.clock)
    (fun _ _ _ => Instant.le_trans) ?_ ?_ hc
  · intro others st c e l r e' l' hx
    exact exec_clock hx ▸ Instant.le_refl _
  · intro m e e' hm
    simp only at hm
    split at hm
    · next hle =>
      cases hm
      exact hle
    · cases hm

/-- A text that was read from Redis is that of a session Redis has. -/
theorem session_mem {e : Env} {tokenHash : String} {encoded : List UInt8}
    (h : e.session tokenHash = some encoded) :
    ∃ session expires, (tokenHash, session, expires) ∈ e.sessions ∧ encoded = session.marshal := by
  simp only [Env.session, Option.map_eq_some_iff, Option.filter_eq_some_iff] at h
  obtain ⟨⟨tokenHash', session, expires⟩, ⟨hfind, -⟩, rfl⟩ := h
  have hhash : tokenHash' = tokenHash := by simpa using List.find?_some hfind
  subst hhash
  exact ⟨session, expires, List.mem_of_find?_eq_some hfind, rfl⟩

/-- The expiry of a ticket is a number of seconds. -/
theorem expires_of_decryptTicket {ciphertext : List UInt8} {ticket : TicketInfo}
    (ht : h.decryptTicket ciphertext = some ticket) :
    ticket.expires = .unix ticket.expires.toUnix := by
  simp only [Handler.decryptTicket, Option.bind_eq_bind, Option.bind_eq_some_iff] at ht
  obtain ⟨plain, -, t, -, ht⟩ := ht
  split at ht
  · cases ht
  · cases ht
    simp [Time.unix, Time.toUnix]

/-- **Sound sessions.** In every state that interleaved calls of the handler can reach, every
session that was accepted for a token was opened for it, and the ticket has not expired at the
time at which it was accepted. -/
theorem admin_session_sound (h : Handler) (rounding : Rounding) (clock : Instant)
    (s : State (handlerMachine h rounding)) (hs : Reachable (Env.initial clock) s) (i : ℕ)
    (rawToken : String) (session : AdminSession)
    (hq : s.request i = some (ApRequest.requireAdminSession rawToken))
    (hr : s.result i = some (ApResult.requireAdminSession (.ok session))) :
    ∃ (now : Env) (j : ℕ) (c : Call (handlerMachine h rounding))
      (ticketV authenticator : List UInt8) (x : ApExchange) (bytes : List UInt8),
      s.Issued i ⟨Stmt.now, now, now.clock⟩ ∧ s.call j = some c ∧
        SessionOrigin h c rawToken session now.clock ticketV authenticator x bytes := by
  obtain ⟨c, hc, hrequest⟩ := Option.map_eq_some_iff.mp hq
  have hresult : c.rest.result = some (ApResult.requireAdminSession (.ok session)) := by
    rw [State.result, hc] at hr
    exact hr
  have hret := hs.returns hc hresult
  rw [hrequest] at hret
  obtain ⟨e, encoded, now, reply, hlog, hsession, hexpired, -⟩ := returns_requireAdminSession hret
  have hread : s.Issued i ⟨Stmt.getSession (h.svc.hexHash (utf8 rawToken)), e,
      Except.ok (some encoded)⟩ := ⟨c, hc, by simp [hlog]⟩
  have hnow : s.Issued i ⟨Stmt.now, now, reply⟩ := ⟨c, hc, by simp [hlog]⟩
  -- the clock was read after the session
  obtain ⟨_, _, _, _, _, hx⟩ := hs.log_exec hnow
  obtain rfl : now.clock = reply := (Prod.mk.inj (Option.some.inj hx)).1
  have hle : e.clock ≤ now.clock := by
    have hpair := (log_clock hs hc).1
    rw [hlog] at hpair
    exact List.rel_of_pairwise_cons hpair (List.mem_singleton_self _)
  -- the session was in Redis when it was read
  obtain ⟨_, choice, _, _, _, hx⟩ := hs.log_exec hread
  have htext : e.session (h.svc.hexHash (utf8 rawToken)) = some encoded := by
    have hreply : (if choice.fail = true then Except.error () else
        Except.ok (e.session (h.svc.hexHash (utf8 rawToken)))) = Except.ok (some encoded) :=
      (Prod.mk.inj (Option.some.inj hx)).1
    split at hreply
    · cases hreply
    · exact Except.ok.inj hreply
  obtain ⟨stored, expires, hmem, rfl⟩ := session_mem htext
  obtain rfl : stored = session := Option.some.inj ((unmarshal_marshal stored).symm.trans hsession)
  obtain ⟨u, hu, hleads, rfl⟩ := hs.issued_from hread
  -- and a call had stored it on the evidence it had
  obtain ⟨j, ttl, e₁, r, cⱼ, hcⱼ, hev⟩ := sessions_stored hu _ _ _ hmem
  obtain ⟨before, after, hsplit⟩ := List.append_of_mem hev
  obtain ⟨_, ticketV, authenticator, x, bytes, hqⱼ, hopened, htoken, hsame⟩ :=
    (handler_kept h rounding).issued_under hu hcⱼ hsplit
  obtain ⟨c', hc', hq', hlog'⟩ := hleads.call hcⱼ
  have hpre : before <+: cⱼ.log := ⟨_, hsplit.symm⟩
  refine ⟨now, j, c', ticketV, authenticator, x, bytes, hnow, hc', ?_⟩
  have hticket := expires_of_decryptTicket hopened.passed.ticket
  exact {
    request := hq'.trans hqⱼ
    opened := hopened.mono (hpre.trans hlog')
    token := htoken
    admin := by rw [hsame]; rfl
    cert := by rw [hsame]; rfl
    scope := hopened.passed.scope
    owner := by
      rw [hsame]
      by_cases hempty : x.cert.ownerId = ""
      · exact .inl hempty
      · exact .inr (not_not.mp fun hne => hopened.passed.owner ⟨hempty, hne⟩)
    role := hopened.role
    before := by
      intro ev hev
      have hin := hpre.subset (hopened.issued.subset hev)
      exact Instant.le_trans ((log_clock hu hcⱼ).2 ev hin) hle
    expires := by rw [hsame]; exact hticket
    unexpired := by
      rw [Handler.sessionExpired, decide_eq_false_iff_not, Int64.le_iff_toInt_le, not_le,
        toInt_toUnix_time] at hexpired
      rw [second] at hexpired ⊢
      omega }

end Accepted

/-! ## A sample session -/

section Sample

/-- The token that is drawn when all random bytes are zero. -/
def sampleToken : String := "AAAAAAAAAAAAAAAAAAAAAAAAAAAAAAAAAAAAAAAAAAA"

/-- An administrator presents a ticket that expires in five minutes, and uses the token once. -/
def sampleAdmitted : List (Act (handlerMachine sampleHandler .cut)) :=
  .spawn 0 (.createAdminSession (sampleTicket scopeAdminRead 1700000300)
      (sampleAuthenticator 1700000000)) ::
    List.replicate 10 (.run 0 { cert := .ok { sampleCert with role := .bankAdmin } : Choice }) ++
    .spawn 1 (.requireAdminSession sampleToken) :: List.replicate 2 (.run 1 {})

/-- The session that a call accepted. -/
def ApResult.accepted : ApResult → Option AdminSession
  | .requireAdminSession (.ok session) => some session
  | _ => none

theorem eq_of_accepted {result : ApResult} {session : AdminSession}
    (h : result.accepted = some session) : result = .requireAdminSession (.ok session) := by
  unfold ApResult.accepted at h
  split at h
  · rw [Option.some.inj h]
  · cases h

theorem sampleAdmitted_runs : ∃ s, Steps handlerStart sampleAdmitted s ∧
    (s.request 1, (s.result 1).bind ApResult.accepted) =
      (some (ApRequest.requireAdminSession sampleToken),
        some ⟨sampleUser 1, "01", "bank_admin", 1700000300⟩) :=
  steps_of_view (by decide +kernel)

/-- The sample session was opened for its token. -/
theorem admin_session_sound_of_sample : ∃ s, Steps handlerStart sampleAdmitted s ∧
    ∃ (now : Env) (j : ℕ) (c : Call (handlerMachine sampleHandler .cut))
      (ticketV authenticator : List UInt8) (x : ApExchange) (bytes : List UInt8),
      s.Issued 1 ⟨Stmt.now, now, now.clock⟩ ∧ s.call j = some c ∧
        SessionOrigin sampleHandler c sampleToken ⟨sampleUser 1, "01", "bank_admin", 1700000300⟩
          now.clock ticketV authenticator x bytes := by
  obtain ⟨s, hs, hview⟩ := sampleAdmitted_runs
  obtain ⟨hrequest, haccepted⟩ := Prod.mk.inj hview
  obtain ⟨result, hresult, haccepted⟩ := Option.bind_eq_some_iff.mp haccepted
  obtain rfl := eq_of_accepted haccepted
  exact ⟨s, hs, admin_session_sound sampleHandler .cut sampleClock s ⟨_, hs⟩ 1 sampleToken _
    hrequest hresult⟩

end Sample

end Bank
