import MiniBanking.Kdc.TgsExchange

/-!
# Replays at the KDC

Both exchanges mark a request in Redis and reject it when its key is there. The marker of an AS
request lives as long as the freshness window, counted from the marking, but the request stays
fresh for that long after its own timestamp: it can be presented again if the timestamp was ahead
of the clock. The marker of a TGS request has a lifetime of its own.

## Main definitions

* `GrantedTGT`, `GrantedTicket`: a call obtained a ticket
* `MarkedAfterTimestamp`, `MarkedForLife`: the runs in which the markers last long enough
* `NoASReplay`, `NoTGSReplay`: nothing is granted twice

## Main results

* `as_replay_safety`, `tgs_replay_safety`: in such runs nothing is granted twice
-/

namespace Kdc

open Concurrency Go Kerberos

variable {s : Service} {e₀ : Env} {t : State (kdcMachine s)}

/-! ## The AS exchange -/

/-- Call `i` obtained a ticket-granting ticket for a request. -/
def GrantedTGT (t : State (kdcMachine s)) (i : ℕ) (q : ASRequest) : Prop :=
  ∃ c ctx asRep expiry, t.call i = some c ∧ c.request = .issueTGT ctx q ∧
    c.rest.result = some (.issueTGT (.ok (asRep, expiry)))

/-- Requests with one owner, one nonce and one timestamp are the same to the replay check. -/
def ASRequest.Repeats (q q' : ASRequest) : Prop :=
  q.ownerID = q'.ownerID ∧ q.nonce = q'.nonce ∧ q.timestamp = q'.timestamp

/-- No AS request is accepted twice. -/
def NoASReplay (t : State (kdcMachine s)) : Prop :=
  ∀ i j q q', GrantedTGT t i q → GrantedTGT t j q' → q.Repeats q' → i = j

/-- Every AS request that is marked is marked when its timestamp is past, but not for longer than
the window. -/
def MarkedAfterTimestamp (t : State (kdcMachine s)) : Prop :=
  ∀ i c ctx q e, t.call i = some c → c.request = .issueTGT ctx q →
    marked (s.asReplayKey q.ownerID q.nonce q.timestamp) s.as.timestampWindow e ∈ c.log →
      q.timestamp.toInt * second < e.clock.ns ∧
        e.clock.ns ≤ q.timestamp.toInt * second + s.as.timestampWindow.toInt

/-- A request that obtained a ticket was marked. -/
theorem GrantedTGT.marked (ht : Reachable e₀ t) {i : ℕ} {q : ASRequest} (h : GrantedTGT t i q) :
    ∃ c ctx e, t.call i = some c ∧ c.request = .issueTGT ctx q ∧
      marked (s.asReplayKey q.ownerID q.nonce q.timestamp) s.as.timestampWindow e ∈ c.log := by
  obtain ⟨c, ctx, asRep, expiry, hc, hq, hr⟩ := h
  obtain ⟨x, hlog, -⟩ := issued_TGT ht hc hq hr
  exact ⟨c, ctx, x.mark, hc, hq, hlog.subset (by simp [ASExchange.log])⟩

/-- **AS replay safety.** In every state that interleaved calls can reach, if every request was
marked after its timestamp and within the window, no request was accepted twice. -/
theorem as_replay_safety (s : Service) (e₀ : Env) (t : State (kdcMachine s))
    (ht : Reachable e₀ t) (hmarked : MarkedAfterTimestamp t) : NoASReplay t := by
  rintro i j q q' h h' ⟨howner, hnonce, htimestamp⟩
  by_contra hij
  obtain ⟨c, ctx, e, hc, hq, hmark⟩ := h.marked ht
  obtain ⟨c', ctx', e', hc', hq', hmark'⟩ := h'.marked ht
  have hin := hmarked i c ctx q e hc hq hmark
  have hin' := hmarked j c' ctx' q' e' hc' hq' hmark'
  rw [← howner, ← hnonce, ← htimestamp] at hmark'
  rw [← htimestamp] at hin'
  -- the later marking comes after the marker of the earlier one, and so after the window
  obtain hlate | hlate := marked_apart ht hij ⟨c, hc, hmark⟩ ⟨c', hc', hmark'⟩
  · omega
  · omega

/-! ## The TGS exchange -/

/-- Call `i` obtained a service ticket for a request. -/
def GrantedTicket (t : State (kdcMachine s)) (i : ℕ) (req : TGSRequest) : Prop :=
  ∃ c ctx resp, t.call i = some c ∧ c.request = .requestServiceTicket ctx req ∧
    c.rest.result = some (.requestServiceTicket (.ok resp))

/-- No ticket-granting ticket and authenticator obtain a service ticket twice. -/
def NoTGSReplay (t : State (kdcMachine s)) : Prop :=
  ∀ i j req req', GrantedTicket t i req → GrantedTicket t j req' →
    req.tgtCiphertext = req'.tgtCiphertext → req.authenticator = req'.authenticator → i = j

/-- Every TGS request that is marked is marked before its ticket-granting ticket expires and within
the window of its authenticator, and one of the two is over before the marker is. -/
def MarkedForLife (t : State (kdcMachine s)) : Prop :=
  ∀ i c ctx req tgt auth e, t.call i = some c → c.request = .requestServiceTicket ctx req →
    s.openTGT req.tgtCiphertext = .ok tgt →
    s.decryptAuthenticator tgt.kctgs req.authenticator = .ok auth →
    marked (s.tgsReplayKey tgt.clientID auth.nonceReq auth.timestamp req.serviceID auth.requestID)
      s.tgs.replayTTL e ∈ c.log →
      e.clock.time.ns < (Time.unix tgt.expiry).ns ∧
      e.clock.ns ≤ auth.timestamp.toInt * second + s.tgs.timestampWindow.toInt ∧
      ((Time.unix tgt.expiry).ns ≤ e.clock.time.ns + s.tgs.replayTTL.toInt ∨
        auth.timestamp.toInt * second + s.tgs.timestampWindow.toInt <
          e.clock.ns + s.tgs.replayTTL.toInt)

/-- A request that obtained a service ticket was marked, under a key of its ticket-granting ticket
and its authenticator. -/
theorem GrantedTicket.marked (ht : Reachable e₀ t) {i : ℕ} {req : TGSRequest}
    (h : GrantedTicket t i req) :
    ∃ c ctx tgt auth e, t.call i = some c ∧ c.request = .requestServiceTicket ctx req ∧
      s.openTGT req.tgtCiphertext = .ok tgt ∧
      s.decryptAuthenticator tgt.kctgs req.authenticator = .ok auth ∧
      auth.requestedService = req.serviceID ∧
      marked (s.tgsReplayKey tgt.clientID auth.nonceReq auth.timestamp req.serviceID
        auth.requestID) s.tgs.replayTTL e ∈ c.log := by
  obtain ⟨c, ctx, resp, hc, hq, hr⟩ := h
  obtain ⟨x, hlog, hx⟩ := issued_ticket ht hc hq hr
  exact ⟨c, ctx, x.tgt, x.auth, x.mark, hc, hq, hx.tgt, hx.auth, hx.service,
    hlog.subset (by simp [TGSExchange.log, TGSExchange.replayKey])⟩

/-- **TGS replay safety.** In every state that interleaved calls can reach, if every request was
marked in time and its marker outlives its ticket-granting ticket or its freshness, no
ticket-granting ticket and authenticator obtained a service ticket twice. -/
theorem tgs_replay_safety (s : Service) (e₀ : Env) (t : State (kdcMachine s))
    (ht : Reachable e₀ t) (hmarked : MarkedForLife t) : NoTGSReplay t := by
  intro i j req req' h h' htgt hauth
  by_contra hij
  obtain ⟨c, ctx, tgt, auth, e, hc, hq, hopen, hdecrypt, hservice, hmark⟩ := h.marked ht
  obtain ⟨c', ctx', tgt', auth', e', hc', hq', hopen', hdecrypt', hservice', hmark'⟩ :=
    h'.marked ht
  obtain ⟨hexpiry, hwindow, hlife⟩ := hmarked i c ctx req tgt auth e hc hq hopen hdecrypt hmark
  obtain ⟨hexpiry', hwindow', hlife'⟩ :=
    hmarked j c' ctx' req' tgt' auth' e' hc' hq' hopen' hdecrypt' hmark'
  -- both calls read the same ticket-granting ticket and the same authenticator
  obtain rfl : tgt = tgt' := by
    rw [← htgt, hopen] at hopen'
    exact Except.ok.inj hopen'
  obtain rfl : auth = auth' := by
    rw [← hauth, hdecrypt] at hdecrypt'
    exact Except.ok.inj hdecrypt'
  rw [← hservice', hservice] at hmark'
  rw [ns_time] at hexpiry hlife hexpiry' hlife'
  obtain hlate | hlate := marked_apart ht hij ⟨c, hc, hmark⟩ ⟨c', hc', hmark'⟩
  · omega
  · omega

/-! ## Sample runs -/

section Sample

variable {tgtTTL : Duration} {t : State (kdcMachine (sampleService tgtTTL))} {i : ℕ}

/-- What a call was asked for, and whether it obtained a ticket of a kind. -/
def grantView (grants : KdcResult → Bool) (t : State (kdcMachine (sampleService tgtTTL)))
    (i : ℕ) : Option KdcRequest × Option Bool :=
  (t.request i, (t.result i).map grants)

theorem call_of_grantView {grants : KdcResult → Bool} {q : KdcRequest}
    (h : grantView grants t i = (some q, some true)) :
    ∃ c r, t.call i = some c ∧ c.request = q ∧ c.rest.result = some r ∧ grants r = true := by
  obtain ⟨hq, hr⟩ := Prod.mk.inj h
  obtain ⟨c, hc, hq⟩ := Option.map_eq_some_iff.mp hq
  obtain ⟨r, hr, hgrants⟩ := Option.map_eq_some_iff.mp hr
  obtain ⟨c', hc', hr⟩ := Option.bind_eq_some_iff.mp hr
  obtain rfl := Option.some.inj (hc.symm.trans hc')
  exact ⟨c, r, hc, hq, hr, hgrants⟩

theorem grantedTGT_of_grantView {ctx : AuditMeta} {q : ASRequest}
    (h : grantView KdcResult.grantsTGT t i = (some (.issueTGT ctx q), some true)) :
    GrantedTGT t i q := by
  obtain ⟨c, r, hc, hq, hr, hgrants⟩ := call_of_grantView h
  obtain ⟨asRep, expiry, rfl⟩ := eq_of_grantsTGT hgrants
  exact ⟨c, ctx, asRep, expiry, hc, hq, hr⟩

theorem grantedTicket_of_grantView {ctx : AuditMeta} {req : TGSRequest}
    (h : grantView KdcResult.grantsTicket t i = (some (.requestServiceTicket ctx req), some true)) :
    GrantedTicket t i req := by
  obtain ⟨c, r, hc, hq, hr, hgrants⟩ := call_of_grantView h
  obtain ⟨resp, rfl⟩ := eq_of_grantsTicket hgrants
  exact ⟨c, ctx, resp, hc, hq, hr⟩

/-- Every marking was made at the sample clock, as a computation. -/
def markedAtOnce (t : State (kdcMachine (sampleService tgtTTL))) : Bool :=
  t.calls.entries.all fun c => c.2.log.all fun
    | ⟨.setNX _ _, e, .ok true⟩ => decide (e.clock = sampleClock)
    | _ => true

theorem clock_of_markedAtOnce (h : markedAtOnce t = true)
    {c : Call (kdcMachine (sampleService tgtTTL))} (hc : t.call i = some c) {key : String}
    {ttl : Duration} {e : Env} (hmem : marked key ttl e ∈ c.log) : e.clock = sampleClock :=
  of_decide_eq_true (List.all_eq_true.mp
    (List.all_eq_true.mp h ⟨i, c⟩ (AList.mem_lookup_iff.mp hc)) _ hmem)

/-- A request is presented twice, the second time five minutes after the first. -/
def presentedTwice (q : KdcRequest) (n : ℕ) : List (Act (kdcMachine (sampleService tgtTTL))) :=
  sampleCall 0 q n ++ [.tick (Instant.mk 1700000300000000000 (by decide))] ++ sampleCall 1 q n

/-- A request whose timestamp is ten seconds ahead of the clock is accepted twice. -/
theorem as_replay_safety_of_ahead :
    ¬ ∀ (s : Service) (e₀ : Env) (t : State (kdcMachine s)), Reachable e₀ t → NoASReplay t := by
  intro hall
  obtain ⟨t, hsteps, hview⟩ : ∃ t, Steps (sampleStart fiveMinutes)
      (presentedTwice (sampleAS 1700000010) 12) t ∧
      (grantView KdcResult.grantsTGT t 0, grantView KdcResult.grantsTGT t 1) =
        ((some (sampleAS 1700000010), some true), (some (sampleAS 1700000010), some true)) :=
    steps_of_view (by decide +kernel)
  obtain ⟨h, h'⟩ := Prod.mk.inj hview
  have heq := hall (sampleService fiveMinutes) _ t ⟨_, hsteps⟩ 0 1 _ _
    (grantedTGT_of_grantView h) (grantedTGT_of_grantView h') ⟨rfl, rfl, rfl⟩
  exact absurd heq (by decide)

/-- A request whose timestamp is one second past is accepted once. -/
theorem as_replay_safety_of_past : ∃ t : State (kdcMachine (sampleService fiveMinutes)),
    (∃ q, GrantedTGT t 0 q) ∧ NoASReplay t := by
  obtain ⟨t, hsteps, hview⟩ : ∃ t, Steps (sampleStart fiveMinutes)
      (sampleCall 0 (sampleAS 1699999999) 12 ++ sampleCall 1 (sampleAS 1699999999) 3) t ∧
      (grantView KdcResult.grantsTGT t 0, t.calls.entries.all fun c =>
        c.2.request = sampleAS 1699999999, markedAtOnce t) =
        ((some (sampleAS 1699999999), some true), true, true) :=
    steps_of_view (by decide +kernel)
  simp only [Prod.mk.injEq] at hview
  obtain ⟨hgranted, hsame, honce⟩ := hview
  refine ⟨t, ⟨_, grantedTGT_of_grantView hgranted⟩,
    as_replay_safety (sampleService fiveMinutes) _ t ⟨_, hsteps⟩ ?_⟩
  intro i c ctx q e hc hq hmark
  have hreq := of_decide_eq_true
    (List.all_eq_true.mp hsame ⟨i, c⟩ (AList.mem_lookup_iff.mp hc))
  rw [hq] at hreq
  cases hreq
  rw [clock_of_markedAtOnce honce hc hmark]
  decide

/-- One hour. -/
def oneHour : Duration := 3600000000000

/-- An authenticator whose timestamp is ten seconds ahead of the clock obtains two service tickets
for a ticket-granting ticket of one hour. -/
theorem tgs_replay_safety_of_oneHour :
    ¬ ∀ (s : Service) (e₀ : Env) (t : State (kdcMachine s)), Reachable e₀ t → NoTGSReplay t := by
  intro hall
  obtain ⟨t, hsteps, hview⟩ : ∃ t, Steps (sampleStart oneHour)
      (presentedTwice (sampleTGS oneHour "01" 1700000010) 11) t ∧
      (grantView KdcResult.grantsTicket t 0, grantView KdcResult.grantsTicket t 1) =
        ((some (sampleTGS oneHour "01" 1700000010), some true),
          (some (sampleTGS oneHour "01" 1700000010), some true)) :=
    steps_of_view (by decide +kernel)
  obtain ⟨h, h'⟩ := Prod.mk.inj hview
  have heq := hall (sampleService oneHour) _ t ⟨_, hsteps⟩ 0 1 _ _
    (grantedTicket_of_grantView h) (grantedTicket_of_grantView h') rfl rfl
  exact absurd heq (by decide)

/-- What the sample ticket-granting ticket and authenticator say. -/
theorem sampleTGS_opens :
    ((sampleService fiveMinutes).openTGT (sampleTGT fiveMinutes)).toOption.map
      (fun tgt => (tgt.kctgs, tgt.expiry)) = some (List.replicate 32 0, 1700000300) ∧
    ((sampleService fiveMinutes).decryptAuthenticator (List.replicate 32 0)
      (sampleAuthenticator 1700000010)).toOption.map (·.timestamp) = some 1700000010 := by
  decide +kernel

/-- For a ticket-granting ticket of five minutes it obtains one. -/
theorem tgs_replay_safety_of_fiveMinutes :
    ∃ t : State (kdcMachine (sampleService fiveMinutes)),
      (∃ req, GrantedTicket t 0 req) ∧ NoTGSReplay t := by
  obtain ⟨t, hsteps, hview⟩ : ∃ t, Steps (sampleStart fiveMinutes)
      (sampleCall 0 (sampleTGS fiveMinutes "01" 1700000010) 11 ++
        sampleCall 1 (sampleTGS fiveMinutes "01" 1700000010) 4) t ∧
      (grantView KdcResult.grantsTicket t 0, t.calls.entries.all fun c =>
        c.2.request = sampleTGS fiveMinutes "01" 1700000010, markedAtOnce t) =
        ((some (sampleTGS fiveMinutes "01" 1700000010), some true), true, true) :=
    steps_of_view (by decide +kernel)
  simp only [Prod.mk.injEq] at hview
  obtain ⟨hgranted, hsame, honce⟩ := hview
  refine ⟨t, ⟨_, grantedTicket_of_grantView hgranted⟩,
    tgs_replay_safety (sampleService fiveMinutes) _ t ⟨_, hsteps⟩ ?_⟩
  intro i c ctx req tgt auth e hc hq hopen hdecrypt hmark
  have hreq := of_decide_eq_true
    (List.all_eq_true.mp hsame ⟨i, c⟩ (AList.mem_lookup_iff.mp hc))
  rw [hq] at hreq
  cases hreq
  obtain ⟨hsay, hsay'⟩ := sampleTGS_opens
  rw [hopen] at hsay
  obtain ⟨hkey, hexpiry⟩ := Prod.mk.inj (Option.some.inj hsay)
  rw [hkey] at hdecrypt
  rw [hdecrypt] at hsay'
  have htimestamp : auth.timestamp = 1700000010 := Option.some.inj hsay'
  rw [clock_of_markedAtOnce honce hc hmark, hexpiry, htimestamp]
  decide

end Sample

end Kdc
