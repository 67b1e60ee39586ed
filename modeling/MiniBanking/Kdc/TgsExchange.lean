import MiniBanking.Kdc.Returns

/-!
# Issuance of service tickets

A service ticket is issued for a ticket-granting ticket of the AS, to its client, with a scope that
authenticator and request agree on, for a certificate that the CA reports usable. What is missing
is the tie between ticket-granting ticket and certificate: the request may name another serial
number, a certificate without an owner passes, and the role of a CA administrator is taken for
that of a customer.

## Main definitions

* `MayHold`: the scopes that the holder of a role of the CA may have
* `Unforgeable`: every ticket-granting ticket that opens was sealed by the AS
* `TGSExchange.Checked`, `TGSExchange.Sound`: what holds of every service ticket, and what should

## Main results

* `openTGT_sealed`: what the TGS reads from a ticket-granting ticket is what the AS wrote
* `tgs_issuance_sound`: exactly which service tickets are sound
-/

namespace Kdc

open Concurrency Go Kerberos

/-! ## Soundness -/

/-- The scopes that the holder of a role of the CA may have. A certificate without a role is from
before there were roles, and counts as a customer's. -/
def MayHold : Bank.IdentityRole → String → Prop
  | .bankAdmin, scope => scope = "bank-admin:read"
  | .customer, scope | .unknown, scope =>
    scope = "transfer:create" ∨ scope = "balance:read" ∨ scope = "history:read"
  | .caAdmin, _ => False

/-- The call has read a session key and the clock for a ticket-granting ticket with this text. -/
def SealedTGT (s : Service) (c : Call (kdcMachine s)) (q : ASRequest) (plain : List UInt8) :
    Prop :=
  ∃ ctx sessionKey e e', c.request = .issueTGT ctx q ∧
    randomRead aes256KeySize e sessionKey ∈ c.log ∧ clockRead e' e'.clock ∈ c.log ∧
    plain = Json.marshalStruct (s.tgtPayload q.ownerID q.certSn sessionKey e'.clock).members

/-- Every ticket-granting ticket that is presented and opens was sealed by a call of the AS. -/
def Unforgeable (s : Service) (t : State (kdcMachine s)) : Prop :=
  ∀ i c ctx req plain, t.call i = some c → c.request = .requestServiceTicket ctx req →
    s.crypto.decryptBytes s.tgs.tgsKey.1 req.tgtCiphertext = some plain →
      ∃ j c' q, t.call j = some c' ∧ SealedTGT s c' q plain

/-- What holds of every service ticket: it names the client of the ticket-granting ticket, whose
owner the AS was asked for, the scope is the one of the authenticator and the request, the CA
reported the certificate of the ticket usable, and the reply has the ticket. -/
structure TGSExchange.Checked (x : TGSExchange) (s : Service) (req : TGSRequest)
    (resp : TGSResponse) (q : ASRequest) : Prop where
  tgt : s.openTGT req.tgtCiphertext = .ok x.tgt
  tgt_client : x.tgt.clientID = q.ownerID
  tgt_serial : x.tgt.certSN = q.certSn
  auth : s.decryptAuthenticator x.tgt.kctgs req.authenticator = .ok x.auth
  client : (x.ticket s req).clientID = x.tgt.clientID
  auth_client : x.auth.clientID = x.tgt.clientID
  auth_scope : x.auth.scope = req.requestedScope
  scope : (x.ticket s req).scope = req.requestedScope
  looked_up : (x.ticket s req).certSN = Service.lookupSerial x.tgt req
  reported : s.crypto.certificateOf (x.ticket s req).certSN x.resp = some x.cert
  usable : x.cert.Usable x.third.clock.time
  ticket : s.crypto.decryptBytes x.serviceKey.1 (x.reply s req).ticketV =
    some (Json.marshalStruct (x.ticket s req).members)
  service : s.tgs.serviceKeys.lookup req.serviceID = some x.serviceKey
  reply : s.crypto.decryptBytes x.tgt.kctgs resp.encryptedPayload =
    some (Json.marshalStruct (x.reply s req).members)

/-- What should hold besides: the serial number of the ticket is the one that the ticket-granting
ticket was issued for, the CA reports the client as the owner of the certificate, and a role that
may have the scope. -/
structure TGSExchange.Sound (x : TGSExchange) (s : Service) (req : TGSRequest) (q : ASRequest) :
    Prop where
  serial : (x.ticket s req).certSN = q.certSn
  owned : x.resp.ownerId ≠ ""
  owner : x.resp.ownerId = x.tgt.clientID
  role : MayHold x.resp.role req.requestedScope

/-! ## Ticket-granting tickets -/

/-- **The TGS reads what the AS wrote.** -/
theorem openTGT_sealed {s : Service} {ciphertext : List UInt8} {clientId certSn : String}
    {kctgs : List UInt8} {issuedAt : Instant} {tgt : TGTPlaintext}
    (hplain : s.crypto.decryptBytes s.tgs.tgsKey.1 ciphertext =
      some (Json.marshalStruct (s.tgtPayload clientId certSn kctgs issuedAt).members))
    (hopen : s.openTGT ciphertext = .ok tgt) :
    tgt.clientID = clientId ∧ tgt.certSN = certSn ∧ tgt.kctgs = kctgs ∧
      tgt.expiry = s.tgtExpiry issuedAt := by
  have hread : s.crypto.decryptJSON TGTPlaintext.fields {} s.tgs.tgsKey.1 ciphertext =
      some ⟨clientId, certSn, kctgs, issuedAt.time.toUnix, s.tgtExpiry issuedAt,
        s.tgtExpiry issuedAt, ""⟩ := by
    simp only [Crypto.decryptJSON, hplain, Option.bind_eq_bind, Option.bind_some, parse_TGT,
      decode_TGT, Service.tgtPayload]
  simp only [Service.openTGT, hread] at hopen
  split at hopen
  all_goals
    split at hopen
    · cases hopen
    · cases hopen
      exact ⟨rfl, rfl, rfl, rfl⟩

/-- A ticket-granting ticket that opens has a client, a session key and an expiry. -/
theorem openTGT_ok {s : Service} {ciphertext : List UInt8} {tgt : TGTPlaintext}
    (h : s.openTGT ciphertext = .ok tgt) :
    tgt.clientID ≠ "" ∧ tgt.kctgs.length = aes256KeySize ∧ tgt.expiry ≠ 0 := by
  unfold Service.openTGT at h
  split at h
  · dsimp only at h
    generalize hset : (if _ = (0 : Int64) then _ else _ : TGTPlaintext) = set at h
    split at h
    · cases h
    · next hset =>
      cases h
      simpa only [not_or, not_not] using hset
  · cases h

/-- The scopes that the KDC allows a role are those that it may have, for the roles it knows. -/
theorem roleAllowsScope_iff {role : Bank.IdentityRole} {scope : String}
    (hrole : role ≠ .caAdmin) :
    roleAllowsScope (mapCAIdentityRole role) scope = true ↔ MayHold role scope := by
  cases role with
  | caAdmin => exact absurd rfl hrole
  | _ => simp [roleAllowsScope, mapCAIdentityRole, MayHold, or_assoc]

/-! ## Service tickets -/

variable {s : Service} {e₀ : Env} {t : State (kdcMachine s)} {i : ℕ} {c : Call (kdcMachine s)}
  {x : TGSExchange} {req : TGSRequest} {resp : TGSResponse} {q : ASRequest}

/-- The serial number of the ticket is the one that the certificate was looked up by. -/
theorem TGSExchange.Granted.serial (h : x.Granted s req resp) :
    (x.ticket s req).certSN = Service.lookupSerial x.tgt req := by
  obtain ⟨key, notBefore, notAfter, heq, -⟩ := certificateOf_some h.cert
  exact congrArg Certificate.serial heq

/-- What is granted for a ticket-granting ticket of the AS is as it was checked. -/
theorem TGSExchange.Granted.checked (hcrypto : s.crypto.Opens) (h : x.Granted s req resp)
    (hclient : x.tgt.clientID = q.ownerID) (hserial : x.tgt.certSN = q.certSn) :
    x.Checked s req resp q where
  tgt := h.tgt
  tgt_client := hclient
  tgt_serial := hserial
  auth := h.auth
  client := rfl
  auth_client := h.client
  auth_scope := h.scope
  scope := rfl
  looked_up := h.serial
  reported := by rw [h.serial, h.cert]
  usable := h.usable
  ticket := s.crypto.decryptBytes_encryptBytes hcrypto x.serviceKey.2 h.nonce_size _
  service := h.serviceKey
  reply := by
    rw [h.reply]
    exact s.crypto.decryptBytes_encryptBytes hcrypto (openTGT_ok h.tgt).2.1 h.rep_size _

/-- **Exactly which service tickets are sound**: those for the serial number of the
ticket-granting ticket, for a certificate with an owner that is not of a CA administrator. -/
theorem TGSExchange.Granted.sound_iff (h : x.Granted s req resp)
    (hserial : x.tgt.certSN = q.certSn) :
    x.Sound s req q ↔ (req.certSN = "" ∨ req.certSN = q.certSn) ∧ x.resp.ownerId ≠ "" ∧
      x.resp.role ≠ .caAdmin := by
  obtain ⟨key, notBefore, notAfter, heq, -⟩ := certificateOf_some h.cert
  have howner : x.cert.ownerID = x.resp.ownerId := congrArg Certificate.ownerID heq
  have hrole : x.cert.role = mapCAIdentityRole x.resp.role := congrArg Certificate.role heq
  have hsame : (x.ticket s req).certSN = q.certSn ↔ req.certSN = "" ∨ req.certSN = q.certSn := by
    rw [h.serial, Service.lookupSerial, hserial]
    split
    · next hempty => simp [hempty]
    · next hne => simp [hne]
  constructor
  · intro hsound
    refine ⟨hsame.mp hsound.serial, hsound.owned, fun hadmin => ?_⟩
    have hmay := hsound.role
    rw [hadmin] at hmay
    exact hmay
  · rintro ⟨hcert, howned, hnot⟩
    have hallows := h.role
    rw [hrole, roleAllowsScope_iff hnot] at hallows
    refine ⟨hsame.mpr hcert, howned, ?_, hallows⟩
    have hgranted := h.owner
    rw [howner] at hgranted
    exact hgranted.resolve_left howned

/-- **TGS issuance is sound but for three slips.** In every state that interleaved calls can reach,
if no ticket-granting ticket is forged, every call that issued a service ticket did so for a
ticket-granting ticket of the AS, as it was checked; and the ticket is sound exactly when the
request does not name another serial number, the CA reports an owner, and the certificate is not
of a CA administrator. -/
theorem tgs_issuance_sound (s : Service) (hcrypto : s.crypto.Opens) (e₀ : Env)
    (t : State (kdcMachine s)) (ht : Reachable e₀ t) (hunforgeable : Unforgeable s t) (i : ℕ)
    (c : Call (kdcMachine s)) (hc : t.call i = some c) (ctx : AuditMeta) (req : TGSRequest)
    (hq : c.request = .requestServiceTicket ctx req) (resp : TGSResponse)
    (hr : c.rest.result = some (.requestServiceTicket (.ok resp))) :
    ∃ (x : TGSExchange) (j : ℕ) (c' : Call (kdcMachine s)) (q : ASRequest) (plain : List UInt8),
      x.log s req <+: c.log ∧ t.call j = some c' ∧
      s.crypto.decryptBytes s.tgs.tgsKey.1 req.tgtCiphertext = some plain ∧
      SealedTGT s c' q plain ∧ x.Checked s req resp q ∧
      (x.Sound s req q ↔ (req.certSN = "" ∨ req.certSN = q.certSn) ∧ x.resp.ownerId ≠ "" ∧
        x.resp.role ≠ .caAdmin) := by
  obtain ⟨x, hlog, hgranted⟩ := issued_ticket ht hc hq hr
  obtain ⟨plain, hplain⟩ : ∃ plain,
      s.crypto.decryptBytes s.tgs.tgsKey.1 req.tgtCiphertext = some plain := by
    cases hplain : s.crypto.decryptBytes s.tgs.tgsKey.1 req.tgtCiphertext with
    | some plain => exact ⟨plain, rfl⟩
    | none =>
      have hopen := hgranted.tgt
      simp only [Service.openTGT, Crypto.decryptJSON, hplain, Option.bind_eq_bind,
        Option.bind_none] at hopen
      cases hopen
  obtain ⟨j, c', q, hc', hsealed⟩ := hunforgeable i c ctx req plain hc hq hplain
  have hwritten := hsealed
  obtain ⟨-, sessionKey, -, e', -, -, -, hmembers⟩ := hwritten
  rw [hmembers] at hplain
  obtain ⟨hclient, hserial, -⟩ := openTGT_sealed hplain hgranted.tgt
  exact ⟨x, j, c', q, plain, hlog, hc', by rw [hplain, hmembers], hsealed,
    hgranted.checked hcrypto hclient hserial, hgranted.sound_iff hserial⟩

/-! ## Sample runs -/

/-- The call has read the zeros and the clock of the sample ticket-granting ticket, as a
computation. -/
def hasSealed (log : Log) : Bool :=
  (log.any fun
    | ⟨.readRandom 32, _, .ok bytes⟩ => bytes = List.replicate 32 0
    | _ => false) &&
  log.any fun
    | ⟨.now, e, t⟩ => decide ((t : Instant) = e.clock) && decide (e.clock = sampleClock)
    | _ => false

/-- The sample client gets a ticket-granting ticket for its certificate 01, and then a service
ticket for it with a serial number. -/
def sampleExchanges (certSN : String) : List (Act (kdcMachine (sampleService fiveMinutes))) :=
  sampleCall 0 (sampleAS 1700000000) 12 ++
    sampleCall 1 (sampleTGS fiveMinutes certSN 1700000000) 11

/-- The calls, what call 0 has read, and whether call 1 issued a ticket. -/
def exchangesView (t : State (kdcMachine (sampleService fiveMinutes))) :
    List (ℕ × KdcRequest) × Option Bool × Option Bool :=
  (t.calls.entries.map fun c => (c.1, c.2.request), (t.call 0).map (hasSealed ·.log),
    (t.result 1).map KdcResult.grantsTicket)

theorem sampleExchanges_runs (certSN : String) (h : certSN = "01" ∨ certSN = "02") :
    ∃ t, Steps (sampleStart fiveMinutes) (sampleExchanges certSN) t ∧
      exchangesView t = ([(1, sampleTGS fiveMinutes certSN 1700000000),
        (0, sampleAS 1700000000)], some true, some true) := by
  obtain rfl | rfl := h
  · exact steps_of_view (by decide +kernel)
  · exact steps_of_view (by decide +kernel)

theorem sealedTGT_of_hasSealed {c : Call (kdcMachine (sampleService fiveMinutes))}
    (hq : c.request = sampleAS 1700000000) (h : hasSealed c.log = true) :
    SealedTGT (sampleService fiveMinutes) c ⟨"alice", "01", [1], 1700000000, [1]⟩
      (Json.marshalStruct ((sampleService fiveMinutes).tgtPayload "alice" "01"
        (List.replicate 32 0) sampleClock).members) := by
  obtain ⟨hread, hclock⟩ := Bool.and_eq_true_iff.mp h
  obtain ⟨ev, hev, hzeros⟩ := List.any_eq_true.mp hread
  obtain ⟨ev', hev', htime⟩ := List.any_eq_true.mp hclock
  split at hzeros
  case h_2 => cases hzeros
  next e bytes =>
  split at htime
  case h_2 => cases htime
  next e' now =>
  obtain ⟨hnow, hsample⟩ := Bool.and_eq_true_iff.mp htime
  obtain rfl := of_decide_eq_true hnow
  refine ⟨⟨"", ""⟩, List.replicate 32 0, e, e', hq, ?_, hev', by rw [of_decide_eq_true hsample]⟩
  rw [← of_decide_eq_true hzeros]
  exact hev

/-- The calls of the sample exchanges. -/
theorem request_of_exchangesView {t : State (kdcMachine (sampleService fiveMinutes))}
    {certSN : String} {sealed issued : Option Bool}
    (h : exchangesView t = ([(1, sampleTGS fiveMinutes certSN 1700000000),
      (0, sampleAS 1700000000)], sealed, issued)) {i : ℕ}
    {c : Call (kdcMachine (sampleService fiveMinutes))} (hc : t.call i = some c) :
    (i = 1 ∧ c.request = sampleTGS fiveMinutes certSN 1700000000) ∨
      (i = 0 ∧ c.request = sampleAS 1700000000) := by
  have hmem := List.mem_map_of_mem (f := fun c => (c.1, c.2.request)) (AList.mem_lookup_iff.mp hc)
  rw [(Prod.mk.inj h).1] at hmem
  simpa using hmem

/-- In the sample exchanges no ticket-granting ticket is forged, and call 1 issues a ticket. -/
theorem unforgeable_of_exchangesView {t : State (kdcMachine (sampleService fiveMinutes))}
    {certSN : String} (h : exchangesView t = ([(1, sampleTGS fiveMinutes certSN 1700000000),
      (0, sampleAS 1700000000)], some true, some true)) :
    Unforgeable (sampleService fiveMinutes) t ∧ ∃ c resp, t.call 1 = some c ∧
      c.request = sampleTGS fiveMinutes certSN 1700000000 ∧
      c.rest.result = some (.requestServiceTicket (.ok resp)) := by
  have hcall := fun {i c} (hc : t.call i = some c) => request_of_exchangesView h hc
  simp only [exchangesView, Prod.mk.injEq] at h
  obtain ⟨-, hsealed, hok⟩ := h
  obtain ⟨c₀, hc₀, hsealed⟩ := Option.map_eq_some_iff.mp hsealed
  obtain ⟨c₁, hc₁, result, hresult, hok⟩ : ∃ c₁, t.call 1 = some c₁ ∧ ∃ result,
      c₁.rest.result = some result ∧ result.grantsTicket = true := by
    obtain ⟨result, hresult, hok⟩ := Option.map_eq_some_iff.mp hok
    obtain ⟨c₁, hc₁, hresult⟩ := Option.bind_eq_some_iff.mp hresult
    exact ⟨c₁, hc₁, result, hresult, hok⟩
  have hq₀ : c₀.request = sampleAS 1700000000 := by simpa using hcall hc₀
  have hq₁ : c₁.request = sampleTGS fiveMinutes certSN 1700000000 := by simpa using hcall hc₁
  constructor
  · intro i c ctx req plain hc hq hplain
    obtain ⟨rfl, hreq⟩ | ⟨rfl, hreq⟩ := hcall hc
    · refine ⟨0, c₀, ⟨"alice", "01", [1], 1700000000, [1]⟩, hc₀, ?_⟩
      rw [hreq] at hq
      cases hq
      have hnonce : (List.replicate 12 (0 : UInt8)).length = gcmNonceSize := rfl
      have hopens := (sampleService fiveMinutes).crypto.decryptBytes_encryptBytes
        sampleCrypto_opens (sampleService fiveMinutes).as.ktgsKey.2 hnonce
        (Json.marshalStruct ((sampleService fiveMinutes).tgtPayload "alice" "01"
          (List.replicate 32 0) sampleClock).members)
      obtain rfl := Option.some.inj (hopens.symm.trans hplain)
      exact sealedTGT_of_hasSealed hq₀ hsealed
    · rw [hreq] at hq
      cases hq
  · obtain ⟨resp, rfl⟩ := eq_of_grantsTicket hok
    exact ⟨c₁, resp, hc₁, hq₁, hresult⟩

/-- A service ticket for the certificate of the ticket-granting ticket is sound. -/
theorem tgs_issuance_sound_of_own_certificate :
    ∃ (t : State (kdcMachine (sampleService fiveMinutes)))
      (c : Call (kdcMachine (sampleService fiveMinutes))) (resp : TGSResponse),
      t.call 1 = some c ∧ c.rest.result = some (.requestServiceTicket (.ok resp)) ∧
      ∃ (x : TGSExchange) (q : ASRequest), x.Checked (sampleService fiveMinutes) ⟨"bank-service",
        sampleTGT fiveMinutes, sampleAuthenticator 1700000000, "01", [], "transfer:create"⟩ resp q ∧
        (x.Sound (sampleService fiveMinutes) ⟨"bank-service", sampleTGT fiveMinutes,
          sampleAuthenticator 1700000000, "01", [], "transfer:create"⟩ q ↔
          ("01" = "" ∨ "01" = q.certSn) ∧ x.resp.ownerId ≠ "" ∧ x.resp.role ≠ .caAdmin) := by
  obtain ⟨t, hsteps, hview⟩ := sampleExchanges_runs "01" (.inl rfl)
  obtain ⟨hunforgeable, c, resp, hc, hq, hr⟩ := unforgeable_of_exchangesView hview
  obtain ⟨x, j, c', q, plain, -, -, -, -, hchecked, hsound⟩ := tgs_issuance_sound
    (sampleService fiveMinutes) sampleCrypto_opens _ t ⟨_, hsteps⟩ hunforgeable 1 c hc ⟨"", ""⟩ _ hq
    resp hr
  exact ⟨t, c, resp, hc, hr, x, q, hchecked, hsound⟩

/-- A ticket-granting ticket for the certificate 01 gets a service ticket for the certificate
02. -/
theorem tgs_issuance_sound_of_other_certificate :
    ¬ ∀ (s : Service), s.crypto.Opens → ∀ (e₀ : Env) (t : State (kdcMachine s)), Reachable e₀ t →
      Unforgeable s t → ∀ (i : ℕ) (c : Call (kdcMachine s)), t.call i = some c →
        ∀ (ctx : AuditMeta) (req : TGSRequest), c.request = .requestServiceTicket ctx req →
          ∀ (resp : TGSResponse), c.rest.result = some (.requestServiceTicket (.ok resp)) →
            ∃ (x : TGSExchange) (j : ℕ) (c' : Call (kdcMachine s)) (q : ASRequest)
              (plain : List UInt8), x.log s req <+: c.log ∧ t.call j = some c' ∧
              s.crypto.decryptBytes s.tgs.tgsKey.1 req.tgtCiphertext = some plain ∧
              SealedTGT s c' q plain ∧ x.Checked s req resp q ∧ x.Sound s req q := by
  intro hall
  obtain ⟨t, hsteps, hview⟩ := sampleExchanges_runs "02" (.inr rfl)
  obtain ⟨hunforgeable, c, resp, hc, hq, hr⟩ := unforgeable_of_exchangesView hview
  obtain ⟨x, j, c', q, plain, -, hc', -, ⟨ctx, -, -, -, hq', -⟩, hchecked, hsound⟩ :=
    hall (sampleService fiveMinutes) sampleCrypto_opens _ t ⟨_, hsteps⟩ hunforgeable 1 c hc
      ⟨"", ""⟩ _ hq resp hr
  have hserial : "02" = q.certSn := hchecked.looked_up.symm.trans hsound.serial
  -- the only call of the AS is for the certificate 01
  obtain ⟨-, hreq⟩ | ⟨-, hreq⟩ := request_of_exchangesView hview hc'
  · rw [hreq] at hq'
    cases hq'
  · rw [hreq] at hq'
    cases hq'
    exact absurd hserial (by decide)

end Kdc
