import MiniBanking.Kdc.Returns

/-!
# Issuance of ticket-granting tickets

A ticket-granting ticket is issued to the owner of a certificate that the CA reports usable, who
signed this very request, once. The ticket and the reply say the same. Only the freshness check
can be wrong: a timestamp so far in the future that the difference to it overflows passes it.

## Main definitions

* `ASExchange.Sound`: what a successful AS exchange is to have found out, but for freshness

## Main results

* `as_issuance_sound`: every issued ticket is sound, and fresh exactly when its timestamp is not
  misjudged
-/

namespace Kdc

open Concurrency Go Kerberos

/-! ## Soundness -/

/-- What a successful AS exchange is to have found out and replied: the request had not been seen,
the CA reported the certificate with its serial number, which may be used now and whose owner is
the one of the request, the signature is over the canonical text of this request under the key of
that certificate, the ticket opens under the key of the TGS as one for that owner, serial number,
session key and expiry, and the reply, under a key that is wrapped for the client, has the same
session key and ticket, and the nonce of the request. -/
structure ASExchange.Sound (x : ASExchange) (s : Service) (q : ASRequest) (asRep : List UInt8)
    (expiry : Int64) : Prop where
  unseen : ∀ expires, (s.asReplayKey q.ownerID q.nonce q.timestamp, expires) ∈ x.mark.redis →
    expires ≤ x.mark.clock.ns
  reported : s.crypto.certificateOf q.certSn x.resp = some x.cert
  usable : x.cert.Usable x.second.clock.time
  owned : x.cert.ownerID ≠ ""
  owner : x.cert.ownerID = q.ownerID
  key : s.parseRSAPublicKeyPEM x.cert.publicKeyPEM = .ok x.pubKey
  signed : s.verifySignature x.pubKey
    (asCanonicalPayload q.certSn q.ownerID q.nonce q.timestamp) q.signature = .ok ()
  session : x.sessionKey.length = aes256KeySize
  ticket : s.crypto.decryptJSON TGTPlaintext.fields {} s.tgs.tgsKey.1 (x.tgt s q) =
    some ⟨q.ownerID, q.certSn, x.sessionKey, x.issued.clock.time.toUnix, expiry, expiry, ""⟩
  reply : ∃ signature encryptedKey encryptedPayload,
    asRep = Json.marshalStruct (ASResponse.mk signature encryptedKey encryptedPayload
      s.as.signingChainPEM).members ∧
    s.crypto.encryptOAEP x.pubKey x.seed x.aesKey (utf8 "AS_REP") = some encryptedKey ∧
    s.crypto.decryptJSON ASRepPayload.fields ⟨[], [], []⟩ x.aesKey encryptedPayload =
      some ⟨x.sessionKey, x.tgt s q, q.nonce⟩

variable {s : Service} {e₀ : Env} {t : State (kdcMachine s)} {i : ℕ} {c : Call (kdcMachine s)}

/-- A key that was marked had expired, if it had ever been there. -/
theorem unseen_of_marked (ht : Reachable e₀ t) {key : String} {ttl : Duration} {e : Env}
    (h : t.Issued i (marked key ttl e)) :
    ∀ expires, (key, expires) ∈ e.redis → expires ≤ e.clock.ns := by
  obtain ⟨others, choice, loc, env, loc', hx⟩ := ht.log_exec h
  exact replayMarkers.absent hx ⟨ttl, rfl, rfl⟩

/-- **What is granted is sound.** -/
theorem ASExchange.Granted.sound {x : ASExchange} {q : ASRequest} {asRep : List UInt8}
    {expiry : Int64} (hcrypto : s.crypto.Opens) (h : x.Granted s q asRep expiry)
    (hunseen : ∀ expires, (s.asReplayKey q.ownerID q.nonce q.timestamp, expires) ∈ x.mark.redis →
      expires ≤ x.mark.clock.ns) : x.Sound s q asRep expiry where
  unseen := hunseen
  reported := h.cert
  usable := h.usable
  owned := h.owned
  owner := h.owner
  key := h.key
  signed := h.signed
  session := h.session_size
  ticket := by
    rw [h.expiry, s.one_key]
    exact s.crypto.decryptJSON_TGT hcrypto s.as.ktgsKey.2 h.nonce_size _
  reply := by
    refine ⟨x.signature, x.encryptedKey, _, h.reply, h.wrapped, ?_⟩
    simp only [Crypto.decryptJSON,
      Crypto.decryptBytes_encryptBytes hcrypto h.aes_size h.rep_size, Option.bind_eq_bind,
      Option.bind_some, parse_ASRepPayload, decode_ASRepPayload]
    rfl

/-- **AS issuance is sound.** In every state that interleaved calls can reach, every call that
issued a ticket-granting ticket made a sound exchange; and its timestamp was within the window
exactly when it was not misjudged. -/
theorem as_issuance_sound (s : Service) (hcrypto : s.crypto.Opens) (e₀ : Env)
    (t : State (kdcMachine s)) (ht : Reachable e₀ t) (i : ℕ) (c : Call (kdcMachine s))
    (hc : t.call i = some c) (ctx : AuditMeta) (q : ASRequest) (hq : c.request = .issueTGT ctx q)
    (asRep : List UInt8) (expiry : Int64)
    (hr : c.rest.result = some (.issueTGT (.ok (asRep, expiry)))) :
    ∃ x : ASExchange, x.log s q <+: c.log ∧ x.Sound s q asRep expiry ∧
      (Fresh x.first.clock q.timestamp s.as.timestampWindow ↔
        ¬ Misjudged x.first.clock q.timestamp s.as.timestampWindow) := by
  obtain ⟨x, hlog, hgranted⟩ := issued_TGT ht hc hq hr
  have hmarked : t.Issued i (marked (s.asReplayKey q.ownerID q.nonce q.timestamp)
      s.as.timestampWindow x.mark) := ⟨c, hc, hlog.subset (by simp [ASExchange.log])⟩
  refine ⟨x, hlog, hgranted.sound hcrypto (unseen_of_marked ht hmarked), ?_, ?_⟩
  · intro hfresh hbad
    exact hbad.not_fresh hfresh
  · intro hgood
    exact ((timestampWithinWindow_iff _ _ _).mp hgranted.within).resolve_right hgood

/-! ## Sample runs -/

/-- What call 0 was asked for, the clock at its first statement, and whether it issued a
ticket-granting ticket. -/
def firstAndResult {tgtTTL : Duration} (t : State (kdcMachine (sampleService tgtTTL))) :
    Option (KdcRequest × Option ℤ × Option Bool) :=
  (t.call 0).map fun c => (c.request, c.log.head?.map (·.env.clock.ns),
    c.rest.result.map KdcResult.grantsTGT)

theorem issued_of_firstAndResult {tgtTTL : Duration}
    {t : State (kdcMachine (sampleService tgtTTL))} {q : KdcRequest} {first : Option ℤ}
    (h : firstAndResult t = some (q, first, some true)) :
    ∃ c asRep expiry, t.call 0 = some c ∧ c.request = q ∧
      c.log.head?.map (·.env.clock.ns) = first ∧
      c.rest.result = some (.issueTGT (.ok (asRep, expiry))) := by
  obtain ⟨c, hc, hview⟩ := Option.map_eq_some_iff.mp h
  simp only [Prod.mk.injEq] at hview
  obtain ⟨hq, hfirst, hresult⟩ := hview
  obtain ⟨r, hr, hgrants⟩ := Option.map_eq_some_iff.mp hresult
  obtain ⟨asRep, expiry, rfl⟩ := eq_of_grantsTGT hgrants
  exact ⟨c, asRep, expiry, hc, hq, hfirst, hr⟩

theorem sampleAS_runs (timestamp : Int64) (h : timestamp = 1700000000 ∨ timestamp = 20000000000) :
    ∃ t, Steps (sampleStart fiveMinutes) (sampleCall 0 (sampleAS timestamp) 12) t ∧
      firstAndResult t = some (sampleAS timestamp, some sampleClock.ns, some true) := by
  obtain rfl | rfl := h
  · exact steps_of_view (by decide +kernel)
  · exact steps_of_view (by decide +kernel)

/-- A request with the timestamp of its presentation is answered, soundly. -/
theorem as_issuance_sound_of_sampleAS : ∃ (t : State (kdcMachine (sampleService fiveMinutes)))
    (c : Call (kdcMachine (sampleService fiveMinutes))) (asRep : List UInt8) (expiry : Int64)
    (x : ASExchange), t.call 0 = some c ∧
      c.rest.result = some (.issueTGT (.ok (asRep, expiry))) ∧
      x.Sound (sampleService fiveMinutes) ⟨"alice", "01", [1], 1700000000, [1]⟩ asRep expiry := by
  obtain ⟨t, hsteps, hview⟩ := sampleAS_runs 1700000000 (.inl rfl)
  obtain ⟨c, asRep, expiry, hc, hq, -, hr⟩ := issued_of_firstAndResult hview
  obtain ⟨x, -, hsound, -⟩ := as_issuance_sound (sampleService fiveMinutes) sampleCrypto_opens _ t
    ⟨_, hsteps⟩ 0 c hc ⟨"", ""⟩ _ hq asRep expiry hr
  exact ⟨t, c, asRep, expiry, x, hc, hr, hsound⟩

/-- A request with a timestamp of the year 2603 is answered in 2023. -/
theorem as_issuance_sound_of_2603 :
    ¬ ∀ (s : Service), s.crypto.Opens → ∀ (e₀ : Env) (t : State (kdcMachine s)), Reachable e₀ t →
      ∀ (i : ℕ) (c : Call (kdcMachine s)), t.call i = some c → ∀ (ctx : AuditMeta) (q : ASRequest),
        c.request = .issueTGT ctx q → ∀ (asRep : List UInt8) (expiry : Int64),
          c.rest.result = some (.issueTGT (.ok (asRep, expiry))) →
            ∃ x : ASExchange, x.log s q <+: c.log ∧ x.Sound s q asRep expiry ∧
              Fresh x.first.clock q.timestamp s.as.timestampWindow := by
  intro hall
  obtain ⟨t, hsteps, hview⟩ := sampleAS_runs 20000000000 (.inr rfl)
  obtain ⟨c, asRep, expiry, hc, hq, hfirst, hr⟩ := issued_of_firstAndResult hview
  obtain ⟨x, hlog, -, hfresh⟩ := hall (sampleService fiveMinutes) sampleCrypto_opens _ t
    ⟨_, hsteps⟩ 0 c hc ⟨"", ""⟩ _ hq asRep expiry hr
  -- the first reading is that of the sample clock
  obtain ⟨rest, hrest⟩ := hlog
  rw [← hrest] at hfirst
  have hclock : x.first.clock.ns = sampleClock.ns := Option.some.inj hfirst
  rw [Fresh, hclock] at hfresh
  exact absurd hfresh (by decide)

end Kdc
