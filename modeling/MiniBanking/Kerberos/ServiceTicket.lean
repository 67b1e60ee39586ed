import MiniBanking.Bank.Handler
import MiniBanking.Bank.Refinement
import MiniBanking.Kdc.Returns

/-!
# Service tickets across the two services

The KDC seals a service ticket under the key it shares with the bank, and the bank opens it. The
two services keep a structure for its content each; here the text that the one writes is read
into the structure of the other.

## Main definitions

* `Shared`: what a KDC and a bank must have in common
* `received`: the content of a service ticket as the bank reads it
* `ticketInfo`: the ticket that the handler of the bank works with

## Main results

* `decryptTicket_sealed`: the bank opens a sealed ticket unless a field it needs is empty
* `service_ticket_round_trip`: what the KDC issues is what the bank gets
-/

namespace Kerberos

open Concurrency Go

/-- A KDC and a bank share a service: the bank opens what the KDC seals, and its key is the one
of the service. -/
structure Shared (s : Kdc.Service) (h : Bank.Handler) (serviceID : String) : Prop where
  opens : ∀ key nonce text, key.length = Bank.aes256KeySize → nonce.length = Bank.nonceSize →
    h.gcmOpen key nonce (s.crypto.gcmSeal key nonce text) = some text
  key : ∀ key, s.tgs.serviceKeys.lookup serviceID = some key → h.bankKV = key.1

/-! ## The content of a ticket -/

/-- The content of a service ticket as the bank reads it. -/
def received (t : Kdc.ServiceTicketPlaintext) : Bank.ServiceTicketPlaintext where
  clientID := t.clientID
  serviceID := t.serviceID
  sname := t.sname
  kcv := t.kcv
  publicKey := t.publicKey
  pubCPEM := t.pubCPEM
  certSN := t.certSN
  certType := t.certType
  issuerID := t.issuerID
  issuerCommonName := t.issuerCommonName
  issuerSerial := t.issuerSerial
  chainFingerprints := t.chainFingerprints
  scope := t.scope
  nonceReq := t.nonceReq
  issuedAt := t.issuedAt
  expiresAt := t.expiresAt

/-- The text of a service ticket has its members. -/
theorem parse_serviceTicket (t : Kdc.ServiceTicketPlaintext) :
    Json.parse (Json.marshalStruct t.members) = some (.object t.members) := by
  refine Json.parse_marshalStruct ?_ ?_
  · simp [Kdc.ServiceTicketPlaintext.members]
  · -- only the list of fingerprints is nested
    have hchain := Json.depth_stringsCopy t.chainFingerprints
    simp only [Kdc.ServiceTicketPlaintext.members, Json.memberDepths_cons, Json.depth_string,
      Json.depth_bytesCopy, Json.depth_int, Json.memberDepths_nil]
    omega

/-- **The bank reads what the KDC wrote**: every member has the name of the field it is for. -/
theorem decode_serviceTicket (t : Kdc.ServiceTicketPlaintext) :
    (Json.object t.members).intoFields Bank.ServiceTicketPlaintext.fields {} =
      some (received t) := by
  -- every name is looked up in the bank's fields, and the lemmas of the types read the members
  simp [Json.intoFields, Kdc.ServiceTicketPlaintext.members, Json.field?,
    Bank.ServiceTicketPlaintext.fields, List.lookup_cons, received, Json.intoString]

/-! ## Opening a ticket -/

/-- The ticket that the handler of the bank works with. -/
def ticketInfo (t : Kdc.ServiceTicketPlaintext) : Bank.TicketInfo where
  clientID := t.clientID
  session := t.kcv
  certSN := t.certSN
  certType := t.certType
  issuerID := t.issuerID
  issuerCommonName := t.issuerCommonName
  issuerSerial := t.issuerSerial
  chainFingerprints := t.chainFingerprints
  scope := t.scope
  expires := .unix t.expiresAt
  publicKeyPEM := if t.pubCPEM = "" then t.publicKey else t.pubCPEM

section Opening

variable {s : Kdc.Service} {h : Bank.Handler} {serviceID : String} {key : Kdc.AES256Key}
  {nonce : List UInt8}

/-- The bank decrypts what the KDC seals for the service. -/
theorem decrypt_sealed (hshared : Shared s h serviceID)
    (hkey : s.tgs.serviceKeys.lookup serviceID = some key)
    (hnonce : nonce.length = Kdc.gcmNonceSize) (text : List UInt8) :
    h.decryptAESGCMEmbedded h.bankKV (s.crypto.encryptBytes key.1 nonce text) = some text := by
  have hbank : h.bankKV = key.1 := hshared.key key hkey
  have hlen : Bank.nonceSize ≤ (s.crypto.encryptBytes key.1 nonce text).length := by
    rw [Kdc.Crypto.encryptBytes, List.length_append, hnonce]
    exact Nat.le_add_right _ _
  rw [Bank.Handler.decryptAESGCMEmbedded, hbank, if_pos ⟨key.2, hlen⟩, Kdc.Crypto.encryptBytes]
  -- the first twelve bytes are the nonce
  have htake : (nonce ++ s.crypto.gcmSeal key.1 nonce text).take Bank.nonceSize = nonce :=
    List.take_left' hnonce
  have hdrop : (nonce ++ s.crypto.gcmSeal key.1 nonce text).drop Bank.nonceSize =
      s.crypto.gcmSeal key.1 nonce text := List.drop_left' hnonce
  rw [htake, hdrop]
  exact hshared.opens key.1 nonce text key.2 hnonce

/-- **The bank opens a sealed ticket** unless a field that it needs is empty. -/
theorem decryptTicket_sealed (hshared : Shared s h serviceID)
    (hkey : s.tgs.serviceKeys.lookup serviceID = some key)
    (hnonce : nonce.length = Kdc.gcmNonceSize) (t : Kdc.ServiceTicketPlaintext) :
    h.decryptTicket (s.crypto.encryptBytes key.1 nonce (Json.marshalStruct t.members)) =
      if t.clientID = "" ∨ t.certSN = "" ∨ t.scope = "" ∨ t.kcv.length ≠ Bank.aes256KeySize ∨
        t.expiresAt = 0 then none
      else some (ticketInfo t) := by
  rw [Bank.Handler.decryptTicket, decrypt_sealed hshared hkey hnonce, Option.bind_eq_bind,
    Option.bind_some, Bank.unmarshal, parse_serviceTicket]
  show ((Json.object t.members).intoFields Bank.ServiceTicketPlaintext.fields {}).bind _ = _
  rw [decode_serviceTicket, Option.bind_some]
  rfl

end Opening

/-- What a ticket says about a certificate is what the CA replied when the ticket was made. -/
theorem validate_serviceTicket {crypto : Kdc.Crypto} {certSN : String}
    {resp : Kdc.VerifyCertificateResponse} {cert : Kdc.Certificate}
    (hcert : crypto.certificateOf certSN resp = some cert) {info : Bank.TicketInfo}
    (htype : info.certType = cert.certType) (hissuer : info.issuerID = cert.issuerID)
    (hserial : info.issuerSerial = cert.issuerSerial)
    (hchain : info.chainFingerprints = cert.chainFingerprints) :
    Bank.validateTicketCertificateMetadata info resp.toVerifyCertificateResponse = true := by
  obtain ⟨publicKeyPEM, notBefore, notAfter, rfl, -⟩ := Kdc.certificateOf_some hcert
  simp [Bank.validateTicketCertificateMetadata, htype, hissuer, hserial, hchain,
    Kdc.Certificate.of]

/-- A ticket whose expiry lies after every reading of the clock has not expired. -/
theorem ticketExpired_before {rounding : Postgres.Rounding} {expires : Time} {expired : Bool}
    {log : Bank.Log rounding}
    (h : (Bank.Handler.ticketExpired expires).Returns (W := Bank.world rounding) log expired)
    (hbefore : ∀ ev ∈ log, ∀ e t, ev = ⟨.now, e, t⟩ → t.time.before expires = true) :
    expired = false := by
  obtain ⟨e, t, log₁, rfl, h₁⟩ := Program.returns_issue.mp h
  have hfirst : t.time.ns < expires.ns :=
    Time.before_iff.mp (hbefore _ (List.mem_cons_self ..) e t rfl)
  have hafter : t.time.after expires = false := by
    rw [Bool.eq_false_iff, ne_eq, Time.after_iff]
    omega
  rw [hafter] at h₁
  obtain ⟨e', t', log₂, rfl, h₂⟩ := Program.returns_issue.mp h₁
  have hsecond : t'.time.ns < expires.ns := Time.before_iff.mp
    (hbefore _ (List.mem_cons_of_mem _ (List.mem_cons_self ..)) e' t' rfl)
  obtain ⟨-, rfl⟩ := Program.returns_ret.mp h₂
  rw [Bool.eq_false_iff, ne_eq, Time.equal_iff]
  omega

/-! ## The round trip -/

/-- **A service ticket gets across.** The bank opens a ticket that the KDC built for it exactly if
the client, the serial number, the scope and the second of the expiry are not empty. It gets what
the KDC put in, which agrees with the reply of the CA that the KDC saw, and as long as its clock
is before the expiry the ticket has not expired. -/
theorem service_ticket_round_trip {s : Kdc.Service} {h : Bank.Handler} {serviceID : String}
    (hshared : Shared s h serviceID) {certSN : String} {resp : Kdc.VerifyCertificateResponse}
    {cert : Kdc.Certificate} (hcert : s.crypto.certificateOf certSN resp = some cert)
    {clientID scope nonceReq : String} {kcv : List UInt8} (hkcv : kcv.length = 32)
    {log : Kdc.Log} (hx : Kdc.Executed log) {ticketV : List UInt8} {expiresAt : Time}
    (hissued : (s.buildServiceTicket serviceID clientID cert scope nonceReq kcv).Returns log
      (.ok (ticketV, expiresAt))) :
    (h.decryptTicket ticketV ≠ none ↔
      clientID ≠ "" ∧ certSN ≠ "" ∧ scope ≠ "" ∧ expiresAt.toUnix ≠ 0) ∧
    ∀ info, h.decryptTicket ticketV = some info →
      info = {
        clientID, session := kcv, certSN, certType := resp.certType, issuerID := resp.issuerId,
        issuerCommonName := resp.issuerCommonName, issuerSerial := resp.issuerSerialNumber,
        chainFingerprints := resp.chainFingerprints, scope,
        expires := .unix expiresAt.toUnix, publicKeyPEM := cert.publicKeyPEM } ∧
      Bank.validateTicketCertificateMetadata info resp.toVerifyCertificateResponse = true ∧
      ∀ (rounding : Postgres.Rounding) (bankLog : Bank.Log rounding) (expired : Bool),
        (Bank.Handler.ticketExpired info.expires).Returns (W := Bank.world rounding) bankLog
          expired →
        (∀ ev ∈ bankLog, ∀ e t, ev = ⟨.now, e, t⟩ → t.time.before info.expires = true) →
        expired = false := by
  obtain ⟨e, e', key, nonce, rfl, hkey, hnonce, rfl, rfl⟩ :=
    Kdc.buildServiceTicket_returns hx hissued
  obtain ⟨publicKeyPEM, notBefore, notAfter, hof, -⟩ := Kdc.certificateOf_some hcert
  have hopen := decryptTicket_sealed hshared hkey hnonce
    (s.serviceTicket serviceID clientID cert scope nonceReq kcv e.clock)
  rw [hopen]
  -- the key has the right length, so only the other four fields can be missing
  have hmissing : (clientID = "" ∨ cert.serial = "" ∨ scope = "" ∨
      kcv.length ≠ Bank.aes256KeySize ∨ (e.clock.time.add s.tgs.ticketTTL).toUnix = 0) ↔
      ¬ (clientID ≠ "" ∧ certSN ≠ "" ∧ scope ≠ "" ∧
        (e.clock.time.add s.tgs.ticketTTL).toUnix ≠ 0) := by
    have hserial : cert.serial = certSN := by rw [hof]; rfl
    have hsize : ¬ kcv.length ≠ Bank.aes256KeySize := not_not.mpr hkcv
    rw [hserial]
    tauto
  constructor
  · show (if clientID = "" ∨ cert.serial = "" ∨ scope = "" ∨ kcv.length ≠ Bank.aes256KeySize ∨
      (e.clock.time.add s.tgs.ticketTTL).toUnix = 0 then none else some _) ≠ none ↔ _
    split
    · next hm => exact iff_of_false (fun hne => hne rfl) (hmissing.mp hm)
    · next hm => exact iff_of_true nofun (not_not.mp fun hn => hm (hmissing.mpr hn))
  · intro info hinfo
    split at hinfo
    · cases hinfo
    obtain rfl := Option.some.inj hinfo
    refine ⟨?_, validate_serviceTicket hcert rfl rfl rfl rfl, ?_⟩
    · rw [hof]
      -- the KDC fills both fields that can hold the key with the same text
      have hpem : (if publicKeyPEM = "" then publicKeyPEM else publicKeyPEM) = publicKeyPEM := by
        split <;> rfl
      simp only [ticketInfo, Kdc.Service.serviceTicket, Kdc.Certificate.of]
      congr 1
    · intro rounding bankLog expired hreturns hbefore
      exact ticketExpired_before hreturns hbefore

section Samples

open Kdc

/-- The KDC builds a ticket if it knows the service and gets its random bytes. -/
theorem builds_ticket (s : Kdc.Service) {serviceID : String} {key : AES256Key}
    (hkey : s.tgs.serviceKeys.lookup serviceID = some key) (clientID : String)
    (cert : Certificate) (scope nonceReq : String) (kcv nonce : List UInt8) (e : Env) :
    (s.buildServiceTicket serviceID clientID cert scope nonceReq kcv).Returns
      [clockRead e e.clock, randomRead gcmNonceSize e nonce]
      (.ok (s.crypto.encryptBytes key.1 nonce (Json.marshalStruct
        (s.serviceTicket serviceID clientID cert scope nonceReq kcv e.clock).members),
        e.clock.time.add s.tgs.ticketTTL)) := by
  unfold Service.buildServiceTicket
  rw [hkey]
  refine Program.returns_issue.mpr ⟨e, e.clock, _, rfl, ?_⟩
  refine Program.returns_bind.mpr ⟨[randomRead gcmNonceSize e nonce], .ok _, [], rfl, ?_,
    Program.returns_ret.mpr ⟨rfl, rfl⟩⟩
  unfold Service.encryptJSON
  rw [if_neg (not_not.mpr key.2)]
  exact Program.returns_issue.mpr ⟨e, .ok nonce, [], rfl, Program.returns_ret.mpr ⟨rfl, rfl⟩⟩

/-- A KDC whose service tickets live for some time. -/
def ticketService (ticketTTL : Duration) : Kdc.Service :=
  { Kdc.sampleService fiveMinutes with
    tgs := { (Kdc.sampleService fiveMinutes).tgs with ticketTTL } }

/-- The sample bank opens what the sample KDC seals. -/
theorem sample_shared (ticketTTL : Duration) :
    Shared (ticketService ticketTTL) Bank.sampleHandler "bank-service" where
  opens key nonce text hkey _ := by
    have htake : (key ++ text).take 32 = key := List.take_left' hkey
    have hdrop : (key ++ text).drop 32 = text := List.drop_left' hkey
    simp [ticketService, Kdc.sampleService, sampleCrypto, Bank.sampleHandler, htake, hdrop]
  key key hkey := by
    obtain rfl := Option.some.inj hkey
    rfl

/-- Such statements reply what they mean. -/
theorem executed_builds {e : Env} {nonce : List UInt8} (hnonce : nonce.length = gcmNonceSize) :
    Executed [clockRead e e.clock, randomRead gcmNonceSize e nonce] := by
  let choice : Choice := { bytes := nonce }
  intro ev hev
  rcases List.mem_cons.mp hev with rfl | hev
  · exact ⟨choice, rfl⟩
  · obtain rfl := List.mem_singleton.mp hev
    refine ⟨choice, ?_⟩
    show Except.ok nonce = Except.ok ((nonce ++ List.replicate gcmNonceSize 0).take gcmNonceSize)
    rw [List.take_left' hnonce]

/-- The certificate of the sample reply. -/
def sampleCertificate : Certificate :=
  .of "01" (sampleReply .customer) "key" (.unix 1600000000) (.unix 1800000000)

theorem sample_certificateOf :
    sampleCrypto.certificateOf "01" (sampleReply .customer) = some sampleCertificate := rfl

/-- What the KDC seals for the sample client. -/
def sampleSealed (ticketTTL : Duration) : List UInt8 :=
  sampleCrypto.encryptBytes (List.replicate 32 7) (List.replicate 12 0) (Json.marshalStruct
    ((ticketService ticketTTL).serviceTicket "bank-service" "alice" sampleCertificate
      "transfer:create" "AQ==" (List.replicate 32 0) Kdc.sampleClock).members)

/-- The statements of building it. -/
def sampleLog : Kdc.Log :=
  [clockRead ⟨Kdc.sampleClock, []⟩ Kdc.sampleClock,
    randomRead gcmNonceSize ⟨Kdc.sampleClock, []⟩ (List.replicate 12 0)]

/-- The KDC builds the sample ticket. -/
theorem builds_sample (ticketTTL : Duration) :
    Executed sampleLog ∧ sampleCertificate.Usable Kdc.sampleClock.time ∧
      ((ticketService ticketTTL).buildServiceTicket "bank-service" "alice" sampleCertificate
        "transfer:create" "AQ==" (List.replicate 32 0)).Returns sampleLog
        (.ok (sampleSealed ticketTTL, Kdc.sampleClock.time.add ticketTTL)) :=
  have hkey : (ticketService ticketTTL).tgs.serviceKeys.lookup "bank-service" =
      some ⟨List.replicate 32 7, rfl⟩ := rfl
  ⟨executed_builds rfl, validateCertUsable_ok.mp (by decide +kernel),
    builds_ticket (ticketService ticketTTL) hkey "alice" sampleCertificate "transfer:create"
      "AQ==" (List.replicate 32 0) (List.replicate 12 0) ⟨Kdc.sampleClock, []⟩⟩

/-- The sample bank opens a ticket of five minutes. -/
theorem service_ticket_round_trip_of_fiveMinutes :
    Bank.sampleHandler.decryptTicket (sampleSealed fiveMinutes) ≠ none :=
  (service_ticket_round_trip (sample_shared fiveMinutes)
    sample_certificateOf rfl (builds_sample fiveMinutes).1
    (builds_sample fiveMinutes).2.2).1.mpr (by decide +kernel)

/-- A ticket of a usable certificate whose lifetime ends at the Unix epoch is not opened: the
bank takes an expiry of 0 for a missing one. -/
theorem service_ticket_round_trip_of_epoch :
    (∃ log ticketV expiresAt, Executed log ∧ sampleCertificate.Usable Kdc.sampleClock.time ∧
      ((ticketService (-1700000000000000000)).buildServiceTicket "bank-service" "alice"
        sampleCertificate "transfer:create" "AQ==" (List.replicate 32 0)).Returns log
        (.ok (ticketV, expiresAt)) ∧
      Bank.sampleHandler.decryptTicket ticketV = none) ∧
    Shared (ticketService (-1700000000000000000)) Bank.sampleHandler "bank-service" := by
  have hshared := sample_shared (-1700000000000000000)
  obtain ⟨hx, husable, hbuilds⟩ := builds_sample (-1700000000000000000)
  refine ⟨⟨_, _, _, hx, husable, hbuilds, ?_⟩, hshared⟩
  refine (decryptTicket_sealed hshared rfl rfl _).trans (if_pos ?_)
  exact .inr (.inr (.inr (.inr (by decide +kernel))))

end Samples

end Kerberos
