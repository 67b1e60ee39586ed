import MiniBanking.Bank.AdminSession
import MiniBanking.Kdc.AsExchange
import MiniBanking.Kdc.TgsExchange
import MiniBanking.Kerberos.ServiceTicket

/-!
# From the bank back to the AS

A client goes through three exchanges, and only its tickets tie them together. If nobody but the
KDC can seal a ticket, a ticket that the bank accepts leads back to a successful exchange of the
TGS, and the ticket-granting ticket of that one to a successful exchange of the AS, in which the
client signed with the key of its certificate.

## Main definitions

* `SealedByAS`, `SealedByTGS`: a text that a successful call of the KDC sealed
* `TicketsGenuine`: every ticket that is presented and opens was sealed by such a call
* `Provenance`: the exchanges behind a ticket of the bank

## Main results

* `ticketInfo_of_sealed`: what the bank reads from a ticket is what the TGS wrote
* `provenance`: every ticket that the bank accepted has its exchanges
* `transfer_provenance`: so has every completed transaction
-/

namespace Kerberos

open Concurrency Go

/-! ## What the KDC seals -/

section Sealed

variable (s : Kdc.Service) (t : State (Kdc.kdcMachine s))

/-- A successful call of the AS made the exchange and sealed the text. -/
structure SealedByAS (plain : List UInt8) (q : Kdc.ASRequest) (z : Kdc.ASExchange) : Prop where
  call : ∃ j c ctx asRep expiry, t.call j = some c ∧ c.request = Kdc.KdcRequest.issueTGT ctx q ∧
    c.rest.result = some (.issueTGT (.ok (asRep, expiry))) ∧ z.log s q <+: c.log
  text : plain = Json.marshalStruct
    (s.tgtPayload q.ownerID q.certSn z.sessionKey z.issued.clock).members

/-- A successful call of the TGS made the exchange, for the ticket-granting ticket, the
authenticator and the certificate it had, and sealed the text. -/
structure SealedByTGS (plain : List UInt8) (req : Kdc.TGSRequest) (y : Kdc.TGSExchange) :
    Prop where
  call : ∃ j c ctx resp, t.call j = some c ∧
    c.request = Kdc.KdcRequest.requestServiceTicket ctx req ∧
    c.rest.result = some (.requestServiceTicket (.ok resp)) ∧ y.log s req <+: c.log
  tgt : s.openTGT req.tgtCiphertext = .ok y.tgt
  auth : s.decryptAuthenticator y.tgt.kctgs req.authenticator = .ok y.auth
  cert : s.crypto.certificateOf (Kdc.Service.lookupSerial y.tgt req) y.resp = some y.cert
  text : plain = Json.marshalStruct (y.ticket s req).members

variable (h : Bank.Handler) {rounding : Postgres.Rounding}
  (u : State (Bank.handlerMachine h rounding))

/-- Every ticket that is presented and opens was sealed by a successful call of the KDC: a
ticket-granting ticket by one of the AS, and a ticket for the bank by one of the TGS. -/
structure TicketsGenuine : Prop where
  tgt : ∀ i c ctx req plain, t.call i = some c →
    c.request = Kdc.KdcRequest.requestServiceTicket ctx req →
    s.crypto.decryptBytes s.tgs.tgsKey.1 req.tgtCiphertext = some plain →
    ∃ q z, SealedByAS s t plain q z
  ticket : ∀ i c ticketV authenticator plain, u.call i = some c →
    c.request.presented = some (ticketV, authenticator) →
    h.decryptAESGCMEmbedded h.bankKV ticketV = some plain →
    ∃ req y, SealedByTGS s t plain req y

end Sealed

/-! ## The exchanges behind a ticket -/

/-- The exchanges behind a ticket of the bank: it is the ticket that the TGS granted in the
exchange `y`, for a ticket-granting ticket that the AS granted in the exchange `z`, which had not
expired. Client and scope are handed through, and the role that the CA reported to the TGS may have
the scope. -/
structure Provenance (s : Kdc.Service) (t : State (Kdc.kdcMachine s)) (info : Bank.TicketInfo)
    (q : Kdc.ASRequest) (z : Kdc.ASExchange) (req : Kdc.TGSRequest) (y : Kdc.TGSExchange) :
    Prop where
  granted : ∃ j c ctx asRep expiry, t.call j = some c ∧
    c.request = Kdc.KdcRequest.issueTGT ctx q ∧
    c.rest.result = some (.issueTGT (.ok (asRep, expiry))) ∧ z.log s q <+: c.log ∧
    z.Sound s q asRep expiry ∧ y.tgt.expiry = expiry
  checked : ∃ j c ctx resp, t.call j = some c ∧
    c.request = Kdc.KdcRequest.requestServiceTicket ctx req ∧
    c.rest.result = some (.requestServiceTicket (.ok resp)) ∧ y.log s req <+: c.log ∧
    y.Checked s req resp q
  written : info = ticketInfo (y.ticket s req)
  client : info.clientID = q.ownerID
  session : y.tgt.kctgs = z.sessionKey
  unexpired : (Time.unix y.tgt.expiry).after y.first.clock.time = true
  scope : req.requestedScope = info.scope
  role : Kdc.roleAllowsScope (Kdc.mapCAIdentityRole y.resp.role) info.scope = true

section Exchanges

variable {s : Kdc.Service} {e₀ : Kdc.Env} {t : State (Kdc.kdcMachine s)} {plain : List UInt8}
  {q : Kdc.ASRequest} {z : Kdc.ASExchange} {req : Kdc.TGSRequest} {y : Kdc.TGSExchange}

/-- A list has one start of each length. -/
theorem eq_of_prefixes {α : Type} {xs ys zs : List α} (hx : xs <+: zs) (hy : ys <+: zs)
    (hlen : xs.length = ys.length) : xs = ys := by
  rw [List.prefix_iff_eq_take.mp hx, List.prefix_iff_eq_take.mp hy, hlen]

/-- The text that the AS sealed is that of a ticket-granting ticket it granted. -/
theorem SealedByAS.granted (hs : SealedByAS s t plain q z) (ht : Reachable e₀ t) :
    ∃ (j : ℕ) (c : Call (Kdc.kdcMachine s)) (ctx : Kdc.AuditMeta) (asRep : List UInt8)
      (expiry : Int64) (z' : Kdc.ASExchange), t.call j = some c ∧
      c.request = Kdc.KdcRequest.issueTGT ctx q ∧
      c.rest.result = some (.issueTGT (.ok (asRep, expiry))) ∧ z'.log s q <+: c.log ∧
      z'.Granted s q asRep expiry ∧ plain = Json.marshalStruct
        (s.tgtPayload q.ownerID q.certSn z'.sessionKey z'.issued.clock).members := by
  obtain ⟨j, c, ctx, asRep, expiry, hc, hq, hr, hlog⟩ := hs.call
  obtain ⟨z', hlog', hgranted⟩ := Kdc.issued_TGT ht hc hq hr
  -- both exchanges have the statements of the call
  have hsame : z'.log s q = z.log s q := eq_of_prefixes hlog' hlog rfl
  simp only [Kdc.ASExchange.log, Kdc.randomRead, Kdc.clockRead, List.cons.injEq] at hsame
  obtain ⟨-, -, -, -, hkey, hissued, -⟩ := hsame
  injection hkey with _ _ hkey
  injection hissued with _ hissued _
  have hkey : z'.sessionKey = z.sessionKey := Except.ok.inj hkey
  refine ⟨j, c, ctx, asRep, expiry, z', hc, hq, hr, hlog', hgranted, ?_⟩
  rw [hkey, hissued]
  exact hs.text

/-- The text that the TGS sealed is that of a service ticket it granted. -/
theorem SealedByTGS.granted (hs : SealedByTGS s t plain req y) (ht : Reachable e₀ t) :
    ∃ (j : ℕ) (c : Call (Kdc.kdcMachine s)) (ctx : Kdc.AuditMeta) (resp : Kdc.TGSResponse)
      (y' : Kdc.TGSExchange), t.call j = some c ∧
      c.request = Kdc.KdcRequest.requestServiceTicket ctx req ∧
      c.rest.result = some (.requestServiceTicket (.ok resp)) ∧ y'.log s req <+: c.log ∧
      y'.Granted s req resp ∧ plain = Json.marshalStruct (y'.ticket s req).members := by
  obtain ⟨j, c, ctx, resp, hc, hq, hr, hlog⟩ := hs.call
  obtain ⟨y', hlog', hgranted⟩ := Kdc.issued_ticket ht hc hq hr
  refine ⟨j, c, ctx, resp, y', hc, hq, hr, hlog', hgranted, ?_⟩
  have htgt : y'.tgt = y.tgt := Except.ok.inj (hgranted.tgt.symm.trans hs.tgt)
  have hauth : y'.auth = y.auth := by
    have hread := hgranted.auth
    rw [htgt, hs.auth] at hread
    exact (Except.ok.inj hread).symm
  have hsame : y'.log s req = y.log s req := eq_of_prefixes hlog' hlog rfl
  simp only [Kdc.TGSExchange.log, Kdc.randomRead, Kdc.clockRead, Kdc.reported,
    List.cons.injEq] at hsame
  obtain ⟨-, -, -, -, hresp, hkcv, hissued, -⟩ := hsame
  injection hresp with _ _ hresp
  injection hkcv with _ _ hkcv
  injection hissued with _ hissued _
  have hresp : y'.resp = y.resp := Except.ok.inj hresp
  have hkcv : y'.kcv = y.kcv := Except.ok.inj hkcv
  have hcert : y'.cert = y.cert := by
    have hread := hgranted.cert
    rw [htgt, hresp, hs.cert] at hread
    exact (Option.some.inj hread).symm
  have hticket : y'.ticket s req = y.ticket s req := by
    rw [Kdc.TGSExchange.ticket, Kdc.TGSExchange.ticket, htgt, hauth, hcert, hkcv, hissued]
  rw [hticket]
  exact hs.text

/-- A ticket-granting ticket that was opened was decrypted. -/
theorem decryptBytes_of_openTGT {ciphertext : List UInt8} {tgt : Kdc.TGTPlaintext}
    (hopen : s.openTGT ciphertext = .ok tgt) :
    ∃ plain, s.crypto.decryptBytes s.tgs.tgsKey.1 ciphertext = some plain := by
  cases hplain : s.crypto.decryptBytes s.tgs.tgsKey.1 ciphertext with
  | some plain => exact ⟨plain, rfl⟩
  | none =>
    simp only [Kdc.Service.openTGT, Kdc.Crypto.decryptJSON, hplain, Option.bind_eq_bind,
      Option.bind_none] at hopen
    cases hopen

end Exchanges

/-! ## Tickets at the bank -/

section Bank

variable {s : Kdc.Service} {e₀ : Kdc.Env} {t : State (Kdc.kdcMachine s)} {h : Bank.Handler}
  {rounding : Postgres.Rounding} {clock : Instant} {u : State (Bank.handlerMachine h rounding)}

/-- **The bank reads what the TGS wrote.** -/
theorem ticketInfo_of_sealed {ticketV : List UInt8} {info : Bank.TicketInfo}
    {ticket : Kdc.ServiceTicketPlaintext} (hinfo : h.decryptTicket ticketV = some info)
    (hplain : h.decryptAESGCMEmbedded h.bankKV ticketV =
      some (Json.marshalStruct ticket.members)) : info = ticketInfo ticket := by
  rw [Bank.Handler.decryptTicket, hplain, Option.bind_eq_bind, Option.bind_some, Bank.unmarshal,
    parse_serviceTicket] at hinfo
  have hread : ((Json.object ticket.members).intoFields Bank.ServiceTicketPlaintext.fields
      {}).bind _ = some info := hinfo
  rw [decode_serviceTicket, Option.bind_some] at hread
  split at hread
  · cases hread
  · exact (Option.some.inj hread).symm

/-- **Provenance of tickets.** Every ticket that the bank accepted has its exchanges, if no ticket
is forged. -/
theorem provenance (hcrypto : s.crypto.Opens) (ht : Reachable e₀ t)
    (hgenuine : TicketsGenuine s t h u) {i : ℕ} {c : Call (Bank.handlerMachine h rounding)}
    {ticketV authenticator : List UInt8} {scope : String} {x : Bank.ApExchange}
    (hc : u.call i = some c) (hq : c.request.presented = some (ticketV, authenticator))
    (hx : x.Passed h ticketV authenticator scope) :
    ∃ q z req y, Provenance s t x.ticket q z req y := by
  obtain ⟨plain, hplain, -⟩ := Option.bind_eq_some_iff.mp hx.ticket
  obtain ⟨req, y₀, hsealed⟩ := hgenuine.ticket i c ticketV authenticator plain hc hq hplain
  obtain ⟨j, c', ctx, resp, y, hc', hq', hr', hlog', hy, rfl⟩ := hsealed.granted ht
  obtain ⟨plain, htgt⟩ := decryptBytes_of_openTGT hy.tgt
  obtain ⟨q, z₀, hsealed'⟩ := hgenuine.tgt j c' ctx req plain hc' hq' htgt
  obtain ⟨k, c'', ctx', asRep, expiry, z, hc'', hq'', hr'', hlog'', hz, rfl⟩ :=
    hsealed'.granted ht
  obtain ⟨hclient, hserial, hkey, hexpiry⟩ := Kdc.openTGT_sealed htgt hy.tgt
  have hinfo : x.ticket = ticketInfo (y.ticket s req) := ticketInfo_of_sealed hx.ticket hplain
  have hmarked : t.Issued k (Kdc.marked (s.asReplayKey q.ownerID q.nonce q.timestamp)
      s.as.timestampWindow z.mark) := ⟨c'', hc'', hlog''.subset (by simp [Kdc.ASExchange.log])⟩
  refine ⟨q, z, req, y, ?_⟩
  exact {
    granted := ⟨k, c'', ctx', asRep, expiry, hc'', hq'', hr'', hlog'',
      hz.sound hcrypto (Kdc.unseen_of_marked ht hmarked), hexpiry.trans hz.expiry.symm⟩
    checked := ⟨j, c', ctx, resp, hc', hq', hr', hlog', hy.checked hcrypto hclient hserial⟩
    written := hinfo
    client := by
      rw [hinfo]
      exact hclient
    session := hkey
    unexpired := hy.unexpired
    scope := by
      rw [hinfo]
      rfl
    role := by
      obtain ⟨key, notBefore, notAfter, hcert, -⟩ := Kdc.certificateOf_some hy.cert
      have hrole : y.cert.role = Kdc.mapCAIdentityRole y.resp.role :=
        congrArg Kdc.Certificate.role hcert
      rw [hinfo, ← hrole]
      exact hy.role }

/-- A role that may create transfers is not that of a bank administrator. -/
theorem role_of_transfer {role : Bank.IdentityRole}
    (hrole : Kdc.roleAllowsScope (Kdc.mapCAIdentityRole role) "transfer:create" = true) :
    role ≠ .bankAdmin := by
  rintro rfl
  exact absurd hrole (by decide)

/-- **Provenance of transfers.** In all states that interleaved calls of the KDC and of the bank can
reach, if no ticket is forged, every completed transaction debits an account of the user who signed
an AS request with the key of a certificate that the CA reported as that user's: the bank committed
it for a ticket that the TGS granted for creating transfers, not to a bank administrator, on the
ticket-granting ticket of that AS request, before that had expired. -/
theorem transfer_provenance (s : Kdc.Service) (h : Bank.Handler) (rounding : Postgres.Rounding)
    (hcrypto : s.crypto.Opens) (e₀ : Kdc.Env) (clock : Instant) (t : State (Kdc.kdcMachine s))
    (u : State (Bank.handlerMachine h rounding)) (ht : Reachable e₀ t)
    (hu : Reachable (Bank.Env.initial clock) u) (hgenuine : TicketsGenuine s t h u)
    (row : Bank.Transaction) (hrow : row ∈ Bank.Db.transactions u.env.db)
    (hstatus : row.status = .completed) :
    ∃ (i : ℕ) (c : Call (Bank.handlerMachine h rounding))
      (ticketV authenticator cipherPayload iv : List UInt8) (x : Bank.ApExchange)
      (transfer : Bank.TransferPayload) (canonical signature : List UInt8) (A B : Bank.Account)
      (q : Kdc.ASRequest) (z : Kdc.ASExchange) (req : Kdc.TGSRequest) (y : Kdc.TGSExchange),
      u.call i = some c ∧ Bank.CommittedBy u.env.db row c ticketV authenticator cipherPayload iv x
        transfer canonical signature A B ∧
      Provenance s t x.ticket q z req y ∧ A.userId.text = q.ownerID ∧
      z.cert.ownerID = q.ownerID ∧ req.requestedScope = "transfer:create" ∧
      y.resp.role ≠ .bankAdmin := by
  obtain ⟨i, c, ticketV, authenticator, cipherPayload, iv, x, transfer, canonical, signature, A, B,
    hc, hby⟩ := Bank.completed_authorized hu row hrow hstatus
  have hq : c.request.presented = some (ticketV, authenticator) := by rw [hby.request]; rfl
  have hpassed := hby.authorized.passed
  obtain ⟨q, z, req, y, hprov⟩ := provenance hcrypto ht hgenuine hc hq hpassed
  have hscope : x.ticket.scope = "transfer:create" := hpassed.scope
  refine ⟨i, c, ticketV, authenticator, cipherPayload, iv, x, transfer, canonical, signature, A, B,
    q, z, req, y, hc, hby, hprov, ?_, ?_, ?_, ?_⟩
  · rw [hby.owner, hprov.client]
  · obtain ⟨j, c', ctx, asRep, expiry, -, -, -, -, hsound, -⟩ := hprov.granted
    exact hsound.owner
  · rw [hprov.scope, hscope]
  · have hrole := hprov.role
    rw [hscope] at hrole
    exact role_of_transfer hrole

end Bank

/-! ## A sample client -/

section Sample

open Kdc (sampleCrypto fiveMinutes)

/-- The KDC of the sample client. -/
abbrev chainService : Kdc.Service := Kdc.sampleService fiveMinutes

/-- What the CA says about the certificate of the sample user 1. -/
def chainReply : Kdc.VerifyCertificateResponse :=
  { Kdc.sampleReply .customer with ownerId := Bank.sampleUser 1 }

/-- The AS request of the sample user 1. -/
def chainAS : Kdc.ASRequest := ⟨Bank.sampleUser 1, "01", [1], 1700000000, [1]⟩

/-- The text of its ticket-granting ticket. -/
def chainTGT : List UInt8 := Json.marshalStruct
  (chainService.tgtPayload (Bank.sampleUser 1) "01" (List.replicate 32 0) Kdc.sampleClock).members

/-- Its TGS request. -/
def chainTGS : Kdc.TGSRequest :=
  ⟨"bank-service",
    sampleCrypto.encryptBytes (List.replicate 32 1) (List.replicate 12 0) chainTGT,
    sampleCrypto.encryptBytes (List.replicate 32 0) (List.replicate 12 0) (Json.marshalStruct
      [("client_id", .string (Bank.sampleUser 1)), ("ts_3", Json.int 1700000000),
        ("nonce_req", .string "AQ=="), ("request_id", .string "r1"),
        ("requested_service", .string "bank-service"), ("scope", .string "transfer:create")]),
    "01", [], "transfer:create"⟩

/-- The certificate of the sample user 1. -/
def chainCertificate : Kdc.Certificate :=
  .of "01" chainReply "key" (.unix 1600000000) (.unix 1800000000)

/-- What its ticket for the bank says. -/
def chainTicket : Kdc.ServiceTicketPlaintext :=
  chainService.serviceTicket "bank-service" (Bank.sampleUser 1) chainCertificate "transfer:create"
    "AQ==" (List.replicate 32 0) Kdc.sampleClock

/-- Its ticket for the bank. -/
def chainTicketV : List UInt8 :=
  sampleCrypto.encryptBytes (List.replicate 32 7) (List.replicate 12 0)
    (Json.marshalStruct chainTicket.members)

/-- The sample user 1 gets both tickets. -/
def chainExchanges : List (Act (Kdc.kdcMachine chainService)) :=
  .spawn 0 (.issueTGT ⟨"", ""⟩ chainAS) ::
    List.replicate 12 (.run 0 { cert := .ok chainReply : Kdc.Choice }) ++
  .spawn 1 (.requestServiceTicket ⟨"", ""⟩ chainTGS) ::
    List.replicate 11 (.run 1 { cert := .ok chainReply : Kdc.Choice })

/-- The sample users are created, and user 1 pays with its ticket. -/
def chainPaid : List (Act (Bank.handlerMachine Bank.sampleHandler .cut)) :=
  Bank.handlerCall 0 (.createUser ⟨Bank.sampleUser 1, "01", "User"⟩) 7 ++
    Bank.handlerCall 1 (.createUser ⟨Bank.sampleUser 2, "02", "User"⟩) 7 ++
    Bank.handlerCall 2 (.transferMoney chainTicketV (Bank.sampleAuthenticator 1700000000)
      Bank.samplePayload []) 24

/-- The random bytes that a call has read. -/
def randoms (log : Kdc.Log) : List (List UInt8) :=
  log.filterMap fun
    | ⟨.readRandom _, _, .ok bytes⟩ => some bytes
    | _ => none

/-- What the CA reported to a call. -/
def reports (log : Kdc.Log) : List Kdc.VerifyCertificateResponse :=
  log.filterMap fun
    | ⟨.verifyCertificate _, _, .ok resp⟩ => some resp
    | _ => none

/-- The statements of a call were executed at the sample clock. -/
def atOnce (log : Kdc.Log) : Bool := log.all fun ev => decide (ev.env.clock = Kdc.sampleClock)

/-- What a call was asked for and has read, and which ticket it issued, all at once. -/
structure CallView where
  request : Kdc.KdcRequest
  randoms : List (List UInt8)
  reports : List Kdc.VerifyCertificateResponse
  atOnce : Bool
  grants : Option (Bool × Bool)
  deriving DecidableEq

/-- The view of a call. -/
def CallView.of (c : Call (Kdc.kdcMachine chainService)) : CallView where
  request := c.request
  randoms := Kerberos.randoms c.log
  reports := Kerberos.reports c.log
  atOnce := Kerberos.atOnce c.log
  grants := c.rest.result.map fun r => (r.grantsTGT, r.grantsTicket)

/-- The view of the sample AS exchange. -/
def viewAS : CallView :=
  ⟨.issueTGT ⟨"", ""⟩ chainAS, [List.replicate 32 0, List.replicate 12 0, List.replicate 32 0,
    List.replicate 32 0, List.replicate 12 0, List.replicate 32 0], [chainReply], true,
    some (true, false)⟩

/-- The view of the sample TGS exchange. -/
def viewTGS : CallView :=
  ⟨.requestServiceTicket ⟨"", ""⟩ chainTGS,
    [List.replicate 32 0, List.replicate 12 0, List.replicate 12 0], [chainReply], true,
    some (false, true)⟩

theorem chainExchanges_runs : ∃ t, Steps (Kdc.sampleStart fiveMinutes) chainExchanges t ∧
    (t.calls.entries.map (·.1), (t.call 0).map CallView.of, (t.call 1).map CallView.of) =
      ([1, 0], some viewAS, some viewTGS) :=
  steps_of_view (by decide +kernel)

theorem chainPaid_runs : ∃ u, Steps Bank.handlerStart chainPaid u ∧
    (u.env.db.transactions.map (·.status), u.calls.entries.map fun c => c.2.request.presented) =
      ([.completed], [some (chainTicketV, Bank.sampleAuthenticator 1700000000), none, none]) :=
  steps_of_view (by decide +kernel)

theorem chainTGT_opens :
    chainService.crypto.decryptBytes chainService.tgs.tgsKey.1 chainTGS.tgtCiphertext =
      some chainTGT :=
  chainService.crypto.decryptBytes_encryptBytes Kdc.sampleCrypto_opens chainService.as.ktgsKey.2
    rfl _

theorem chainTicketV_opens :
    Bank.sampleHandler.decryptAESGCMEmbedded Bank.sampleHandler.bankKV chainTicketV =
      some (Json.marshalStruct chainTicket.members) :=
  have hkey : chainService.tgs.serviceKeys.lookup "bank-service" =
      some ⟨List.replicate 32 7, rfl⟩ := rfl
  decrypt_sealed (sample_shared fiveMinutes) hkey rfl _

/-- A part of a call's log was executed at the sample clock. -/
theorem clock_of_atOnce {log log' : Kdc.Log} (h : atOnce log = true) (hle : log' <+: log)
    (ev : Event Kdc.world) (hev : ev ∈ log') : ev.env.clock = Kdc.sampleClock :=
  of_decide_eq_true (List.all_eq_true.mp h ev (hle.subset hev))

variable {t : State (Kdc.kdcMachine chainService)} {e₀ : Kdc.Env}

/-- The AS sealed the sample ticket-granting ticket. -/
theorem sealedByAS_of_view (ht : Reachable e₀ t)
    (hview : (t.call 0).map CallView.of = some viewAS) :
    ∃ z, SealedByAS chainService t chainTGT chainAS z := by
  obtain ⟨c, hc, hview⟩ := Option.map_eq_some_iff.mp hview
  simp only [CallView.of, viewAS, CallView.mk.injEq] at hview
  obtain ⟨hq, hrandoms, -, honce, hgrants⟩ := hview
  obtain ⟨result, hr, hgrants⟩ := Option.map_eq_some_iff.mp hgrants
  obtain ⟨asRep, expiry, rfl⟩ := Kdc.eq_of_grantsTGT (Prod.mk.inj hgrants).1
  obtain ⟨z, hlog, -⟩ := Kdc.issued_TGT ht hc hq hr
  refine ⟨z, ⟨0, c, _, asRep, expiry, hc, hq, hr, hlog⟩, ?_⟩
  -- the session key is the first thing the call drew
  have hkey : randoms (z.log chainService chainAS) <+: randoms c.log := hlog.filterMap _
  rw [hrandoms] at hkey
  have hkey : z.sessionKey = List.replicate 32 0 := (List.cons_prefix_cons.mp hkey).1
  have hclock := clock_of_atOnce honce hlog (Kdc.clockRead z.issued z.issued.clock)
    (by simp [Kdc.ASExchange.log])
  have hclock : z.issued.clock = Kdc.sampleClock := hclock
  rw [hkey, hclock]
  rfl

/-- The TGS sealed the sample ticket for the bank. -/
theorem sealedByTGS_of_view (ht : Reachable e₀ t)
    (hview : (t.call 1).map CallView.of = some viewTGS) :
    ∃ y, SealedByTGS chainService t (Json.marshalStruct chainTicket.members) chainTGS y := by
  obtain ⟨c, hc, hview⟩ := Option.map_eq_some_iff.mp hview
  simp only [CallView.of, viewTGS, CallView.mk.injEq] at hview
  obtain ⟨hq, hrandoms, hreports, honce, hgrants⟩ := hview
  obtain ⟨result, hr, hgrants⟩ := Option.map_eq_some_iff.mp hgrants
  obtain ⟨resp, rfl⟩ := Kdc.eq_of_grantsTicket (Prod.mk.inj hgrants).2
  obtain ⟨y, hlog, hy⟩ := Kdc.issued_ticket ht hc hq hr
  refine ⟨y, ⟨1, c, _, resp, hc, hq, hr, hlog⟩, hy.tgt, hy.auth, hy.cert, ?_⟩
  -- what the exchange used, one after the other
  obtain ⟨hclient, hserial, hkctgs, -⟩ := Kdc.openTGT_sealed chainTGT_opens hy.tgt
  have hnonce : y.auth.nonceReq = "AQ==" := by
    have hread : (chainService.decryptAuthenticator (List.replicate 32 0)
        chainTGS.authenticator).toOption.map (·.nonceReq) = some "AQ==" := by decide +kernel
    have hauth := hy.auth
    rw [hkctgs] at hauth
    rw [hauth] at hread
    exact Option.some.inj hread
  have hresp : reports (y.log chainService chainTGS) <+: reports c.log := hlog.filterMap _
  rw [hreports] at hresp
  have hresp : y.resp = chainReply := (List.cons_prefix_cons.mp hresp).1
  have hcert : y.cert = chainCertificate := by
    have hread := hy.cert
    rw [hresp] at hread
    exact (Option.some.inj hread).symm
  have hkcv : randoms (y.log chainService chainTGS) <+: randoms c.log := hlog.filterMap _
  rw [hrandoms] at hkcv
  have hkcv : y.kcv = List.replicate 32 0 := (List.cons_prefix_cons.mp hkcv).1
  have hclock := clock_of_atOnce honce hlog (Kdc.clockRead y.issued y.issued.clock)
    (by simp [Kdc.TGSExchange.log])
  have hclock : y.issued.clock = Kdc.sampleClock := hclock
  rw [Kdc.TGSExchange.ticket, hclient, hcert, hnonce, hkcv, hclock]
  rfl

/-- No ticket of the sample client is forged. -/
theorem chain_genuine (ht : Reachable e₀ t)
    {u : State (Bank.handlerMachine Bank.sampleHandler .cut)}
    (hview : (t.calls.entries.map (·.1), (t.call 0).map CallView.of, (t.call 1).map CallView.of) =
      ([1, 0], some viewAS, some viewTGS))
    (hpresented : (u.calls.entries.map fun c => c.2.request.presented) =
      [some (chainTicketV, Bank.sampleAuthenticator 1700000000), none, none]) :
    TicketsGenuine chainService t Bank.sampleHandler u where
  tgt i c ctx req plain hc hq hplain := by
    simp only [Prod.mk.injEq] at hview
    obtain ⟨hcalls, hAS, hTGS⟩ := hview
    have hmem : i ∈ t.calls.entries.map (·.1) :=
      List.mem_map_of_mem (AList.mem_lookup_iff.mp hc)
    rw [hcalls, List.mem_cons, List.mem_singleton] at hmem
    rcases hmem with rfl | rfl
    · rw [hc] at hTGS
      have hrequest : c.request = .requestServiceTicket ⟨"", ""⟩ chainTGS :=
        congrArg CallView.request (Option.some.inj hTGS)
      rw [hrequest] at hq
      obtain ⟨-, rfl⟩ := Kdc.KdcRequest.requestServiceTicket.inj hq
      obtain rfl := Option.some.inj (chainTGT_opens.symm.trans hplain)
      exact ⟨chainAS, sealedByAS_of_view ht hAS⟩
    · rw [hc] at hAS
      have hrequest : c.request = .issueTGT ⟨"", ""⟩ chainAS :=
        congrArg CallView.request (Option.some.inj hAS)
      rw [hrequest] at hq
      cases hq
  ticket i c ticketV authenticator plain hc hq hplain := by
    have hmem : c.request.presented ∈ u.calls.entries.map fun c => c.2.request.presented :=
      List.mem_map_of_mem (AList.mem_lookup_iff.mp hc)
    rw [hq, hpresented] at hmem
    have hticket : ticketV = chainTicketV := by
      simp only [List.mem_cons, Option.some.injEq, Prod.mk.injEq, reduceCtorEq,
        List.not_mem_nil, or_false] at hmem
      exact hmem.1
    rw [hticket] at hplain
    obtain rfl := Option.some.inj (chainTicketV_opens.symm.trans hplain)
    simp only [Prod.mk.injEq] at hview
    exact ⟨chainTGS, sealedByTGS_of_view ht hview.2.2⟩

/-- The payment of the sample client goes back to its AS request. -/
theorem transfer_provenance_of_chainPaid :
    ∃ (t : State (Kdc.kdcMachine chainService))
      (u : State (Bank.handlerMachine Bank.sampleHandler .cut)) (row : Bank.Transaction)
      (A : Bank.Account) (x : Bank.ApExchange) (q : Kdc.ASRequest) (z : Kdc.ASExchange)
      (req : Kdc.TGSRequest) (y : Kdc.TGSExchange),
      Steps (Kdc.sampleStart fiveMinutes) chainExchanges t ∧ Steps Bank.handlerStart chainPaid u ∧
      row ∈ Bank.Db.transactions u.env.db ∧ row.status = .completed ∧
      row.fromAccountId = some A.id ∧ Provenance chainService t x.ticket q z req y ∧
      A.userId.text = q.ownerID ∧ z.cert.ownerID = q.ownerID := by
  obtain ⟨t, ht, hview⟩ := chainExchanges_runs
  obtain ⟨u, hu, hpaid⟩ := chainPaid_runs
  obtain ⟨hstatus, hpresented⟩ := Prod.mk.inj hpaid
  obtain ⟨row, hrow, hcompleted⟩ := List.mem_map.mp
    (hstatus ▸ List.mem_singleton_self Bank.TransactionStatus.completed :
      Bank.TransactionStatus.completed ∈ u.env.db.transactions.map (·.status))
  obtain ⟨i, c, ticketV, authenticator, cipherPayload, iv, x, transfer, canonical, signature, A, B,
    q, z, req, y, -, hby, hprov, howner, hcert, -, -⟩ := transfer_provenance chainService
      Bank.sampleHandler .cut Kdc.sampleCrypto_opens _ _ t u ⟨_, ht⟩ ⟨_, hu⟩
      (chain_genuine ⟨_, ht⟩ hview hpresented) row hrow hcompleted
  exact ⟨t, u, row, A, x, q, z, req, y, ht, hu, hrow, hcompleted, hby.row_source, hprov, howner,
    hcert⟩

end Sample

end Kerberos
