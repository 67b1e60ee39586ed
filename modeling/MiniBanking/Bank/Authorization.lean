import MiniBanking.Bank.Gate

/-!
# Every transfer is authorized

Whoever debits an account presents a ticket, an authenticator, a certificate and a signed payload
for it. The checks of the handler are exact but for three slips: the expiry check reads the clock
twice and misses a first reading that is the expiry itself, the freshness check overflows, and a
certificate whose end of validity is before 1970 counts as one without an end.

## Main definitions

* `Vouched`: what a request has to show for a transfer
* `ApExchange.Exact`: an exchange on which no check slips

## Main results

* `Authorized.vouched`: on such an exchange the checks show all of it
* `completed_authorized`: every completed transaction was committed on the evidence of its call
* `transfer_authorized`: if no check slips, every completed transaction is vouched for
-/

namespace Bank

open Concurrency Go Kerberos Postgres

/-! ## What a request has to show -/

/-- What a request has to show for a transfer of an amount from `A` to `B`: its ticket has not
expired and has the scope, its authenticator is by the ticket's client and fresh, the CA reported
the ticket's certificate usable by that client, and the signature is over the canonical text of a
payload that names the numbers of the accounts and the amount, where `A` is the client's. -/
structure Vouched (h : Handler) (ticketV authenticator cipherPayload iv : List UInt8)
    (x : ApExchange) (transfer : TransferPayload) (canonical signature : List UInt8)
    (A B : Account) (amount : Int64) : Prop where
  ticket : h.decryptTicket ticketV = some x.ticket
  unexpired : x.first.clock.time.ns < x.ticket.expires.ns
  scope : x.ticket.scope = "transfer:create"
  authenticator : h.decryptAuthenticator x.ticket.session authenticator = some x.authn
  names : x.authn.clientID = x.ticket.clientID
  fresh : Fresh x.third.clock x.authn.timestamp freshnessWindow
  active : x.cert.status = .active
  unrevoked : x.cert.revokedAtUnix = 0
  begun : x.cert.notBeforeUnix.toInt * second ≤ x.fourth.clock.ns
  not_ended : x.cert.notAfterUnix = 0 ∨ x.fourth.clock.ns < x.cert.notAfterUnix.toInt * second
  client : x.cert.certType = "client"
  issuer : x.cert.issuerId = "client-ca"
  owner : x.cert.ownerId = "" ∨ x.cert.ownerId = x.ticket.clientID
  payload : ∃ order, h.decryptTransferPayload order cipherPayload iv x.ticket.session =
    some (transfer, canonical, signature)
  signed : h.verifyRSAPSS (selectedKey x.ticket x.cert) canonical signature = true
  parsed : parsePayload canonical = some transfer
  from_number : transfer.fromAccountNumber = A.accountNumber
  to_number : transfer.toAccountNumber = B.accountNumber
  amount : transfer.amount = amount
  source_owner : A.userId.text = x.ticket.clientID

/-- No check slips on the exchange: the first reading is not the expiry itself, the timestamp is
not misjudged, and the CA reports no time before 1970. -/
structure ApExchange.Exact (x : ApExchange) : Prop where
  first : x.first.clock.time.ns ≠ x.ticket.expires.ns
  third : ¬ Misjudged x.third.clock x.authn.timestamp freshnessWindow
  not_after : 0 ≤ x.cert.notAfterUnix
  revoked_at : 0 ≤ x.cert.revokedAtUnix

/-! ## The checks are exact where they do not slip -/

/-- `Unix()` of a clock reading is the number of whole seconds. -/
theorem toInt_toUnix_time (now : Instant) : now.time.toUnix.toInt = now.ns / second := by
  obtain ⟨hle, hlt⟩ := now.real
  rw [Time.toUnix, Int64.toInt_sub, sec_time, toInt_internal]
  have hdiv : -2 ^ 63 ≤ now.ns / second ∧ now.ns / second < 2 ^ 63 := by
    rw [second]
    omega
  rw [add_sub_cancel_right]
  exact Int.bmod_eq_of_le (by omega) (by omega)

/-- What is parsed from an envelope is parsed from its canonical text. -/
theorem parseEnvelope_parsed {order : List ℕ} {raw canonical signature : List UInt8}
    {transfer : TransferPayload}
    (h : parseEnvelope order raw = some (transfer, canonical, signature)) :
    parsePayload canonical = some transfer := by
  simp only [parseEnvelope, Option.bind_eq_bind, Option.bind_eq_some_iff] at h
  obtain ⟨json, -, envelope, -, signature', -, transfer', htransfer, heq⟩ := h
  cases heq
  exact htransfer

theorem decryptTransferPayload_parsed {h : Handler} {order : List ℕ}
    {cipherPayload iv session canonical signature : List UInt8} {transfer : TransferPayload}
    (hp : h.decryptTransferPayload order cipherPayload iv session =
      some (transfer, canonical, signature)) : parsePayload canonical = some transfer := by
  unfold Handler.decryptTransferPayload at hp
  split at hp
  all_goals
    obtain ⟨raw, -, hraw⟩ := Option.bind_eq_some_iff.mp hp
    exact parseEnvelope_parsed hraw

/-- **The evidence of a call that commits a transfer shows what it has to**, if no check slips,
for the accounts whose numbers the payload names. -/
theorem Authorized.vouched {h : Handler} {rounding : Rounding}
    {ticketV authenticator cipherPayload iv : List UInt8} {log : Log rounding} {x : ApExchange}
    {transfer : TransferPayload} {canonical signature : List UInt8} {A B : Account}
    (ha : Authorized h ticketV authenticator cipherPayload iv log x transfer canonical signature)
    (hx : x.Exact) (hfrom : A.accountNumber = transfer.fromAccountNumber)
    (hto : B.accountNumber = transfer.toAccountNumber)
    (howner : A.userId.text = x.ticket.clientID) :
    Vouched h ticketV authenticator cipherPayload iv x transfer canonical signature A B
      transfer.amount := by
  obtain ⟨hpassed, ⟨order, e, hsigned, -⟩, -⟩ := ha
  have haccepted := hpassed.accepted
  simp only [certificateRejected, not_or, not_and, not_not, Int64.lt_iff_toInt_lt,
    Int64.le_iff_toInt_le, not_lt, not_le, toInt_toUnix_time] at haccepted
  obtain ⟨hactive, hrevoked, hbegun, hended⟩ := haccepted
  have hmetadata := hpassed.metadata
  simp only [validateClientCertificateMetadata, Bool.and_eq_true, decide_eq_true_eq]
    at hmetadata
  exact {
    ticket := hpassed.ticket
    unexpired := by
      have hnot : ¬ x.ticket.expires.ns < x.first.clock.time.ns := by
        rw [← Time.after_iff, hpassed.not_after]
        exact Bool.false_ne_true
      exact lt_of_le_of_ne (not_lt.mp hnot) hx.first
    scope := hpassed.scope
    authenticator := hpassed.authenticator
    names := hpassed.names
    fresh := by
      have hwindow := (stale_iff _ _).mp hpassed.not_stale
      exact ((timestampWithinWindow_iff _ _ _).mp hwindow).resolve_right hx.third
    active := hactive
    unrevoked := by
      have hpos := Int64.le_iff_toInt_le.mp hx.revoked_at
      exact Int64.toInt_inj.mp (le_antisymm hrevoked hpos)
    begun := by
      rw [second] at hbegun ⊢
      omega
    not_ended := by
      by_cases hzero : x.cert.notAfterUnix = 0
      · exact .inl hzero
      · have hpos := Int64.le_iff_toInt_le.mp hx.not_after
        have hne : x.cert.notAfterUnix.toInt ≠ 0 := fun h0 => hzero (Int64.toInt_inj.mp h0)
        have hlt := hended (lt_of_le_of_ne hpos (Ne.symm hne))
        rw [second] at hlt ⊢
        exact .inr (by omega)
    client := hmetadata.1.1
    issuer := hmetadata.1.2
    owner := by
      by_cases hempty : x.cert.ownerId = ""
      · exact .inl hempty
      · exact .inr (not_not.mp fun hne => hpassed.owner ⟨hempty, hne⟩)
    payload := ⟨order, hsigned.decrypted⟩
    signed := hsigned.verified
    parsed := decryptTransferPayload_parsed hsigned.decrypted
    from_number := hfrom.symm
    to_number := hto.symm
    amount := rfl
    source_owner := howner }

/-! ## Every completed transaction -/

section Runs

variable {h : Handler} {rounding : Rounding} {ticketV authenticator cipherPayload iv : List UInt8}
  {x : ApExchange} {transfer : TransferPayload} {canonical signature : List UInt8}

theorem Authorized.mono {log log' : Log rounding}
    (ha : Authorized h ticketV authenticator cipherPayload iv log x transfer canonical signature)
    (hle : log <+: log') :
    Authorized h ticketV authenticator cipherPayload iv log' x transfer canonical signature :=
  let ⟨order, e, hsigned, hissued⟩ := ha.payload
  ⟨ha.passed, ⟨order, e, hsigned, hissued.trans hle⟩, ha.marked.mono hle⟩

/-- The call committed the transaction, which debits `A` for `B`, on the evidence it has. -/
structure CommittedBy (db : Db) (row : Transaction) (c : Call (machine rounding h.program))
    (ticketV authenticator cipherPayload iv : List UInt8) (x : ApExchange)
    (transfer : TransferPayload) (canonical signature : List UInt8) (A B : Account) : Prop where
  request : c.request = ApRequest.transferMoney ticketV authenticator cipherPayload iv
  authorized : Authorized h ticketV authenticator cipherPayload iv c.log x transfer canonical
    signature
  source : A ∈ db.accounts
  target : B ∈ db.accounts
  row_source : row.fromAccountId = some A.id
  row_target : row.toAccountId = some B.id
  row_amount : row.amount = transfer.amount
  from_number : A.accountNumber = transfer.fromAccountNumber
  to_number : B.accountNumber = transfer.toAccountNumber
  owner : A.userId.text = x.ticket.clientID

/-- The evidence stays while the call goes on and the database grows. -/
theorem CommittedBy.next {db db' : Db} {row : Transaction}
    {c c' : Call (machine rounding h.program)} {A B : Account}
    (hc : CommittedBy db row c ticketV authenticator cipherPayload iv x transfer canonical
      signature A B)
    (hext : db.Extends db') (hrequest : c'.request = c.request) (hlog : c.log <+: c'.log) :
    ∃ A' B', CommittedBy db' row c' ticketV authenticator cipherPayload iv x transfer canonical
      signature A' B' := by
  obtain ⟨A', hA', hstatic⟩ := hext.account hc.source
  obtain ⟨B', hB', hstatic'⟩ := hext.account hc.target
  simp only [Account.static, Prod.mk.injEq] at hstatic hstatic'
  exact ⟨A', B', {
    request := hrequest.trans hc.request
    authorized := hc.authorized.mono hlog
    source := hA'
    target := hB'
    row_source := by rw [hc.row_source, hstatic.1]
    row_target := by rw [hc.row_target, hstatic'.1]
    row_amount := hc.row_amount
    from_number := by rw [hstatic.2.2.1, hc.from_number]
    to_number := by rw [hstatic'.2.2.1, hc.to_number]
    owner := by rw [hstatic.2.1, hc.owner] }⟩

/-- A movement that a call commits under its promise leaves its evidence. -/
theorem Authorized.committedBy {log : Log rounding} {db db' : Db} {m : Movement}
    {c : Call (machine rounding h.program)}
    (ha : Authorized h ticketV authenticator cipherPayload iv log x transfer canonical signature)
    (hvalid : m.Valid h.svc rounding db)
    (hdescribes : m.Describes (callerFrom x.auth)
      (Handler.transferInput transfer canonical signature))
    (hext : db.Extends db')
    (hrequest : c.request = ApRequest.transferMoney ticketV authenticator cipherPayload iv)
    (hlog : log <+: c.log) :
    ∃ A B, CommittedBy db' m.row c ticketV authenticator cipherPayload iv x transfer canonical
      signature A B := by
  have hhere : CommittedBy db m.row ⟨c.request, c.rest, c.loc, log⟩ ticketV authenticator
      cipherPayload iv x transfer canonical signature m.source m.target := {
    request := hrequest
    authorized := ha
    source := (Db.mem_of_account hvalid.source_mem).1
    target := (Db.mem_of_account hvalid.target_mem).1
    row_source := hvalid.row_source
    row_target := hvalid.row_target
    row_amount := hdescribes.amount
    from_number := hdescribes.source_number
    to_number := hdescribes.target_number
    owner := hdescribes.owner }
  exact hhere.next hext rfl hlog

/-- **Every completed transaction was committed by a call on the evidence it has.** -/
theorem completed_authorized {clock : Instant} {s : State (machine rounding h.program)}
    (hs : Reachable (Env.initial clock) s) :
    ∀ row ∈ s.env.db.transactions, row.status = .completed →
      ∃ i c ticketV authenticator cipherPayload iv x transfer canonical signature A B,
        s.call i = some c ∧ CommittedBy s.env.db row c ticketV authenticator cipherPayload iv x
          transfer canonical signature A B := by
  have hkept := handler_kept h rounding
  refine hs.induct (P := fun s : State (machine rounding h.program) =>
    ∀ row ∈ s.env.db.transactions, row.status = .completed →
    ∃ i c ticketV authenticator cipherPayload iv x transfer canonical signature A B,
      s.call i = some c ∧ CommittedBy s.env.db row c ticketV authenticator cipherPayload iv x
        transfer canonical signature A B) ?_ ?_
  · intro row hrow
    cases hrow
  intro s t a hreach ih hn row hrow hstatus
  have hext : s.env.db.Extends t.env.db := hkept.extends hreach (Steps.single hn)
  have hold : row ∈ s.env.db.transactions → ∃ i c ticketV authenticator cipherPayload iv x
      transfer canonical signature A B, t.call i = some c ∧ CommittedBy t.env.db row c ticketV
        authenticator cipherPayload iv x transfer canonical signature A B := by
    intro hrow
    obtain ⟨i, c, ticketV, authenticator, cipherPayload, iv, x, transfer, canonical, signature,
      A, B, hc, hby⟩ := ih row hrow hstatus
    obtain ⟨c', hc', hrequest, hlog⟩ := State.call_next hn hc
    obtain ⟨A', B', hby'⟩ := hby.next hext hrequest hlog
    exact ⟨i, c', _, _, _, _, _, _, _, _, A', B', hc', hby'⟩
  obtain hdb | ⟨i, choice, q, k, tx, log, rfl, hi, hG, hg, -, -, hdb⟩ := hkept.step hreach hn
  · exact hold (hdb ▸ hrow)
  cases q with
  | transferMoney ticketV authenticator cipherPayload iv =>
    obtain ⟨x, transfer, canonical, signature, _, hauth, htx, hready⟩ := hG
    obtain rfl := Conn.active.inj htx
    obtain ⟨row', hfailed, -, -, heq⟩ | ⟨m, -, hvalid, hdescribes, heq⟩ :=
      hready.commit hg (hkept.reachable hreach).1.wf
    · rw [hdb, heq, Db.append_transactions] at hrow
      rcases List.mem_append.mp hrow with hrow | hrow
      · exact hold hrow
      · obtain rfl := List.mem_singleton.mp hrow
        rw [hfailed] at hstatus
        cases hstatus
    · rw [hdb, heq, Movement.apply_transactions] at hrow
      rcases List.mem_append.mp hrow with hrow | hrow
      · exact hold hrow
      · obtain rfl := List.mem_singleton.mp hrow
        obtain ⟨c', hc', hrequest, hlog⟩ := State.call_next hn hi
        obtain ⟨A, B, hby⟩ := hauth.committedBy hvalid hdescribes hext hrequest hlog
        exact ⟨i, c', _, _, _, _, _, _, _, _, A, B, hc', hby⟩
  | createUser =>
    obtain ⟨_, htx, hopening⟩ := hG
    obtain rfl := Conn.active.inj htx
    obtain ⟨u, a, -, heq⟩ := hopening.commit hg
    rw [hdb, heq] at hrow
    exact hold hrow
  | _ => exact hG.elim

/-- Every completed transaction from `A` to `B` has a call whose request shows all it has to for
its amount. -/
def TransfersVouched (h : Handler) (rounding : Rounding) (s : State (handlerMachine h rounding)) :
    Prop :=
  ∀ row ∈ s.env.db.transactions, row.status = .completed →
    ∃ A ∈ s.env.db.accounts, ∃ B ∈ s.env.db.accounts,
      row.fromAccountId = some A.id ∧ row.toAccountId = some B.id ∧
      ∃ i c ticketV authenticator cipherPayload iv x transfer canonical signature,
        s.call i = some c ∧
        c.request = ApRequest.transferMoney ticketV authenticator cipherPayload iv ∧
        x.log rounding <+: c.log ∧ Vouched h ticketV authenticator cipherPayload iv x transfer
          canonical signature A B row.amount

/-- **End-to-end authorization.** In every state that interleaved calls of the handler can reach,
on whose exchanges no check slips, every completed transaction is vouched for. -/
theorem transfer_authorized (h : Handler) (rounding : Rounding) (clock : Instant)
    (s : State (handlerMachine h rounding)) (hs : Reachable (Env.initial clock) s)
    (hexact : ∀ i c ticketV authenticator cipherPayload iv (x : ApExchange), s.call i = some c →
      c.request = ApRequest.transferMoney ticketV authenticator cipherPayload iv →
      x.Opens h ticketV authenticator → x.log rounding <+: c.log → x.Exact) :
    TransfersVouched h rounding s := by
  intro row hrow hstatus
  obtain ⟨i, c, ticketV, authenticator, cipherPayload, iv, x, transfer, canonical, signature, A, B,
    hc, hby⟩ := completed_authorized hs row hrow hstatus
  obtain ⟨order, e, -, hissued⟩ := hby.authorized.payload
  have hlog : x.log rounding <+: c.log := (List.prefix_append _ _).trans hissued
  have hx : x.Exact := hexact i c ticketV authenticator cipherPayload iv x hc hby.request
    hby.authorized.passed.toOpens hlog
  refine ⟨A, hby.source, B, hby.target, hby.row_source, hby.row_target, i, c, ticketV,
    authenticator, cipherPayload, iv, x, transfer, canonical, signature, hc, hby.request, hlog, ?_⟩
  rw [hby.row_amount]
  exact hby.authorized.vouched hx hby.from_number hby.to_number hby.owner

end Runs

/-! ## A sample payment -/

section Sample

/-- The sample payment with a timestamp in the year 2603 runs as any other. -/
theorem handlerPaid_2603_runs : ∃ s, Steps handlerStart (handlerPaid 20000000000) s ∧
    (s.env.db.transactions.map (·.status), isSample (sampleTicket scopeTransfer 1700000300,
      sampleAuthenticator 20000000000) s) = ([.completed], true) :=
  steps_of_view (by decide +kernel)

/-- A payment with an authenticator of the year 2603 is carried out in 2023. -/
theorem transfer_authorized_of_2603 :
    ¬ ∀ (h : Handler) (rounding : Rounding) (clock : Instant)
      (s : State (handlerMachine h rounding)), Reachable (Env.initial clock) s →
        TransfersVouched h rounding s := by
  intro hall
  obtain ⟨s, hs, hview⟩ := handlerPaid_2603_runs
  obtain ⟨hstatus, hsample⟩ := Prod.mk.inj hview
  obtain ⟨row, hrow, hcompleted⟩ : ∃ row ∈ s.env.db.transactions, row.status = .completed := by
    rw [← List.mem_map, hstatus]
    exact List.mem_singleton_self _
  obtain ⟨A, -, B, -, -, -, i, c, ticketV, authenticator, cipherPayload, iv, x, transfer, canonical,
    signature, hc, hq, hlog, hvouched⟩ := hall sampleHandler .cut sampleClock s ⟨_, hs⟩ row hrow
      hcompleted
  obtain ⟨hopens, -, hthird, -⟩ := exchange_of_isSample hsample hc (congrArg _ hq)
    ⟨hvouched.ticket, hvouched.authenticator⟩ hlog
  have hfresh := hvouched.fresh
  have hsession : (sampleHandler.decryptTicket (sampleTicket scopeTransfer 1700000300)).map
      (·.session) = some sampleSession := by decide +kernel
  have htimestamp : (sampleHandler.decryptAuthenticator sampleSession
      (sampleAuthenticator 20000000000)).map (·.timestamp) = some 20000000000 := by
    decide +kernel
  rw [hopens.ticket] at hsession
  have hsession : x.ticket.session = sampleSession := Option.some.inj hsession
  have hauthn := hopens.authenticator
  rw [hsession] at hauthn
  rw [hauthn] at htimestamp
  have htimestamp : x.authn.timestamp = 20000000000 := Option.some.inj htimestamp
  rw [hthird, htimestamp] at hfresh
  exact absurd hfresh (by rw [Fresh]; decide)

theorem handlerPaid_runs : ∃ s, Steps handlerStart (handlerPaid 1700000000) s ∧
    (s.env.db.transactions.map (·.amount), isSample (sampleTicket scopeTransfer 1700000300,
      sampleAuthenticator 1700000000) s) = ([250], true) :=
  steps_of_view (by decide +kernel)

/-- The sample payment is vouched for. -/
theorem transfer_authorized_of_handlerPaid : ∃ s, Steps handlerStart (handlerPaid 1700000000) s ∧
    s.env.db.transactions.map (·.amount) = [250] ∧ TransfersVouched sampleHandler .cut s := by
  obtain ⟨s, hs, hview⟩ := handlerPaid_runs
  obtain ⟨hamounts, hsample⟩ := Prod.mk.inj hview
  refine ⟨s, hs, hamounts, transfer_authorized sampleHandler .cut sampleClock s ⟨_, hs⟩ ?_⟩
  intro i c ticketV authenticator cipherPayload iv x hc hq hopens hlog
  obtain ⟨hopens, hfirst, hthird, hcert⟩ := exchange_of_isSample hsample hc (congrArg _ hq)
    hopens hlog
  have hticket : (sampleHandler.decryptTicket (sampleTicket scopeTransfer 1700000300)).map
      (fun t => (t.session, t.expires)) = some (sampleSession, .unix 1700000300) := by
    decide +kernel
  have htimestamp : (sampleHandler.decryptAuthenticator sampleSession
      (sampleAuthenticator 1700000000)).map (·.timestamp) = some 1700000000 := by
    decide +kernel
  rw [hopens.ticket] at hticket
  obtain ⟨hsession, hexpires⟩ := Prod.mk.inj (Option.some.inj hticket)
  have hauthn := hopens.authenticator
  rw [hsession] at hauthn
  rw [hauthn] at htimestamp
  have htimestamp : x.authn.timestamp = 1700000000 := Option.some.inj htimestamp
  exact {
    first := by rw [hfirst, hexpires]; decide
    third := by rw [hthird, htimestamp, Misjudged]; decide
    not_after := by rw [hcert]; decide
    revoked_at := by rw [hcert]; decide }

end Sample

end Bank
