import MiniBanking.Bank.Handler
import MiniBanking.Bank.Refinement

/-!
# What a call of the handler promises

The handler checks a request by its first statements: it reads the clock three times, asks the
CA, and reads the clock again. These statements with their replies stay at the start of what the
call has issued, so they are the evidence for everything the call does afterwards: marking the
request as seen, and committing a transfer.

## Main definitions

* `ApExchange`: an AP exchange, with the statements it consists of
* `ApExchange.Passed`: the checks of `authorize`
* `SignedPayload`: the checks of the transfer payload
* `HandlerPromise`: under what a call of the handler issues its statements

## Main results

* `authorize_follows`: a request that passes the gate has an exchange that passed
* `markReplay_follows`: what marking a request promises
* `handler_kept`: the handler keeps its promises
-/

namespace Bank

open Concurrency Go Kerberos Postgres

/-! ## Promises about what was issued before -/

section Follows

variable {rounding : Rounding} {α β : Type}

/-- A program of the bank, after the statements `log` of its call, keeps its promises, which may
speak of what the call has issued. -/
structure Follows (rounding : Rounding) (G : Log rounding → Stmt → Env → Conn → Prop)
    (Q : Log rounding → α → Env → Conn → Prop) (p : Run α) (log : Log rounding) (e : Env)
    (l : Conn) : Prop where
  meets : p.Meets (W := world rounding) Rely G Q log e l

variable {G : Log rounding → Stmt → Env → Conn → Prop}
  {Q : Log rounding → α → Env → Conn → Prop} {log : Log rounding} {e : Env} {l : Conn}

theorem follows_stmt {s : Stmt} {f : Reply s → Run α}
    (h : ∀ e', Rely e e' → G log s e' l ∧ ∀ others c r e'' l',
      exec rounding others s c e' l = some (r, e'', l') →
        Follows rounding G Q (f r) (log ++ [Event.mk s e' r]) e'' l') :
    Follows rounding G Q (stmt s >>= f) log e l :=
  ⟨fun e' hr => ⟨(h e' hr).1, fun others c r e'' l' hx => ((h e' hr).2 others c r e'' l' hx).meets⟩⟩

theorem follows_ret {a : α} (h : ∀ e', Rely e e' → Q log a e' l) :
    Follows rounding G Q (pure a) log e l := ⟨h⟩

theorem follows_now {f : Instant → Run α} (hG : ∀ e, G log .now e l)
    (h : ∀ e', Rely e e' →
      Follows rounding G Q (f e'.clock) (log ++ [Event.mk Stmt.now e' e'.clock]) e' l) :
    Follows rounding G Q (stmt .now >>= f) log e l := by
  refine follows_stmt fun e' hr => ⟨hG e', fun others c r e'' l' hx => ?_⟩
  cases hx
  exact h e' hr

theorem Follows.bind {Q' : Log rounding → β → Env → Conn → Prop} {p : Run α} {f : α → Run β}
    (h : Follows rounding G (fun log a e l => Follows rounding G Q' (f a) log e l) p log e l) :
    Follows rounding G Q' (p >>= f) log e l :=
  ⟨Program.Meets.bind (fun _ _ h => h.refl)
    (h.meets.mono (fun _ _ _ _ h => h) fun _ _ _ _ h => h.meets)⟩

theorem Follows.mono {G' : Log rounding → Stmt → Env → Conn → Prop}
    {Q' : Log rounding → α → Env → Conn → Prop} {p : Run α} (h : Follows rounding G Q p log e l)
    (hG : ∀ log s e l, G log s e l → G' log s e l)
    (hQ : ∀ log a e l, Q log a e l → Q' log a e l) : Follows rounding G' Q' p log e l :=
  ⟨h.meets.mono hG hQ⟩

/-- What a program promises of itself holds after what its call has issued before. -/
theorem Keeps.follows {G : Stmt → Env → Conn → Prop} {Q : α → Env → Conn → Prop} {p : Run α}
    (h : Keeps rounding G Q p e l) (log : Log rounding) :
    Follows rounding (fun log' s e l => log <+: log' ∧ G s e l)
      (fun log' a e l => log <+: log' ∧ Q a e l) p log e l :=
  ⟨(h log).prefixed List.prefix_rfl⟩

/-- A rejected request issues one audit event, and is not accepted. -/
theorem follows_reject {event : AuditEvent} {status : Status}
    {P : Log rounding → β → Env → Conn → Prop} (hG : ∀ e, G log (.audit event) e l) :
    Follows rounding G (fun log r e l => ∀ b, r = Except.ok b → P log b e l)
      (reject event status) log e l := by
  refine follows_stmt fun e' hr => ⟨hG e', fun others c r e'' l' hx => ?_⟩
  exact follows_ret fun _ _ _ hr => nomatch hr

/-- A check rejects the request, or the rest of the program knows that it passed. -/
theorem follows_check {refused : Prop} [Decidable refused] {event : AuditEvent} {status : Status}
    {P : Log rounding → β → Env → Conn → Prop} {p : Run (Except Status β)}
    (hG : ∀ e, G log (.audit event) e l)
    (h : ¬ refused → Follows rounding G (fun log r e l => ∀ b, r = Except.ok b → P log b e l) p log
      e l) :
    Follows rounding G (fun log r e l => ∀ b, r = Except.ok b → P log b e l)
      (if refused then reject event status else p) log e l := by
  by_cases hrefused : refused
  · rw [if_pos hrefused]
    exact follows_reject hG
  · rw [if_neg hrefused]
    exact h hrefused

end Follows

/-- A statement that neither commits, nor marks a request as seen, nor stores a session. -/
def Stmt.plain : Stmt → Bool
  | .commit => false
  | .setNX _ _ => false
  | .insertUsedNonce _ _ _ => false
  | .createSession _ _ _ => false
  | _ => true

/-! ## AP exchanges -/

/-- An AP exchange: what was decrypted, what the CA replied, and the environments in which the
clock was read and the CA was asked. -/
structure ApExchange where
  ticket : TicketInfo
  authn : Authenticator
  cert : VerifyCertificateResponse
  first : Env
  second : Env
  third : Env
  asked : Env
  fourth : Env

namespace ApExchange

variable (x : ApExchange) (h : Handler)

/-- The statements of the exchange. -/
def log (rounding : Rounding) : Log rounding :=
  [⟨Stmt.now, x.first, x.first.clock⟩, ⟨Stmt.now, x.second, x.second.clock⟩,
    ⟨Stmt.now, x.third, x.third.clock⟩,
    ⟨Stmt.verifyCertificate x.ticket.certSN, x.asked, Except.ok x.cert⟩,
    ⟨Stmt.now, x.fourth, x.fourth.clock⟩]

/-- The identity that the exchange establishes. -/
def auth : AuthInfo := .of x.ticket x.authn x.cert

/-- The key under which the request is marked as seen. -/
def marker : String :=
  h.replayKey x.ticket.clientID x.authn.nonce (Time.unix x.authn.timestamp).toUnix
    x.authn.requestID

/-- The exchange is one of a ticket and an authenticator. -/
structure Opens (ticketV authenticator : List UInt8) : Prop where
  ticket : h.decryptTicket ticketV = some x.ticket
  authenticator : h.decryptAuthenticator x.ticket.session authenticator = some x.authn

/-- The checks of `authorize` pass. -/
structure Passed (ticketV authenticator : List UInt8) (requiredScope : String) : Prop
    extends x.Opens h ticketV authenticator where
  not_after : x.first.clock.time.after x.ticket.expires = false
  not_equal : x.second.clock.time.equal x.ticket.expires = false
  scope : x.ticket.scope = requiredScope
  names : x.authn.clientID = x.ticket.clientID
  complete : ¬ (x.authn.timestamp = 0 ∨ x.authn.nonce = "" ∨ x.authn.requestID = "")
  not_stale : stale x.third.clock.time x.authn.timestamp = false
  accepted : ¬ certificateRejected x.cert x.fourth.clock.time.toUnix
  owner : ¬ (x.cert.ownerId ≠ "" ∧ x.cert.ownerId ≠ x.ticket.clientID)
  metadata : validateClientCertificateMetadata x.cert = true
  matching : validateTicketCertificateMetadata x.ticket x.cert = true

end ApExchange

/-- A statement that marked a request as seen for the first time. -/
def Marks {rounding : Rounding} (ev : Event (world rounding)) : Prop :=
  match ev with
  | ⟨.setNX _ _, _, reply⟩ => reply = Except.ok true
  | ⟨.insertUsedNonce _ _ _, _, reply⟩ => reply = Except.ok ()
  | _ => False

/-- A request was marked as seen for the first time. -/
def Marked {rounding : Rounding} (log : Log rounding) : Prop := ∃ ev ∈ log, Marks ev

theorem marked_append {rounding : Rounding} (log : Log rounding) (ev : Event (world rounding)) :
    Marked (log ++ [ev]) ↔ Marked log ∨ Marks ev := by
  simp [Marked, or_and_right, exists_or]

theorem Marked.mono {rounding : Rounding} {log log' : Log rounding} (h : Marked log)
    (hle : log <+: log') : Marked log' :=
  let ⟨ev, hev, hmarks⟩ := h
  ⟨ev, hle.subset hev, hmarks⟩

/-- The checks of the transfer payload pass: it decrypts under the session key to a payload, its
canonical text and a signature of that text. -/
structure SignedPayload (h : Handler) (auth : AuthInfo) (order : List ℕ)
    (cipherPayload iv : List UInt8) (transfer : TransferPayload)
    (canonical signature : List UInt8) : Prop where
  decrypted : h.decryptTransferPayload order cipherPayload iv auth.sessionKey =
    some (transfer, canonical, signature)
  scope : ¬ (transfer.scope ≠ "" ∧ transfer.scope ≠ scopeTransfer)
  requestID : ¬ (transfer.requestID ≠ "" ∧ transfer.requestID ≠ auth.requestID)
  verified : h.verifyRSAPSS auth.publicKeyPEM canonical signature = true

/-! ## Promises -/

/-- The ticket and the authenticator of a request. -/
def ApRequest.presented : ApRequest → Option (List UInt8 × List UInt8)
  | .transferMoney ticketV authenticator _ _ => some (ticketV, authenticator)
  | .getBalance ticketV authenticator _ => some (ticketV, authenticator)
  | .getHistory ticketV authenticator _ _ _ => some (ticketV, authenticator)
  | .createAdminSession ticketV authenticator => some (ticketV, authenticator)
  | .createUser _ => none
  | .requireAdminSession _ => none

/-- What a call has issued before it marks its request under a key. -/
structure Marking (h : Handler) {rounding : Rounding} (q : ApRequest) (log : Log rounding)
    (key : String) (e : Env) (x : ApExchange) : Prop where
  passed : ∃ ticketV authenticator scope, q.presented = some (ticketV, authenticator) ∧
    x.Passed h ticketV authenticator scope
  issued : x.log rounding <+: log
  key : key = x.marker h
  first : x.first.clock ≤ e.clock

/-- What a call has issued before it commits a transfer. -/
structure Authorized (h : Handler) {rounding : Rounding}
    (ticketV authenticator cipherPayload iv : List UInt8) (log : Log rounding) (x : ApExchange)
    (transfer : TransferPayload) (canonical signature : List UInt8) : Prop where
  passed : x.Passed h ticketV authenticator scopeTransfer
  payload : ∃ order e, SignedPayload h x.auth order cipherPayload iv transfer canonical signature ∧
    x.log rounding ++ [Event.mk Stmt.mapOrder e order] <+: log
  marked : Marked log

/-- What a call has issued before it stores a session for the token of some random bytes. -/
structure SessionOpened (h : Handler) {rounding : Rounding} (ticketV authenticator : List UInt8)
    (log : Log rounding) (x : ApExchange) (bytes : List UInt8) : Prop where
  passed : x.Passed h ticketV authenticator scopeAdminRead
  role : x.cert.role = .bankAdmin
  issued : x.log rounding <+: log
  marked : Marked log
  drawn : ∃ e, Event.mk (Stmt.readRandom 32) e (Except.ok bytes) ∈ log

/-- The session that an exchange opens. -/
def ApExchange.session (x : ApExchange) : AdminSession where
  adminID := x.ticket.clientID
  certSN := x.ticket.certSN
  role := "bank_admin"
  expiresAt := x.ticket.expires.toUnix

/-- Under what a call of the handler issues its statements. -/
def HandlerPromise (h : Handler) (rounding : Rounding) (q : ApRequest) (log : Log rounding) :
    Stmt → Env → Conn → Prop
  | .commit, e, l =>
    match q with
    | .transferMoney ticketV authenticator cipherPayload iv =>
      ∃ x transfer canonical signature tx,
        Authorized h ticketV authenticator cipherPayload iv log x transfer canonical signature ∧
        l = .active tx ∧ Ready h.svc rounding (callerFrom x.auth)
          (Handler.transferInput transfer canonical signature) e tx
    | .createUser _ => ∃ tx, l = .active tx ∧ Opening h.svc tx
    | _ => False
  | .setNX key ttl, e, _ => ttl = replayTTL ∧ h.hasReplay = true ∧ ∃ x, Marking h q log key e x
  | .insertUsedNonce key _ _, e, _ =>
    (h.hasReplay = true → ∃ e', Event.mk (Stmt.setNX key replayTTL) e' (Except.error ()) ∈ log) ∧
      ∃ x, Marking h q log key e x
  | .createSession tokenHash session _, _, _ => ∃ ticketV authenticator x bytes,
      q = .createAdminSession ticketV authenticator ∧
        SessionOpened h ticketV authenticator log x bytes ∧
        tokenHash = h.svc.hexHash (utf8 (Handler.rawURLEncoding bytes)) ∧ session = x.session
  | _, _, _ => True

/-- A plain statement needs no promise. -/
theorem HandlerPromise.plain {h : Handler} {rounding : Rounding} {q : ApRequest} :
    ∀ (log : Log rounding) (s : Stmt) (e : Env) (l : Conn), s.plain = true →
      HandlerPromise h rounding q log s e l := by
  intro log s e l hs
  cases s with
  | commit | setNX | insertUsedNonce | createSession => cases hs
  | _ => trivial

/-! ## The gate -/

section Gate

variable {rounding : Rounding} {h : Handler} {e : Env} {l : Conn}
  {G : Log rounding → Stmt → Env → Conn → Prop}

/-- The expiry check reads the clock a second time if the first reading is not after the
expiry. -/
theorem ticketExpired_follows {expires : Time} {log : Log rounding}
    (hG : ∀ log s e l, s.plain = true → G log s e l) :
    Follows rounding G
      (fun log' expired e' l' => expired = false → l' = l ∧ ∃ first second : Env,
        first.clock ≤ e'.clock ∧ first.clock.time.after expires = false ∧
        second.clock.time.equal expires = false ∧
        log' = log ++ [Event.mk Stmt.now first first.clock, Event.mk Stmt.now second second.clock])
      (Handler.ticketExpired expires) log e l := by
  unfold Handler.ticketExpired
  refine follows_now (fun _ => hG _ _ _ _ rfl) fun first hr₁ => ?_
  by_cases hafter : first.clock.time.after expires = true
  · rw [if_pos hafter]
    exact follows_ret fun _ _ h => nomatch h
  rw [if_neg hafter]
  refine follows_now (fun _ => hG _ _ _ _ rfl) fun second hr₂ => ?_
  refine follows_ret fun e₃ hr₃ hequal => ⟨rfl, first, second, (hr₂.trans hr₃).clock, ?_,
    hequal, ?_⟩
  · simpa using hafter
  · simp

/-- The certificate check asks the CA and reads the clock once more. -/
theorem checkCertificate_follows {ticket : TicketInfo} {authn : Authenticator} {scope : String}
    {log : Log rounding} (hG : ∀ log s e l, s.plain = true → G log s e l) :
    Follows rounding G
      (fun log' r e' l' => ∀ auth, r = Except.ok auth → l' = l ∧ e.clock ≤ e'.clock ∧
        ∃ (cert : _) (asked fourth : Env), auth = AuthInfo.of ticket authn cert ∧
          (¬ certificateRejected cert fourth.clock.time.toUnix ∧
            ¬ (cert.ownerId ≠ "" ∧ cert.ownerId ≠ ticket.clientID) ∧
            validateClientCertificateMetadata cert = true ∧
            validateTicketCertificateMetadata ticket cert = true) ∧
          log' = log ++ [Event.mk (Stmt.verifyCertificate ticket.certSN) asked (Except.ok cert),
            Event.mk Stmt.now fourth fourth.clock])
      (Handler.checkCertificate ticket authn scope) log e l := by
  unfold Handler.checkCertificate
  refine follows_stmt fun asked hr₁ => ⟨hG _ _ _ _ rfl, fun others c r e₁ l₁ hx => ?_⟩
  cases hx
  cases c.cert with
  | error _ => exact follows_reject fun _ => hG _ _ _ _ rfl
  | ok cert =>
    refine follows_now (fun _ => hG _ _ _ _ rfl) fun fourth hr₂ => ?_
    refine follows_check (fun _ => hG _ _ _ _ rfl) fun haccepted => ?_
    refine follows_check (fun _ => hG _ _ _ _ rfl) fun howner => ?_
    refine follows_check (fun _ => hG _ _ _ _ rfl) fun hmetadata => ?_
    refine follows_check (fun _ => hG _ _ _ _ rfl) fun hmatching => ?_
    refine follows_ret fun e₃ hr₃ auth hauth => ?_
    refine ⟨rfl, (hr₁.trans (hr₂.trans hr₃)).clock, cert, asked, fourth,
      (Except.ok.inj hauth).symm, ⟨haccepted, howner, ?_, ?_⟩, by simp⟩
    · simpa using hmetadata
    · simpa using hmatching

/-- **What passes the gate.** A request that `authorize` accepts is an exchange whose checks
passed, with the statements of the exchange. -/
theorem authorize_follows {ticketV authenticator : List UInt8} {scope : String}
    (hG : ∀ log s e l, s.plain = true → G log s e l) :
    Follows rounding G
      (fun log r e' l' => ∀ auth, r = Except.ok auth → l' = l ∧ ∃ x : ApExchange,
        x.Passed h ticketV authenticator scope ∧ auth = x.auth ∧ log = x.log rounding ∧
        x.first.clock ≤ e'.clock)
      (h.authorize ticketV authenticator scope) [] e l := by
  unfold Handler.authorize
  by_cases hconfigured : (!h.svc.configured || !h.hasCA || h.bankKV.length ≠ aes256KeySize) = true
  · rw [if_pos hconfigured]
    exact follows_ret fun _ _ _ hr => nomatch hr
  rw [if_neg hconfigured]
  cases hticket : h.decryptTicket ticketV with
  | none => exact follows_reject fun _ => hG _ _ _ _ rfl
  | some ticket =>
  refine Follows.bind ((ticketExpired_follows hG).mono (fun _ _ _ _ h => h) ?_)
  intro log₁ expired e₁ l₁ hexpired
  refine follows_check (fun _ => hG _ _ _ _ rfl) fun hnot => ?_
  obtain ⟨rfl, first, second, hfirst, hafter, hequal, rfl⟩ := hexpired (by simpa using hnot)
  refine follows_check (fun _ => hG _ _ _ _ rfl) fun hscope => ?_
  unfold Handler.checkAuthenticator
  cases hauthn : h.decryptAuthenticator ticket.session authenticator with
  | none => exact follows_reject fun _ => hG _ _ _ _ rfl
  | some authn =>
  refine follows_check (fun _ => hG _ _ _ _ rfl) fun hnames => ?_
  refine follows_check (fun _ => hG _ _ _ _ rfl) fun hcomplete => ?_
  refine follows_now (fun _ => hG _ _ _ _ rfl) fun third hr₂ => ?_
  refine follows_check (fun _ => hG _ _ _ _ rfl) fun hstale => ?_
  refine (checkCertificate_follows hG).mono (fun _ _ _ _ h => h) ?_
  intro log₂ r e₂ l₂ hcert auth hr
  obtain ⟨rfl, hle, cert, asked, fourth, rfl, ⟨haccepted, howner, hmetadata, hmatching⟩, rfl⟩ :=
    hcert auth hr
  refine ⟨rfl, ⟨ticket, authn, cert, first, second, third, asked, fourth⟩, ?_, rfl, rfl, ?_⟩
  · exact {
      ticket := hticket
      authenticator := hauthn
      not_after := hafter
      not_equal := hequal
      scope := not_not.mp hscope
      names := not_not.mp hnames
      complete := hcomplete
      not_stale := by simpa using hstale
      accepted := haccepted
      owner := howner
      metadata := hmetadata
      matching := hmatching }
  · exact Instant.le_trans hfirst (Instant.le_trans hr₂.clock hle)

/-- What marking a request leaves behind: it is accepted exactly if a marking succeeded. -/
def Marking.Outcome (log : Log rounding) (l : Conn) (log' : Log rounding)
    (r : Except Status Unit) (l' : Conn) : Prop :=
  l' = l ∧ log <+: log' ∧ (r = Except.ok () ↔ Marked log')

theorem Marking.Outcome.rejected {event : AuditEvent} {status : Status} {log log' : Log rounding}
    {q : ApRequest} (hle : log <+: log') (hnew : ¬ Marked log') :
    Follows rounding (HandlerPromise h rounding q)
      (fun log' r _ l' => Marking.Outcome log l log' r l') (reject event status) log' e l := by
  refine follows_stmt fun e' hr => ⟨.plain _ _ _ _ rfl, fun others c r e'' l' hx => ?_⟩
  cases hx
  refine follows_ret fun _ _ => ⟨rfl, hle.trans (List.prefix_append _ _), ?_⟩
  exact iff_of_false (fun hr => nomatch hr) fun hmarked =>
    ((marked_append _ _).mp hmarked).elim hnew id

/-- Marking a request in `used_nonces`. -/
theorem markUsed_follows {q : ApRequest} {key : String} {log log₀ : Log rounding} {x : ApExchange}
    {event : AuditEvent} {status : Status} (hle : log₀ <+: log)
    (hredis : h.hasReplay = true →
      ∃ e', Event.mk (Stmt.setNX key replayTTL) e' (Except.error ()) ∈ log)
    (hmarking : Marking h q log key e x) (hnew : ¬ Marked log) :
    Follows rounding (HandlerPromise h rounding q)
      (fun log' r _ l' => Marking.Outcome log₀ l log' r l')
      (Handler.markUsed key (reject event status)) log e l := by
  unfold Handler.markUsed
  refine follows_now (fun _ => .plain _ _ _ _ rfl) fun e₁ hr₁ => ?_
  refine follows_now (fun _ => .plain _ _ _ _ rfl) fun e₂ hr₂ => ?_
  have hle' := (List.prefix_append log [Event.mk Stmt.now e₁ e₁.clock]).trans
    (List.prefix_append _ [Event.mk Stmt.now e₂ e₂.clock])
  have hnew' : ¬ Marked (log ++ [Event.mk Stmt.now e₁ e₁.clock] ++
      [Event.mk Stmt.now e₂ e₂.clock]) := by
    rw [marked_append, marked_append]
    rintro ((hmarked | hmarks) | hmarks)
    · exact hnew hmarked
    · exact hmarks
    · exact hmarks
  refine follows_stmt fun e₃ hr₃ => ⟨⟨fun hr => ?_, x, ?_⟩, fun others c r e' l' hx => ?_⟩
  · obtain ⟨e', he'⟩ := hredis hr
    exact ⟨e', hle'.subset he'⟩
  · exact { hmarking with
      issued := hmarking.issued.trans hle'
      first := Instant.le_trans hmarking.first (hr₁.trans (hr₂.trans hr₃)).clock }
  · obtain rfl : l' = l := exec_marks hx rfl
    cases r with
    | error _ =>
      refine Marking.Outcome.rejected ((hle.trans hle').trans (List.prefix_append _ _)) ?_
      rw [marked_append, not_or]
      exact ⟨hnew', fun hr => nomatch hr⟩
    | ok _ =>
      refine follows_ret fun _ _ => ⟨rfl, (hle.trans hle').trans (List.prefix_append _ _), ?_⟩
      exact iff_of_true rfl ((marked_append _ _).mpr (.inr rfl))

/-- A request that `markReplay` accepts is one whose marking succeeded. -/
theorem markReplay_follows {q : ApRequest} {ticketV authenticator : List UInt8} {scope : String}
    {log : Log rounding} {x : ApExchange} (hq : q.presented = some (ticketV, authenticator))
    (hx : x.Passed h ticketV authenticator scope) (hlog : x.log rounding <+: log)
    (hfirst : x.first.clock ≤ e.clock) (hnew : ¬ Marked log) :
    Follows rounding (HandlerPromise h rounding q)
      (fun log' r _ l' => Marking.Outcome log l log' r l') (h.markReplay x.auth) log e l := by
  have hmarking : Marking h q log (x.marker h) e x := ⟨⟨_, _, _, hq, hx⟩, hlog, rfl, hfirst⟩
  unfold Handler.markReplay
  by_cases hreplay : h.hasReplay = true
  · rw [if_pos hreplay]
    refine follows_stmt fun e₁ hr₁ => ⟨⟨rfl, hreplay, x, ?_⟩, fun others c r e' l' hx => ?_⟩
    · exact { hmarking with first := Instant.le_trans hfirst hr₁.clock }
    obtain rfl : l' = l := exec_marks hx rfl
    have hle := List.prefix_append log [Event.mk (Stmt.setNX (x.marker h) replayTTL) e₁ r]
    cases r with
    | error _ =>
      refine markUsed_follows (x := x) hle (fun _ => ⟨e₁, ?_⟩) ?_ ?_
      · exact List.mem_append_right _ (List.mem_singleton_self _)
      · exact { hmarking with
          issued := hlog.trans hle
          first := Instant.le_trans hfirst (exec_clock hx ▸ hr₁.clock) }
      · rw [marked_append, not_or]
        exact ⟨hnew, fun hr => nomatch hr⟩
    | ok isNew =>
      cases isNew with
      | true =>
        refine follows_ret fun _ _ => ⟨rfl, hle, ?_⟩
        exact iff_of_true rfl ((marked_append _ _).mpr (.inr rfl))
      | false =>
        refine Marking.Outcome.rejected hle ?_
        rw [marked_append, not_or]
        exact ⟨hnew, fun hr => nomatch hr⟩
  · rw [if_neg hreplay]
    exact markUsed_follows List.prefix_rfl (fun hr => absurd hr hreplay) hmarking hnew

end Gate

/-! ## Programs without promises -/

section Plain

variable {α : Type} {h : Handler}

/-- Every statement of the program is plain. -/
abbrev Plain (p : Run α) : Prop := p.Issues fun s : Stmt => s.plain = true

theorem encryptAPRep_plain (key : List UInt8) (payload : List (String × Json)) :
    Plain (h.encryptAPRep key payload) := by
  refine ⟨rfl, fun r => ?_⟩
  cases r <;> trivial

theorem getBalance_plain (caller : Caller) (accountID : String) :
    Plain (Service.getBalance caller accountID) := by
  unfold Service.getBalance
  -- whichever profile was looked up, the rest only reads
  extract_lets rest
  have hrest : ∀ reply, Plain (rest reply) := by
    intro reply
    show Plain (if isNoRows reply = true then _ else _)
    split
    · trivial
    cases reply with
    | error _ => trivial
    | ok p =>
      show Plain (if p.ownerID ≠ caller.clientID then _ else _)
      split
      · exact ⟨rfl, fun _ => trivial⟩
      · exact ⟨rfl, fun _ => ⟨rfl, fun _ => ⟨rfl, fun _ => trivial⟩⟩⟩
  split
  · exact ⟨rfl, hrest⟩
  · exact ⟨rfl, hrest⟩

theorem getHistory_plain (caller : Caller) (accountID : String) (limit offset : Int32) :
    Plain (Service.getHistory caller accountID limit offset) := by
  refine ⟨rfl, fun reply => ?_⟩
  show Plain (if isNoRows reply = true then _ else _)
  split
  · trivial
  cases reply with
  | error _ => trivial
  | ok ownerID =>
    show Plain (if ownerID ≠ caller.clientID then _ else _)
    split
    · exact ⟨rfl, fun _ => trivial⟩
    refine ⟨rfl, fun total => ?_⟩
    cases total with
    | error _ => trivial
    | ok total =>
      refine ⟨rfl, fun records => ?_⟩
      cases records <;> trivial

theorem Plain.stmt {st : Stmt} {f : Reply st → Run α} (h : st.plain = true)
    (hf : ∀ r, Plain (f r)) : Plain (stmt st >>= f) := ⟨h, hf⟩

theorem checkSession_plain (encoded : List UInt8) : Plain (Handler.checkSession encoded) := by
  unfold Handler.checkSession
  split
  · refine Plain.stmt rfl fun now => ?_
    -- the comparison is not to be computed
    generalize Handler.sessionExpired _ (Instant.time now) = expired
    cases expired
    · rw [if_neg Bool.false_ne_true]
      exact Program.Issues.ite (fun _ => trivial) fun _ => trivial
    · trivial
  · trivial

theorem requireAdminSession_plain (rawToken : String) :
    Plain (h.requireAdminSession rawToken) := by
  unfold Handler.requireAdminSession
  split
  · trivial
  refine ⟨rfl, fun reply => ?_⟩
  rcases reply with _ | _ | encoded
  · trivial
  · trivial
  · exact checkSession_plain encoded

end Plain

/-! ## The methods -/

section Methods

variable {rounding : Rounding} {h : Handler} {q : ApRequest} {α β : Type} {e : Env} {l : Conn}
  {log : Log rounding}

/-- A call of the handler keeps its promises to the end. -/
abbrev Proceeds (h : Handler) (rounding : Rounding) (q : ApRequest) (p : Run α)
    (log : Log rounding) (e : Env) (l : Conn) : Prop :=
  Follows rounding (HandlerPromise h rounding q) (fun _ _ _ _ => True) p log e l

theorem Plain.proceeds {p : Run α} (hp : Plain p) : Proceeds h rounding q p log e l :=
  (Follows.mk (hp.meets log e l)).mono HandlerPromise.plain fun _ _ _ _ h => h

theorem Proceeds.map {p : Run α} (hp : Proceeds h rounding q p log e l) (f : α → β) :
    Proceeds h rounding q (p >>= fun a => return f a) log e l :=
  Follows.bind (hp.mono (fun _ _ _ _ h => h) fun _ _ _ _ _ => follows_ret fun _ _ => trivial)

/-- A method that authorizes its request first proceeds if it does from every exchange that
passed. -/
theorem authorize_proceeds {ticketV authenticator : List UInt8} {scope : String}
    {p : AuthInfo → Run (Except Status β)}
    (hp : ∀ (x : ApExchange) (e' : Env), x.Passed h ticketV authenticator scope →
      x.first.clock ≤ e'.clock → Proceeds h rounding q (p x.auth) (x.log rounding) e' l) :
    Proceeds h rounding q
      (h.authorize ticketV authenticator scope >>= fun r => match r with
        | .error err => return .error err
        | .ok auth => p auth) [] e l := by
  refine Follows.bind ((authorize_follows HandlerPromise.plain).mono (fun _ _ _ _ h => h) ?_)
  intro log r e' l' hr
  cases r with
  | error _ => exact follows_ret fun _ _ => trivial
  | ok auth =>
    obtain ⟨rfl, x, hx, rfl, rfl, hfirst⟩ := hr auth rfl
    exact hp x e' hx hfirst

/-- A method that marks its request as seen proceeds if it does once the request is marked. -/
theorem markReplay_proceeds {ticketV authenticator : List UInt8} {scope : String}
    {x : ApExchange} {p : Run (Except Status β)}
    (hq : q.presented = some (ticketV, authenticator))
    (hx : x.Passed h ticketV authenticator scope) (hlog : x.log rounding <+: log)
    (hfirst : x.first.clock ≤ e.clock) (hnew : ¬ Marked log)
    (hp : ∀ log' e', log <+: log' → Marked log' → Proceeds h rounding q p log' e' l) :
    Proceeds h rounding q
      (h.markReplay x.auth >>= fun r => match r with
        | .error err => return .error err
        | .ok () => p) log e l := by
  refine Follows.bind ((markReplay_follows hq hx hlog hfirst hnew).mono (fun _ _ _ _ h => h) ?_)
  intro log' r e' l' hr
  obtain ⟨rfl, hle, hmarked⟩ := hr
  cases r with
  | error _ => exact follows_ret fun _ _ => trivial
  | ok _ => exact hp log' e' hle (hmarked.mp rfl)

theorem reject_proceeds {event : AuditEvent} {status : Status} :
    Proceeds h rounding q (@reject α event status) log e l :=
  Plain.proceeds (Plain.stmt rfl fun _ => trivial)

theorem check_proceeds {refused : Prop} [Decidable refused] {event : AuditEvent}
    {status : Status} {p : Run (Except Status β)}
    (hp : ¬ refused → Proceeds h rounding q p log e l) :
    Proceeds h rounding q (if refused then reject event status else p) log e l := by
  by_cases hrefused : refused
  · rw [if_pos hrefused]
    exact reject_proceeds
  · rw [if_neg hrefused]
    exact hp hrefused

theorem ApExchange.unmarked (x : ApExchange) : ¬ Marked (x.log rounding) := by
  simp [Marked, Marks, ApExchange.log]

theorem readMethod_proceeds {ticketV authenticator : List UInt8} {scope operation : String}
    {call : Caller → Run (Except Err α)} {payload : AuthInfo → α → List (String × Json)}
    {response : List UInt8 → α → β} (hq : q.presented = some (ticketV, authenticator))
    (hcall : ∀ caller, Plain (call caller)) :
    Proceeds h rounding q
      (h.readMethod ticketV authenticator scope operation call payload response) [] e l := by
  refine authorize_proceeds fun x e' hx hfirst => ?_
  refine markReplay_proceeds hq hx List.prefix_rfl hfirst x.unmarked fun log' e'' _ _ => ?_
  refine Plain.proceeds (Program.Issues.bind (hcall _) fun res => ?_)
  cases res with
  | error _ => trivial
  | ok res =>
    refine Program.Issues.bind (encryptAPRep_plain _ _) fun apRep => ?_
    cases apRep <;> trivial

/-- A session is opened on the evidence its call has. -/
theorem openSession_proceeds {ticketV authenticator : List UInt8} {x : ApExchange}
    (hx : x.Passed h ticketV authenticator scopeAdminRead) (hrole : x.cert.role = .bankAdmin)
    (hlog : x.log rounding <+: log) (hmarked : Marked log) :
    Proceeds h rounding (.createAdminSession ticketV authenticator) (h.openSession x.auth) log e
      l := by
  unfold Handler.openSession
  refine follows_stmt fun e₁ hr₁ => ⟨trivial, fun others c tokenBytes e₂ l₂ hexec => ?_⟩
  cases tokenBytes with
  | error _ => exact follows_ret fun _ _ => trivial
  | ok bytes =>
    have hle := List.prefix_append log [Event.mk (Stmt.readRandom 32) e₁ (Except.ok bytes)]
    refine follows_now (fun _ => trivial) fun e₃ hr₃ => ?_
    have hle' := List.prefix_append (log ++ [Event.mk (Stmt.readRandom 32) e₁ (Except.ok bytes)])
      [Event.mk Stmt.now e₃ e₃.clock]
    show Proceeds h rounding _ (if x.auth.ticket.expires.sub e₃.clock.time ≤ 0 then _ else _) _ _ _
    split
    · exact follows_ret fun _ _ => trivial
    refine follows_stmt fun e₄ hr₄ => ⟨?_, fun others c stored e₅ l₅ hexec => ?_⟩
    · refine ⟨ticketV, authenticator, x, bytes, rfl, ⟨hx, hrole, hlog.trans (hle.trans hle'),
        hmarked.mono (hle.trans hle'), e₁, hle'.subset ?_⟩, rfl, rfl⟩
      exact List.mem_append_right _ (List.mem_singleton_self _)
    cases stored with
    | error _ => exact follows_ret fun _ _ => trivial
    | ok _ =>
      refine Plain.proceeds (Program.Issues.bind (encryptAPRep_plain _ _) fun apRep => ?_)
      cases apRep <;> trivial

theorem createAdminSession_proceeds {ticketV authenticator : List UInt8} :
    Proceeds h rounding (.createAdminSession ticketV authenticator)
      (h.createAdminSession ticketV authenticator) [] e l := by
  unfold Handler.createAdminSession
  split
  · exact follows_ret fun _ _ => trivial
  refine authorize_proceeds fun x e' hx hfirst => ?_
  split
  · exact follows_ret fun _ _ => trivial
  next hadmin =>
  refine markReplay_proceeds rfl hx List.prefix_rfl hfirst x.unmarked fun log' e'' hle hmarked => ?_
  refine openSession_proceeds hx ?_ hle hmarked
  simpa [ApExchange.auth, AuthInfo.of] using hadmin

/-- A signed transfer keeps the promises of the service, on the evidence its call has. -/
theorem executeSigned_proceeds {ticketV authenticator cipherPayload iv : List UInt8}
    {x : ApExchange} {transfer : TransferPayload} {canonical signature : List UInt8}
    (hauth : Authorized h ticketV authenticator cipherPayload iv log x transfer canonical
      signature) :
    Proceeds h rounding (.transferMoney ticketV authenticator cipherPayload iv)
      (h.executeSigned x.auth (Handler.transferInput transfer canonical signature)) log e
      .fresh := by
  unfold Handler.executeSigned
  refine Follows.bind ((transfer_meets.follows log).mono ?_ ?_)
  · rintro log' st e' l' ⟨hle, hst⟩
    cases st with
    | commit =>
      obtain ⟨tx, rfl, hready⟩ := hst
      obtain ⟨order, e₀, hsigned, hissued⟩ := hauth.payload
      exact ⟨x, transfer, canonical, signature, tx, ⟨hauth.passed,
        ⟨order, e₀, hsigned, hissued.trans hle⟩, hauth.marked.mono hle⟩, rfl, hready⟩
    | setNX | insertUsedNonce | createSession => exact absurd hst.marks Bool.true_eq_false.mp
    | _ => trivial
  · rintro log' r e' l' -
    cases r with
    | error _ => exact follows_ret fun _ _ => trivial
    | ok txID =>
      refine Plain.proceeds (Program.Issues.bind (encryptAPRep_plain _ _) fun apRep => ?_)
      cases apRep <;> trivial

theorem transferMoney_proceeds {ticketV authenticator cipherPayload iv : List UInt8} :
    Proceeds h rounding (.transferMoney ticketV authenticator cipherPayload iv)
      (h.transferMoney ticketV authenticator cipherPayload iv) [] e .fresh := by
  refine authorize_proceeds fun x e' hx hfirst => ?_
  unfold Handler.checkPayload
  refine follows_stmt fun e₁ hr₁ => ⟨trivial, fun others c order e₂ l₂ hexec => ?_⟩
  cases hexec
  have hle := List.prefix_append (x.log rounding) [Event.mk Stmt.mapOrder e₁ c.order]
  have hnew : ¬ Marked (x.log rounding ++ [Event.mk Stmt.mapOrder e₁ c.order]) := by
    rw [marked_append, not_or]
    exact ⟨x.unmarked, id⟩
  cases hpayload : h.decryptTransferPayload c.order cipherPayload iv x.auth.sessionKey with
  | none => exact reject_proceeds
  | some decrypted =>
  obtain ⟨transfer, canonical, signature⟩ := decrypted
  refine check_proceeds fun hscope => ?_
  refine check_proceeds fun hrequest => ?_
  refine check_proceeds fun hverified => ?_
  refine markReplay_proceeds rfl hx hle (Instant.le_trans hfirst hr₁.clock) hnew
    fun log' e' hle' hmarked => ?_
  refine executeSigned_proceeds ⟨hx, ⟨c.order, e₁, ⟨hpayload, hscope, hrequest, ?_⟩, hle'⟩,
    hmarked⟩
  simpa using hverified

theorem createUser_proceeds {input : CreateUserInput} :
    Proceeds h rounding (.createUser input) (h.createUser input) log e .fresh := by
  unfold Handler.createUser
  refine Follows.bind ((createUser_meets.follows log).mono ?_ ?_)
  · rintro log' st e' l' ⟨-, hst⟩
    cases st with
    | commit => exact hst
    | setNX | insertUsedNonce | createSession => exact absurd hst Bool.true_eq_false.mp
    | _ => trivial
  · rintro log' r e' l' -
    cases r <;> exact follows_ret fun _ _ => trivial

end Methods

/-- **The handler keeps its promises.** -/
theorem handler_kept (h : Handler) (rounding : Rounding) :
    Kept h.svc rounding h.program (HandlerPromise h rounding) (fun _ _ _ _ _ => True) where
  meets q e := by
    refine Follows.meets ?_
    cases q with
    | transferMoney => exact transferMoney_proceeds.map _
    | getBalance => exact (readMethod_proceeds rfl fun _ => getBalance_plain _ _).map _
    | getHistory => exact (readMethod_proceeds rfl fun _ => getHistory_plain _ _ _ _).map _
    | createAdminSession => exact createAdminSession_proceeds.map _
    | createUser => exact createUser_proceeds.map _
    | requireAdminSession => exact (requireAdminSession_plain _).proceeds.map _
  commits q log e l hG := by
    cases q with
    | transferMoney =>
      obtain ⟨x, transfer, canonical, signature, tx, -, rfl, hready⟩ := hG
      exact ⟨tx, rfl, .inl ⟨_, _, hready⟩⟩
    | createUser =>
      obtain ⟨tx, rfl, hopening⟩ := hG
      exact ⟨tx, rfl, .inr hopening⟩
    | _ => exact hG.elim

/-! ## Exchanges of the sample deployment -/

/-- The times at which the statements were executed. -/
def clocks {rounding : Rounding} (log : Log rounding) : List Instant := log.map (·.env.clock)

/-- What the CA reported. -/
def certs {rounding : Rounding} (log : Log rounding) : List VerifyCertificateResponse :=
  log.filterMap fun
    | ⟨.verifyCertificate _, _, .ok cert⟩ => some cert
    | _ => none

/-- Every request of the state is without a ticket, or has this ticket and this authenticator and
was checked at the sample time with the sample certificate. -/
def isSample (presented : List UInt8 × List UInt8)
    (s : State (handlerMachine sampleHandler .cut)) : Bool :=
  s.calls.entries.all fun ⟨_, c⟩ => match c.request.presented with
    | none => true
    | some presented' => decide (presented' = presented ∧
        (clocks c.log).take 5 = List.replicate 5 sampleClock ∧ certs c.log = [sampleCert])

theorem exchange_of_isSample {s : State (handlerMachine sampleHandler .cut)} {i : ℕ}
    {c : Call (handlerMachine sampleHandler .cut)} {x : ApExchange}
    {ticketV ticketV' authenticator authenticator' : List UInt8}
    (hs : isSample (ticketV, authenticator) s = true) (hc : s.call i = some c)
    (hq : c.request.presented = some (ticketV', authenticator'))
    (hx : x.Opens sampleHandler ticketV' authenticator') (hlog : x.log .cut <+: c.log) :
    x.Opens sampleHandler ticketV authenticator ∧ x.first.clock = sampleClock ∧
      x.third.clock = sampleClock ∧ x.cert = sampleCert := by
  have hall := List.all_eq_true.mp hs ⟨i, c⟩ (AList.mem_lookup_iff.mp hc)
  simp only [hq, decide_eq_true_eq, Prod.mk.injEq] at hall
  obtain ⟨⟨rfl, rfl⟩, hclocks, hcerts⟩ := hall
  have hclocks' : clocks (x.log .cut) = List.replicate 5 sampleClock := by
    rw [← hclocks]
    exact List.prefix_iff_eq_take.mp (hlog.map _)
  have hcerts' : certs (x.log .cut) <+: certs c.log := hlog.filterMap _
  rw [hcerts] at hcerts'
  simp only [clocks, ApExchange.log, List.map_cons, List.replicate, List.cons.injEq] at hclocks'
  exact ⟨hx, hclocks'.1, hclocks'.2.2.1, (List.cons_prefix_cons.mp hcerts').1⟩

end Bank
