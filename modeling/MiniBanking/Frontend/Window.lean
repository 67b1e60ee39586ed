import MiniBanking.Concurrency.Trace
import MiniBanking.Frontend.AsExchange
import MiniBanking.Frontend.Exchanges
import MiniBanking.Frontend.Transfer

/-!
# The operations of a browser window

The session with the TGS and the tickets live in the memory of one page. Their session keys are
byte arrays that several operations share: an operation takes a ticket and its key from the page,
and a logout, a new ticket or a new session fills the key with zeros in place. What an operation
does between two awaits is one statement; WebCrypto copies a key when it is imported, which is the
last thing before an await.

## Main definitions

* `Page`: the memory of the page, with its byte arrays
* `Held`: a ticket with its key, as an operation holds it
* `Window.performTgsExchange`, `Window.performTransfer`, `Window.fetchProfile`,
  `Window.fetchHistory`, `Window.createAdminSession`, `Window.performAsExchange`: the operations
* `windowMachine`: their interleavings
-/

namespace Frontend

open Concurrency Go Js

/-! ## The page -/

/-- `Scope` -/
inductive Scope where
  | balanceRead
  | transferCreate
  | historyRead
  | bankAdminRead
  deriving DecidableEq

/-- The text of a scope. -/
def Scope.text : Scope → String
  | balanceRead => "balance:read"
  | transferCreate => "transfer:create"
  | historyRead => "history:read"
  | bankAdminRead => "bank-admin:read"

/-- The values and primitives of a browser that its operations use. -/
structure Window (V : Type) extends Browser V where
  /-- `value * 1000 > now` -/
  expiresAfter : V → ℤ → Bool
  /-- `value === value'` -/
  strictEquals : V → V → Bool
  /-- `aesGcmEncrypt` with an imported key and the bytes drawn for it -/
  aesGcmEncrypt : List UInt8 → List UInt8 → List UInt8 → Option (List UInt8)

variable {V : Type}

/-- The memory of a page. The session and each ticket stand with the address of their key; the
field `sessionKey` is the key as it was received. -/
structure Page (V : Type) where
  /-- `Date.now()` -/
  now : SafeInteger
  /-- the byte arrays of the session keys -/
  buffers : List (List UInt8)
  /-- `current` -/
  current : Option (AsSession V × ℕ)
  /-- `tickets` -/
  tickets : AList fun _ : String => ServiceTicketSession V × ℕ

/-- A page that was just opened. -/
def Page.opened (now : SafeInteger) : Page V := ⟨now, [], none, ∅⟩

/-- The bytes of a byte array. -/
def Page.read (p : Page V) (address : ℕ) : List UInt8 := p.buffers.getD address []

/-- `buffer.fill(0)` for the byte arrays at some addresses. -/
def fillZero (addresses : List ℕ) (buffers : List (List UInt8)) : List (List UInt8) :=
  buffers.mapIdx fun n bytes => if n ∈ addresses then List.replicate bytes.length 0 else bytes

/-- The addresses of the keys of the tickets. -/
def Page.ticketKeys (p : Page V) : List ℕ := p.tickets.entries.map fun t => t.2.2

/-- The address of the key of the session. -/
def Page.currentKey (p : Page V) : List ℕ := (p.current.map (·.2)).toList

/-- The address of the key of the ticket that another of its scope replaces. -/
def Page.replacedKey (p : Page V) (ticket : ServiceTicketSession V) : List ℕ :=
  ((p.tickets.lookup ticket.scope).map (·.2)).toList

/-- `setServiceTicket` -/
def Page.setServiceTicket (ticket : ServiceTicketSession V) (p : Page V) : Page V where
  now := p.now
  buffers := fillZero (p.replacedKey ticket) p.buffers ++ [ticket.sessionKey]
  current := p.current
  tickets := p.tickets.insert ticket.scope (ticket, p.buffers.length)

/-- `clearServiceTickets` -/
def Page.clearServiceTickets (p : Page V) : Page V where
  now := p.now
  buffers := fillZero p.ticketKeys p.buffers
  current := p.current
  tickets := ∅

/-- `clearSession` -/
def Page.clearSession (p : Page V) : Page V where
  now := p.now
  buffers := fillZero p.currentKey p.buffers
  current := none
  tickets := p.tickets

/-- `setSession` -/
def Page.setSession (session : AsSession V) (p : Page V) : Page V where
  now := p.now
  buffers := p.clearSession.buffers ++ [session.sessionKey]
  current := some (session, p.buffers.length)
  tickets := p.tickets

/-- `handleLogout` -/
def Page.handleLogout (p : Page V) : Page V := p.clearServiceTickets.clearSession

/-- `getServiceTicket` -/
def Page.getServiceTicket (p : Page V) (scope : Scope) : Option (ServiceTicketSession V × ℕ) :=
  p.tickets.lookup scope.text

section Valid

variable (w : Window V)

/-- `hasValidServiceTicket` -/
def Window.hasValidServiceTicket (p : Page V) (scope : Scope) : Bool :=
  match p.getServiceTicket scope with
  | some (t, _) => w.expiresAfter t.ticketExpiresAt p.now.val
  | none => false

/-- `hasValidTgt` -/
def Window.hasValidTgt (p : Page V) : Bool :=
  match p.current with
  | some (session, _) => w.expiresAfter session.tgtExpiresAt p.now.val
  | none => false

end Valid

/-! ## Statements -/

/-- A ticket with its session key, as an operation holds it: the bytes that came with the ticket,
and the address where they are kept. -/
structure Held (V : Type) where
  ticket : V
  key : List UInt8
  address : ℕ
  clientId : String
  certSn : String

/-- The TGT, from the session. -/
def AsSession.held (session : AsSession V) (address : ℕ) : Held V :=
  ⟨session.tgt, session.sessionKey, address, session.clientId, session.certSn⟩

/-- A service ticket. -/
def ServiceTicketSession.held (t : ServiceTicketSession V) (address : ℕ) : Held V :=
  ⟨t.ticketV, t.sessionKey, address, t.clientId, t.certSn⟩

/-- What is drawn at random, and what else comes from outside of the page. -/
structure Outcome (V : Type) where
  nonce : List UInt8
  requestId : String
  idempotencyKey : String
  /-- the bytes that AES-GCM puts before what it encrypts -/
  iv : List UInt8
  /-- what the gateway replies, unless the request fails -/
  reply : Option V
  /-- there is a wrapped private key -/
  stored : Bool
  /-- the signature, unless the PIN is wrong -/
  signature : Option (List UInt8)
  /-- the request to the AS with what it replies, unless either fails -/
  asReply : Option (AsRequest × V)

/-- An imported key, with what was drawn for it and the time. -/
structure Imported where
  key : List UInt8
  nonce : List UInt8
  requestId : String
  idempotencyKey : String
  iv : List UInt8
  /-- `Math.floor(Date.now() / 1000)` -/
  timestamp : SafeInteger

/-- `TgsExchangeResult` -/
structure TgsExchangeResult (V : Type) where
  scope : Scope
  serviceId : V
  ticketExpiresAt : V

/-- A request to the gateway. -/
inductive Message (V : Type) where
  | tgsReq (tgtCiphertext : V) (authenticator : List UInt8) (certSn nonce : String)
      (requestedScope : Scope)
  | transfer (ticketV : V) (authenticator cipherPayload iv : List UInt8) (requestId : String)
  | profile (ticketV : V) (authenticator : List UInt8) (requestId : String)
  | history (accountId : String) (ticketV : V) (authenticator : List UInt8) (requestId : String)
  | adminSession (ticketV : V) (authenticator : List UInt8)

/-- The ticket that a request is sent with. -/
def Message.ticket : Message V → V
  | tgsReq ticket _ _ _ _ | transfer ticket _ _ _ _ | profile ticket _ _ | history _ ticket _ _
  | adminSession ticket _ => ticket

/-- What is encrypted in a request: the authenticator, and the payload of a transfer. -/
def Message.ciphertexts : Message V → List (List UInt8)
  | tgsReq _ authenticator _ _ _ | profile _ authenticator _ | history _ _ authenticator _
  | adminSession _ authenticator => [authenticator]
  | transfer _ authenticator cipherPayload iv _ => [authenticator, iv ++ cipherPayload]

/-- What a key is imported for. -/
inductive Usage where
  | encrypt
  | decrypt
  deriving DecidableEq

/-- What an operation does up to its next await. -/
inductive Stmt (V : Type) where
  /-- `performTgsExchange` up to the encryption of its authenticator -/
  | beginTgs (scope : Scope) (force : Bool)
  /-- `getServiceTicket` -/
  | getServiceTicket (scope : Scope)
  /-- `getServiceTicket`, and `buildApAuthenticator` up to the encryption -/
  | beginAp (scope : Scope)
  /-- `getWrappedPrivateKey` -/
  | getWrappedPrivateKey
  /-- `importKey`, which copies the bytes of the key -/
  | importKey (usage : Usage) (held : Held V)
  /-- `unwrapPssSigningKey` and `signRsaPss` -/
  | sign (text : List UInt8)
  /-- a request to the gateway -/
  | post (message : Message V)
  /-- `performAsExchange` up to the reply of the AS -/
  | asExchange
  | setServiceTicket (ticket : ServiceTicketSession V)
  | setSession (session : AsSession V)
  | handleLogout

/-- What a statement replies. -/
def Reply : Stmt V → Type
  | .beginTgs _ _ => Except Failure (TgsExchangeResult V ⊕ Held V × Imported)
  | .getServiceTicket _ => Option (Held V)
  | .beginAp _ => Option (Held V × Imported)
  | .getWrappedPrivateKey => Bool
  | .importKey _ _ => Imported
  | .sign _ => Option (List UInt8)
  | .post _ => Option V
  | .asExchange => Option (AsRequest × V)
  | .setServiceTicket _ | .setSession _ | .handleLogout => Unit

/-- The addresses of the keys that a statement fills with zeros. -/
def Stmt.fills (p : Page V) : Stmt V → List ℕ
  | .setServiceTicket ticket => p.replacedKey ticket
  | .setSession _ => p.currentKey
  | .handleLogout => p.ticketKeys ++ p.currentKey
  | _ => []

/-- The absolute value shrinks. -/
theorem abs_seconds_le (n : SafeInteger) : |n.val / 1000| ≤ 9007199254740991 := by
  have hsafe := abs_le.mp n.safe
  rw [abs_le]
  omega

/-- `Math.floor(now / 1000)` -/
def seconds (now : SafeInteger) : SafeInteger := ⟨now.val / 1000, abs_seconds_le now⟩

/-- A key is imported. -/
def Page.importKey (p : Page V) (held : Held V) (o : Outcome V) : Imported :=
  ⟨p.read held.address, o.nonce, o.requestId, o.idempotencyKey, o.iv, seconds p.now⟩

/-- `performTgsExchange` up to the encryption of its authenticator. -/
def Window.beginTgs (w : Window V) (p : Page V) (scope : Scope) (force : Bool) (o : Outcome V) :
    Except Failure (TgsExchangeResult V ⊕ Held V × Imported) :=
  if !force && w.hasValidServiceTicket p scope then do
    let (existing, _) ← attempt (p.getServiceTicket scope)
    return .inl ⟨scope, existing.serviceId, existing.ticketExpiresAt⟩
  else do
    check (w.hasValidTgt p = true)
      "TGT đã hết hạn hoặc chưa đăng nhập — cần thực hiện lại AS Exchange"
    match p.current with
    | some (session, address) =>
      return .inr (session.held address, p.importKey (session.held address) o)
    | none => throw (.error "Không tìm thấy phiên TGT")

/-- `getServiceTicket` of an operation. -/
def Page.hold (p : Page V) (scope : Scope) : Option (Held V) :=
  (p.getServiceTicket scope).map fun t => t.1.held t.2

/-- A statement of an operation: its reply and the page after it. -/
def Window.exec (w : Window V) : (st : Stmt V) → Outcome V → Page V → Reply st × Page V
  | .beginTgs scope force, o, p => (w.beginTgs p scope force o, p)
  | .getServiceTicket scope, _, p => (p.hold scope, p)
  | .beginAp scope, o, p => ((p.hold scope).map fun held => (held, p.importKey held o), p)
  | .getWrappedPrivateKey, o, p => (o.stored, p)
  | .importKey _ held, o, p => (p.importKey held o, p)
  | .sign _, o, p => (o.signature, p)
  | .post _, o, p => (o.reply, p)
  | .asExchange, o, p => (o.asReply, p)
  | .setServiceTicket ticket, _, p => ((), p.setServiceTicket ticket)
  | .setSession session, _, p => ((), p.setSession session)
  | .handleLogout, _, p => ((), p.handleLogout)

/-! ## Operations -/

/-- The statements of a page. -/
def pageSignature (V : Type) : Signature := ⟨Stmt V, Reply⟩

/-- A program that may throw. -/
abbrev Run (V α : Type) : Type := ExceptT Failure (Program (pageSignature V)) α

/-- Issue one statement. -/
def stmt (st : Stmt V) : Run V (Reply st) :=
  ExceptT.lift (issue (S := pageSignature V) st)

/-- A result, or throw. -/
def Run.of {α : Type} (x : Except Failure α) : Run V α := ExceptT.mk (.ret x)

/-- A result, or throw what a primitive throws. -/
def Run.attempt {α : Type} (x : Option α) : Run V α := .of (Frontend.attempt x)

/-- The bytes of a text. -/
def encodeRecord (r : Record) : List UInt8 := encode (stringify r (r.map (·.1)))

/-- The plaintext of the authenticator for the TGS. -/
def tgsAuthenticator (clientId : String) (scope : Scope) (drawn : Imported) : List UInt8 :=
  encodeRecord [("client_id", .string clientId), ("ts_3", .number drawn.timestamp),
    ("nonce_req", .string (base64 drawn.nonce)), ("request_id", .string drawn.requestId),
    ("requested_service", .string "bank-service"), ("scope", .string scope.text)]

/-- The plaintext of the authenticator for the bank. -/
def apAuthenticator (clientId : String) (drawn : Imported) : List UInt8 :=
  encodeRecord [("client_id", .string clientId), ("nonce", .string (base64 drawn.nonce)),
    ("request_id", .string drawn.requestId), ("ts_3", .number drawn.timestamp)]

namespace Window

variable (w : Window V)

/-- `aesGcmEncrypt` after the key is imported. -/
def encrypt (drawn : Imported) (text : List UInt8) : Run V (List UInt8) :=
  .attempt (w.aesGcmEncrypt drawn.key drawn.iv text)

/-- A request to the gateway, its reply, and the key that is imported to decrypt a field of it. -/
def exchange (held : Held V) (message : Message V) (name : String) : Run V (V × List UInt8) := do
  let resp ← Run.attempt (← stmt (.post message))
  -- the field is decoded before the key is imported
  let _ ← Run.of (w.bytes resp name)
  let opened ← stmt (.importKey .decrypt held)
  return (resp, opened.key)

/-- `performTgsExchange` -/
def performTgsExchange (scope : Scope) (force : Bool) : Run V (TgsExchangeResult V) := do
  match ← Run.of (← stmt (.beginTgs scope force)) with
  | .inl existing => return existing
  | .inr (held, drawn) =>
    let authenticator ← w.encrypt drawn (tgsAuthenticator held.clientId scope drawn)
    let (resp, kcTgs) ← w.exchange held
      (.tgsReq held.ticket authenticator held.certSn (base64 drawn.nonce) scope)
      "encrypted_payload"
    let ticket ← Run.of (w.toBrowser.performTgsExchange
      ⟨held.clientId, held.certSn, scope.text, base64 drawn.nonce, kcTgs⟩ resp)
    stmt (.setServiceTicket ticket)
    return ⟨scope, ticket.serviceId, ticket.ticketExpiresAt⟩

/-- `performTransfer` -/
def performTransfer (params : TransferParams) : Run V V := do
  let _ ← w.performTgsExchange .transferCreate false
  match ← stmt (.getServiceTicket .transferCreate) with
  | none => throw (.error "Không lấy được Ticket_v cho scope transfer:create")
  | some held =>
    let stored : Bool ← stmt .getWrappedPrivateKey
    Run.of (check (stored = true) "Không tìm thấy private key đã lưu")
    let drawn ← stmt (.importKey .encrypt held)
    let authenticator ← w.encrypt drawn (apAuthenticator held.clientId drawn)
    let canonical := canonicalStringify
      (transferPayload params drawn.requestId drawn.idempotencyKey)
    let signature ← Run.attempt (← stmt (.sign (utf8 canonical)))
    let sealing ← stmt (.importKey .encrypt held)
    let embedded ← w.encrypt sealing (utf8 (envelope canonical signature))
    let (resp, kcv) ← w.exchange held
      (.transfer held.ticket authenticator (embedded.drop 12) (embedded.take 12) drawn.requestId)
      "ap_rep"
    Run.of (w.toBrowser.performTransfer ⟨kcv, base64 drawn.nonce⟩ resp)

/-- The AP exchange of the operations other than a transfer: the reply of the gateway, the AP_REP
in it, and what the authenticator was made of. -/
def readAp (scope : Scope) (missing : String) (message : V → List UInt8 → String → Message V) :
    Run V (V × V × Imported) := do
  match ← stmt (.beginAp scope) with
  | none => throw (.error missing)
  | some (held, drawn) =>
    let authenticator ← w.encrypt drawn (apAuthenticator held.clientId drawn)
    let (resp, kcv) ← w.exchange held (message held.ticket authenticator drawn.requestId) "ap_rep"
    let plaintext ← Run.of (w.apPlaintext ⟨kcv, base64 drawn.nonce⟩ resp)
    let apRep ← Run.attempt (w.parse plaintext)
    return (resp, apRep, drawn)

/-- A field of a value is a string. -/
def isText (v : V) (name text : String) : Except Failure Bool := do
  return w.asString (← w.field v name) == some text

/-- `fetchProfile`: the AP_REP, whose fields are the profile. -/
def fetchProfile : Run V V := do
  let _ ← w.performTgsExchange .balanceRead false
  let (_, apRep, drawn) ← w.readAp .balanceRead
    "Không lấy được Ticket_v cho scope balance:read" .profile
  Run.of (check ((← Run.of (w.isText apRep "result" "ok")) = true)
    "Không lấy được thông tin tài khoản")
  Run.of (check ((← Run.of (w.isText apRep "nonce" (base64 drawn.nonce))) = true)
    "AP_REP nonce không khớp — nghi ngờ MITM/replay")
  return apRep

/-- `fetchHistory`: the reply of the gateway, whose fields are the history. -/
def fetchHistory (accountId : String) : Run V V := do
  Run.of (check (accountId ≠ "") "Thiếu account_id để xem lịch sử")
  let _ ← w.performTgsExchange .historyRead false
  let (resp, apRep, drawn) ← w.readAp .historyRead
    "Không lấy được Ticket_v cho scope history:read" (.history accountId)
  Run.of (check ((← Run.of (w.isText apRep "result" "ok")) = true)
    "Không lấy được lịch sử giao dịch")
  Run.of (check ((← Run.of (w.isText apRep "nonce" (base64 drawn.nonce))) = true)
    "AP_REP nonce không khớp — nghi ngờ MITM/replay")
  return resp

/-- `performAsExchange`: the session that is stored. -/
def performAsExchange : Run V (AsSession V) := do
  let (req, resp) ← Run.attempt (← stmt .asExchange)
  let session ← Run.of (w.toBrowser.performAsExchange req resp)
  stmt (.setSession session)
  return session

/-- `createAdminSession`: the time the session ends. -/
def createAdminSession : Run V V := do
  let asResult ← w.performAsExchange
  let _ ← w.performTgsExchange .bankAdminRead true
  let (resp, apRep, drawn) ← w.readAp .bankAdminRead "Không lấy được Ticket_v cho Bank Admin"
    fun ticket authenticator _ => .adminSession ticket authenticator
  Run.of (check ((← Run.of (w.isText apRep "result" "ok")) = true) "ADMIN_SESSION_INVALID")
  Run.of (check ((← Run.of (w.isText apRep "nonce" (base64 drawn.nonce))) = true ∧
    (← Run.of (w.isText apRep "request_id" drawn.requestId)) = true)
    "AP_REP nonce không khớp — nghi ngờ MITM/replay")
  Run.of (check ((← Run.of (w.isText apRep "role" "bank_admin")) = true ∧
    (← Run.of (w.isText resp "role" "bank_admin")) = true) "ADMIN_ROLE_REQUIRED")
  Run.of (check ((← Run.of (w.isText resp "admin_id" asResult.clientId)) = true)
    "ADMIN_SESSION_INVALID")
  let expiresAt ← Run.of (w.field resp "expires_at_unix")
  Run.of (check (w.strictEquals (← Run.of (w.field apRep "session_expires_at")) expiresAt = true)
    "ADMIN_SESSION_INVALID")
  return expiresAt

end Window

/-! ## Interleavings -/

/-- What is started in the window. -/
inductive Operation where
  | performTransfer (params : TransferParams)
  | fetchProfile
  | fetchHistory (accountId : String)
  | createAdminSession
  | performTgsExchange (scope : Scope) (force : Bool)
  | performAsExchange
  | handleLogout

/-- The program of an operation; what it returns does not matter here. -/
def Window.operation (w : Window V) : Operation → Run V Unit
  | .performTransfer params => do let _ ← w.performTransfer params
  | .fetchProfile => do let _ ← w.fetchProfile
  | .fetchHistory accountId => do let _ ← w.fetchHistory accountId
  | .createAdminSession => do let _ ← w.createAdminSession
  | .performTgsExchange scope force => do let _ ← w.performTgsExchange scope force
  | .performAsExchange => do let _ ← w.performAsExchange
  | .handleLogout => stmt .handleLogout

/-- The statements of a page and what they do. -/
def Window.world (w : Window V) : World where
  S := pageSignature V
  Env := Page V
  Loc := Unit
  Choice := Outcome V
  exec := fun _ st o p l => some ((w.exec st o p).1, (w.exec st o p).2, l)

/-- The operations of a window, in any interleaving at their awaits; the clock may show any time. -/
def windowMachine (w : Window V) : Machine where
  toWorld := w.world
  Tick := SafeInteger
  Request := Operation
  Result := Except Failure Unit
  program := fun q => (w.operation q).run
  start := ()
  tick := fun now p => some ⟨now, p.buffers, p.current, p.tickets⟩

end Frontend
