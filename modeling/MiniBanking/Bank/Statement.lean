import MiniBanking.Bank.Repository
import MiniBanking.Go.JsonText

/-!
# The bank's environment

What the bank's programs may do between two local computations, and what it does to the
environment that all calls share: the database, the table of used nonces, Redis and the clock.
Every statement may fail; a commit, a key set in Redis or a nonce may also take effect although
it reports a failure.

## Main definitions

* `Query`, `Stmt`: the statements of a transaction, and all statements
* `Env`, `Conn`: the shared environment, and the one transaction of a call
* `Choice`: what decides a statement's outcome
* `exec`: the statements' meaning
* `world`, `machine`: the machine of a family of programs over these statements

## Main results

* `exec_step`, `transactional`: the database changes by commits of transactions only
* `exec_env`: what can change the environment
* `exec_dead`: a transaction that is over or aborted stays so
* `exec_mono`: a statement that need not wait need not wait with fewer calls in progress
-/

namespace Bank

open Concurrency Go Postgres

/-! ## Statements -/

/-- `CertStatus` of the CA. -/
inductive CertStatus where
  | unknown
  | active
  | revoked
  | expired
  deriving DecidableEq

/-- `IdentityRole` of the CA. -/
inductive IdentityRole where
  | unknown
  | customer
  | bankAdmin
  | caAdmin
  deriving DecidableEq

/-- What the CA replies about a certificate. -/
structure VerifyCertificateResponse where
  status : CertStatus
  ownerId : String
  publicKeyPem : String
  notBeforeUnix : Int64
  notAfterUnix : Int64
  revokedAtUnix : Int64
  certType : String
  issuerId : String
  issuerCommonName : String
  issuerSerialNumber : String
  chainFingerprints : List String
  role : IdentityRole
  deriving DecidableEq

/-- A session of an administrator, as it is kept in Redis. -/
structure AdminSession where
  adminID : String
  certSN : String
  role : String
  expiresAt : Int64
  deriving DecidableEq

/-- The members of the JSON object of a session. -/
def AdminSession.members (session : AdminSession) : List (String × Json) :=
  [("admin_id", .string session.adminID), ("cert_sn", .string session.certSN),
    ("role", .string session.role), ("expires_at", .int session.expiresAt)]

/-- `json.Marshal` of a session. -/
def AdminSession.marshal (session : AdminSession) : List UInt8 := Json.marshalStruct session.members

/-- A security or business event recorded to `bank_audit_log`. -/
structure AuditEvent where
  action : String
  userID : String := ""
  accountID : String := ""
  transactionID : String := ""
  certSerial : String := ""
  requestID : String := ""
  reason : String := ""
  metadata : List (String × String) := []
  deriving DecidableEq

/-- The statements of a transaction. -/
inductive Query where
  | loadAccountForUpdateByNumber (accountNumber : String)
  | sumCompletedTransfersSince (fromAccountID : String) (since till : ℤ)
  | lockLedgerLastHash
  | debitAccount (amount : Int64) (accountID : String)
  | creditAccount (amount : Int64) (accountID : String)
  | insertTransaction (t : TransactionRow)
  | insertFailedTransaction (t : TransactionRow)
  | updateLedger (currentHash txID : String) (time : Instant)
  | insertUser (id email fullName : String) (now : Instant)
  | insertDefaultAccount (accountID userID accountNumber : String) (now : Instant)
  deriving DecidableEq

/-- What a statement of a transaction returns. -/
abbrev Query.Row : Query → Type
  | loadAccountForUpdateByNumber _ => AccountRecord
  | sumCompletedTransfersSince _ _ _ => Int64
  | lockLedgerLastHash => String
  | _ => Unit

/-- What a statement of a transaction does. -/
def Query.plan (rounding : Rounding) : (q : Query) → Db → Option (SqlEffect q.Row)
  | loadAccountForUpdateByNumber number => Bank.loadAccountForUpdateByNumber number
  | sumCompletedTransfersSince id since till =>
    Bank.sumCompletedTransfersSince rounding id since till
  | lockLedgerLastHash => Bank.lockLedgerLastHash
  | debitAccount amount id => Bank.debitAccount amount id
  | creditAccount amount id => Bank.creditAccount amount id
  | insertTransaction t => Bank.insertTransaction rounding t
  | insertFailedTransaction t => Bank.insertFailedTransaction rounding t
  | updateLedger hash txID _ => Bank.updateLedger hash txID
  | insertUser id email fullName now => Bank.insertUser rounding id email fullName now
  | insertDefaultAccount id userID number now =>
    Bank.insertDefaultAccount rounding id userID number now

/-- The statements outside of transactions. -/
inductive Lookup where
  | getAccountProfileByID (accountID : String)
  | getDefaultAccountProfileByUser (userID : String)
  | getAccountOwner (accountID : String)
  | sumCompletedTransfersSince (fromAccountID : String) (since till : ℤ)
  | countHistory (accountID : String)
  | listHistory (accountID : String) (limit offset : ℕ)
  deriving DecidableEq

/-- What a statement outside of transactions returns. -/
abbrev Lookup.Row : Lookup → Type
  | getAccountProfileByID _ => AccountProfile
  | getDefaultAccountProfileByUser _ => AccountProfile
  | getAccountOwner _ => String
  | sumCompletedTransfersSince _ _ _ => Int64
  | countHistory _ => Int32
  | listHistory _ _ _ => List TransactionRecord

/-- What a statement outside of transactions reads. -/
def Lookup.read (rounding : Rounding) (order : List ℕ) : (q : Lookup) → Db → Sql q.Row
  | getAccountProfileByID id => Bank.getAccountProfileByID id
  | getDefaultAccountProfileByUser id => Bank.getDefaultAccountProfileByUser id
  | getAccountOwner id => Bank.getAccountOwner id
  | sumCompletedTransfersSince id since till => fun db =>
    ((Bank.sumCompletedTransfersSince rounding id since till db).map (·.reply)).getD
      (.error .failed)
  | countHistory id => Bank.countHistory id
  | listHistory id limit offset => Bank.listHistory order id limit offset

/-- What the bank's programs may do between two local computations. -/
inductive Stmt where
  /-- `clock.Now()`. -/
  | now
  /-- Sixteen bytes from `rand.Reader`. -/
  | random
  /-- `io.ReadFull` of so many bytes from the handler's source of randomness. -/
  | readRandom (n : ℕ)
  /-- The order in which the runtime visits the entries of a map. -/
  | mapOrder
  | lookup (q : Lookup)
  | findTransactionByIdempotencyKey (key : String)
  | beginTx (isolation : Isolation)
  /-- A statement of the transaction. -/
  | query (q : Query)
  | commit
  | rollback
  | audit (e : AuditEvent)
  /-- `INSERT INTO used_nonces(nonce, used_at, expires_at)`. -/
  | insertUsedNonce (nonce : String) (usedAt : Instant) (expiresAt : ℤ)
  /-- `SET key 1 NX` with a time to live in nanoseconds. -/
  | setNX (key : String) (ttl : ℤ)
  /-- `SET` of an administrator's session under the hash of its token, with a time to live. -/
  | createSession (tokenHash : String) (session : AdminSession) (ttl : ℤ)
  /-- `GET` of the session under a hash. -/
  | getSession (tokenHash : String)
  | verifyCertificate (serialNumber : String)
  deriving DecidableEq

/-- The statement changes a store beside the database. -/
def Stmt.marks : Stmt → Bool
  | insertUsedNonce _ _ _ => true
  | setNX _ _ => true
  | createSession _ _ _ => true
  | _ => false

/-- The replies to the statements. -/
def Reply : Stmt → Type
  | .now => Instant
  | .random => Uuid
  | .readRandom _ => Except Unit (List UInt8)
  | .mapOrder => List ℕ
  | .lookup q => Sql q.Row
  | .findTransactionByIdempotencyKey _ => Sql (String × String)
  | .beginTx _ => Sql Unit
  | .query q => Sql q.Row
  | .commit => Sql Unit
  | .rollback => Unit
  | .audit _ => Unit
  | .insertUsedNonce _ _ _ => Except Unit Unit
  | .setNX _ _ => Except Unit Bool
  | .createSession _ _ _ => Except Unit Unit
  | .getSession _ => Except Unit (Option (List UInt8))
  | .verifyCertificate _ => Except Unit VerifyCertificateResponse

/-- The statements of the bank with their replies. -/
def signature : Signature := ⟨Stmt, Reply⟩

/-! ## Environment -/

/-- What all calls share. -/
structure Env where
  db : Db
  /-- The nonces in `used_nonces`, whose rows are only added. -/
  usedNonces : List String
  /-- The keys in Redis, with the times they expire. -/
  redis : List (String × ℤ)
  /-- The sessions in Redis, with the times they expire. -/
  sessions : List (String × AdminSession × ℤ)
  clock : Instant

/-- The environment after the migrations. -/
def Env.initial (clock : Instant) : Env := ⟨Db.empty, [], [], [], clock⟩

/-- The transaction of a call: not begun, open, or committed or rolled back. -/
inductive Conn where
  | fresh
  | active (tx : Tx schema)
  | done

/-- The open transaction of a call. -/
def Conn.tx : Conn → Option (Tx schema)
  | .active tx => some tx
  | _ => none

/-- What decides a statement's outcome. -/
structure Choice where
  /-- The statement fails. -/
  fail : Bool := false
  /-- It reports a failure after it took effect. -/
  lost : Bool := false
  random : Uuid := Vector.replicate 16 0
  bytes : List UInt8 := []
  order : List ℕ := []
  cert : Except Unit VerifyCertificateResponse := .error ()

/-- `newUUID`: random bytes with the version and the variant set, in the usual layout. -/
def newUUID (b : Uuid) : String :=
  Uuid.text ((b.set 6 (b[6] &&& 0x0f ||| 0x40)).set 8 (b[8] &&& 0x3f ||| 0x80))

/-- The id of a new account. -/
def drawnId (random : Uuid) : Uuid :=
  (random.set 6 (random[6] &&& 0x0f ||| 0x40)).set 8 (random[8] &&& 0x3f ||| 0x80)

theorem text_of_newUUID {b u : Uuid} (h : uuidIn (newUUID b) = some u) : u.text = newUUID b := by
  rw [newUUID, uuidIn_text] at h
  rw [← Option.some.inj h, newUUID]

/-- One statement of the open transaction of a call. -/
def inTx (others : List Conn) (c : Choice) (e : Env) {α : Type}
    (plan : Db → Option (SqlEffect α)) : Conn → Option (Sql α × Env × Conn)
  | .active tx =>
    (tx.perform (others.filterMap Conn.tx) e.db c.fail plan).map fun (r, tx') =>
      (r.getD (.error .failed), e, .active tx')
  | l => some (.error .failed, e, l)

/-- The key is in Redis. -/
def Env.hasKey (e : Env) (key : String) : Bool :=
  e.redis.any fun (k, expires) => k = key && decide (e.clock.ns < expires)

/-- The key is set in Redis until the time to live is over. -/
def Env.setKey (e : Env) (key : String) (ttl : ℤ) : Env :=
  { e with redis := (key, e.clock.ns + ttl) :: e.redis }

/-- The text of the session that was stored last under a hash, unless it has expired. -/
def Env.session (e : Env) (tokenHash : String) : Option (List UInt8) :=
  ((e.sessions.find? (·.1 = tokenHash)).filter fun (_, _, expires) => e.clock.ns < expires).map
    fun (_, session, _) => session.marshal

/-- The meaning of the statements. -/
def exec (rounding : Rounding) (others : List Conn) :
    (s : Stmt) → Choice → Env → Conn → Option (Reply s × Env × Conn)
  | .now, _, e, l => some (e.clock, e, l)
  | .random, c, e, l => some (c.random, e, l)
  | .readRandom n, c, e, l =>
    some (if c.fail then .error () else .ok ((c.bytes ++ List.replicate n 0).take n), e, l)
  | .mapOrder, c, e, l => some (c.order, e, l)
  | .lookup q, c, e, l =>
    some (if c.fail then .error .failed else q.read rounding c.order e.db, e, l)
  | .findTransactionByIdempotencyKey key, c, e, l =>
    if c.fail then some (.error .failed, e, l)
    else match textIn key with
      | none => some (.error .failed, e, l)
      | some key => match e.db.transactions.find? (·.idempotencyKey = key) with
        | none => some (.error .noRows, e, l)
        | some t => some (.ok (t.id.text, t.status.text), e, l)
  | .beginTx isolation, c, e, l => match l with
    | .fresh =>
      if c.fail then some (.error .failed, e, .fresh)
      else some (.ok (), e, .active (Tx.begin isolation))
    | l => some (.error .failed, e, l)
  | .query q, c, e, l => inTx others c e (q.plan rounding) l
  | .commit, c, e, l => match l with
    | .active tx =>
      if tx.aborted || c.fail then some (.error .failed, e, .done)
      else some (if c.lost then .error .failed else .ok (), { e with db := tx.commit e.db },
        .done)
    | l => some (.error .failed, e, l)
  | .rollback, _, e, l => match l with
    | .active _ => some ((), e, .done)
    | l => some ((), e, l)
  | .audit _, _, e, l => some ((), e, l)
  | .insertUsedNonce nonce _ _, c, e, l =>
    if c.fail || nonce ∈ e.usedNonces then some (.error (), e, l)
    else some (if c.lost then .error () else .ok (),
      { e with usedNonces := e.usedNonces ++ [nonce] }, l)
  | .setNX key ttl, c, e, l =>
    if c.fail then some (.error (), e, l)
    else
      let e' := if e.hasKey key then e else e.setKey key ttl
      some (if c.lost then .error () else .ok (!e.hasKey key), e', l)
  | .createSession tokenHash session ttl, c, e, l =>
    if c.fail then some (.error (), e, l)
    else some (if c.lost then .error () else .ok (),
      { e with sessions := (tokenHash, session, e.clock.ns + ttl) :: e.sessions }, l)
  | .getSession tokenHash, c, e, l =>
    some (if c.fail then .error () else .ok (e.session tokenHash), e, l)
  | .verifyCertificate _, c, e, l => some (c.cert, e, l)

/-- The world of the bank's programs. -/
abbrev world (rounding : Rounding) : World where
  S := signature
  Env := Env
  Loc := Conn
  Choice := Choice
  exec := exec rounding

/-- The machine of a family of programs of the bank. The clock never goes back. -/
abbrev machine (rounding : Rounding) {Request Result : Type}
    (program : Request → Program signature Result) : Machine where
  toWorld := world rounding
  Tick := Instant
  Request := Request
  Result := Result
  program := program
  start := .fresh
  tick t (e : Env) := if e.clock ≤ t then some { e with clock := t } else none

/-! ## What the statements do to the database -/

section Exec

variable {rounding : Rounding} {others : List Conn} {c : Choice} {e e' : Env} {l l' : Conn}

theorem inTx_cases {α : Type} {plan : Db → Option (SqlEffect α)} {r : Sql α}
    (h : inTx others c e plan l = some (r, e', l')) :
    e' = e ∧
      ((∃ tx, l = .active tx ∧ r = .error .failed ∧ l' = .active tx.abort) ∨
      (∃ tx f, l = .active tx ∧ tx.aborted = false ∧ plan (tx.view e.db) = some f ∧
        r = f.reply ∧ l' = .active (tx.extend e.db f)) ∨
      (l.tx = none ∧ r = .error .failed ∧ l' = l)) := by
  cases l with
  | active tx =>
    simp only [inTx, Option.map_eq_some_iff] at h
    obtain ⟨⟨r', tx'⟩, hp, hx⟩ := h
    cases hx
    refine ⟨rfl, ?_⟩
    obtain ⟨rfl, rfl⟩ | ⟨f, ha, hf, rfl, rfl, -⟩ := Tx.perform_cases hp
    · exact .inl ⟨tx, rfl, rfl, rfl⟩
    · exact .inr (.inl ⟨tx, f, rfl, ha, hf, rfl, rfl⟩)
  | fresh => cases h; exact ⟨rfl, .inr (.inr ⟨rfl, rfl, rfl⟩)⟩
  | done => cases h; exact ⟨rfl, .inr (.inr ⟨rfl, rfl, rfl⟩)⟩

/-- A commit of an open transaction fails, or the database is the one after its writes. -/
theorem exec_commit_cases {tx : Tx schema} {r : Sql Unit}
    (h : exec rounding others .commit c e (.active tx) = some (r, e', l')) :
    l' = .done ∧ ((r = .error .failed ∧ e' = e) ∨
      (tx.aborted = false ∧ e' = { e with db := tx.commit e.db })) := by
  simp only [exec] at h
  split at h
  · cases h
    exact ⟨rfl, .inl ⟨rfl, rfl⟩⟩
  · next ha =>
    cases h
    rw [Bool.or_eq_true, not_or, Bool.not_eq_true] at ha
    exact ⟨rfl, .inr ⟨ha.1, rfl⟩⟩

theorem exec_query (q : Query) :
    exec rounding others (.query q) c e l = inTx others c e (q.plan rounding) l := rfl

theorem inTx_step {α : Type} {plan : Db → Option (SqlEffect α)} {r : Sql α}
    (h : inTx others c e plan l = some (r, e', l')) :
    Tx.Step (others.filterMap Conn.tx) e.db l.tx e'.db l'.tx := by
  cases l with
  | active tx =>
    simp only [inTx, Option.map_eq_some_iff] at h
    obtain ⟨⟨r', tx'⟩, hp, hx⟩ := h
    cases hx
    exact .perform hp
  | fresh => cases h; exact .keep _ _
  | done => cases h; exact .keep _ _

theorem inTx_mono {α : Type} {plan : Db → Option (SqlEffect α)} {others' : List Conn}
    (hsub : others' ⊆ others) {x : Sql α × Env × Conn} (h : inTx others c e plan l = some x) :
    inTx others' c e plan l = some x := by
  cases l with
  | active tx =>
    simp only [inTx, Option.map_eq_some_iff] at h ⊢
    obtain ⟨y, hp, rfl⟩ := h
    exact ⟨y, Tx.perform_mono (List.filterMap_subset _ hsub) hp, rfl⟩
  | fresh => exact h
  | done => exact h

/-- **The database changes by the commits of transactions only.** -/
theorem exec_step {s : Stmt} {r : Reply s} (h : exec rounding others s c e l = some (r, e', l')) :
    Tx.Step (others.filterMap Conn.tx) e.db l.tx e'.db l'.tx := by
  cases s with
  | now | random | readRandom | mapOrder | lookup | audit | getSession | verifyCertificate =>
    cases h
    exact .keep _ _
  | findTransactionByIdempotencyKey key =>
    simp only [exec] at h
    repeat' split at h
    all_goals
      cases h
      exact .keep _ _
  | beginTx isolation =>
    simp only [exec] at h
    repeat' split at h
    all_goals
      cases h
      first
        | exact .keep _ _
        | exact .begin _ _ _
  | commit =>
    simp only [exec] at h
    repeat' split at h
    all_goals
      cases h
      first
        | exact .drop _ _
        | exact .commit _ _
        | exact .keep _ _
  | rollback =>
    simp only [exec] at h
    split at h
    all_goals
      cases h
      first
        | exact .drop _ _
        | exact .keep _ _
  | insertUsedNonce | createSession =>
    simp only [exec] at h
    split at h
    all_goals
      cases h
      exact .keep _ _
  | setNX key ttl =>
    simp only [exec] at h
    split at h
    · cases h
      exact .keep _ _
    · cases h
      split
      all_goals exact .keep _ _
  | query q => exact inTx_step h

/-- A statement that need not wait need not wait with fewer calls in progress. -/
theorem exec_mono {others' : List Conn} (hsub : others' ⊆ others) {s : Stmt}
    {x : Reply s × Env × Conn} (h : exec rounding others s c e l = some x) :
    exec rounding others' s c e l = some x := by
  cases s <;> first | exact h | exact inTx_mono hsub h

/-- The clock does not go back while a statement is executed. -/
theorem exec_clock {s : Stmt} {r : Reply s}
    (h : exec rounding others s c e l = some (r, e', l')) : e'.clock = e.clock := by
  cases s with
  | now | random | readRandom | mapOrder | lookup | audit | getSession | verifyCertificate =>
    cases h
    rfl
  | findTransactionByIdempotencyKey | beginTx | commit | rollback | insertUsedNonce |
      createSession =>
    simp only [exec] at h
    repeat' split at h
    all_goals
      cases h
      rfl
  | setNX key ttl =>
    simp only [exec] at h
    split at h
    · cases h
      rfl
    · cases h
      split <;> rfl
  | query q => rw [(inTx_cases h).1]

/-- A statement that changes the environment commits an open transaction, or changes a store
beside the database. -/
theorem exec_env {s : Stmt} {r : Reply s}
    (h : exec rounding others s c e l = some (r, e', l')) :
    e' = e ∨
    (s = .commit ∧ l' = .done ∧ ∃ tx, l = .active tx ∧ tx.aborted = false ∧
      e' = { e with db := tx.commit e.db }) ∨
    (s.marks = true ∧ e'.db = e.db) := by
  cases s with
  | now | random | readRandom | mapOrder | lookup | audit | getSession | verifyCertificate =>
    cases h
    exact .inl rfl
  | findTransactionByIdempotencyKey | beginTx | rollback =>
    simp only [exec] at h
    repeat' split at h
    all_goals
      cases h
      exact .inl rfl
  | insertUsedNonce | createSession =>
    simp only [exec] at h
    split at h
    all_goals
      cases h
      exact .inr (.inr ⟨rfl, rfl⟩)
  | setNX key ttl =>
    simp only [exec] at h
    refine .inr (.inr ⟨rfl, ?_⟩)
    split at h
    · cases h
      rfl
    · cases h
      split <;> rfl
  | query q => exact .inl (inTx_cases h).1
  | commit =>
    cases l with
    | active tx =>
      obtain ⟨rfl, ⟨-, rfl⟩ | ⟨ha, rfl⟩⟩ := exec_commit_cases h
      · exact .inl rfl
      · exact .inr (.inl ⟨rfl, rfl, tx, rfl, ha, rfl⟩)
    | fresh => cases h; exact .inl rfl
    | done => cases h; exact .inl rfl

/-- A statement that changes the database is the commit of an open transaction. -/
theorem exec_db {s : Stmt} {r : Reply s} (h : exec rounding others s c e l = some (r, e', l')) :
    e'.db = e.db ∨ s = .commit ∧ l' = .done ∧
      ∃ tx, l = .active tx ∧ tx.aborted = false ∧ e'.db = tx.commit e.db := by
  obtain rfl | ⟨rfl, hl, tx, htx, ha, rfl⟩ | ⟨-, hdb⟩ := exec_env h
  · exact .inl rfl
  · exact .inr ⟨rfl, hl, tx, htx, ha, rfl⟩
  · exact .inl hdb

/-- The transaction of a call is over, or aborted: the call commits nothing any more. -/
def Conn.Dead : Conn → Prop
  | .fresh => False
  | .active tx => tx.aborted = true
  | .done => True

/-- No statement brings a dead transaction back. -/
theorem exec_dead {s : Stmt} {r : Reply s} (h : exec rounding others s c e l = some (r, e', l'))
    (hl : l.Dead) : l'.Dead := by
  cases s with
  | now | random | readRandom | mapOrder | lookup | audit | getSession | verifyCertificate =>
    cases h
    exact hl
  | findTransactionByIdempotencyKey | insertUsedNonce | setNX | createSession =>
    simp only [exec] at h
    repeat' split at h
    all_goals
      cases h
      exact hl
  | beginTx | rollback | commit =>
    cases l with
    | fresh => exact hl.elim
    | active tx =>
      simp only [exec] at h
      repeat' split at h
      all_goals
        cases h
        first
          | exact hl
          | trivial
    | done =>
      cases h
      trivial
  | query q =>
    obtain ⟨-, ⟨tx, -, -, rfl⟩ | ⟨tx, f, rfl, ha, -⟩ | ⟨-, -, rfl⟩⟩ := inTx_cases h
    · rfl
    · exact absurd (ha.symm.trans hl) Bool.false_ne_true
    · exact hl

/-- A statement that changes a store beside the database leaves the transaction as it is. -/
theorem exec_marks {s : Stmt} {r : Reply s} (h : exec rounding others s c e l = some (r, e', l'))
    (hs : s.marks = true) : l' = l := by
  cases s with
  | insertUsedNonce | setNX | createSession =>
    simp only [exec] at h
    split at h
    all_goals
      cases h
      rfl
  | _ => cases hs

/-- A transaction that is over stays so. -/
theorem exec_done {s : Stmt} {r : Reply s} (h : exec rounding others s c e l = some (r, e', l'))
    (hl : l = .done) : l' = .done := by
  subst hl
  cases s with
  | setNX key ttl =>
    simp only [exec] at h
    split at h
    all_goals
      cases h
      rfl
  | findTransactionByIdempotencyKey | insertUsedNonce | createSession =>
    simp only [exec] at h
    repeat' split at h
    all_goals
      cases h
      rfl
  | _ =>
    cases h
    rfl

end Exec

/-- The machine of any family of programs of the bank is transactional. -/
def transactional (rounding : Rounding) {Request Result : Type}
    (program : Request → Program signature Result) :
    Transactional (machine rounding program) schema where
  db := Env.db
  tx := Conn.tx
  start := rfl
  exec := exec_step
  tick {t e e'} h := by
    simp only [machine] at h
    split at h
    · cases h
      rfl
    · cases h

end Bank
