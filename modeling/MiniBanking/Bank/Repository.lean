import MiniBanking.Bank.Schema
import Mathlib.Data.List.Perm.Basic
import Mathlib.Data.List.Sort

/-!
# The statements of the bank

The values the service passes to the repository, and each SQL statement of the repository as a
plan: from the database a transaction sees to what the statement locks, writes and replies, or
to no plan when a column type or a constraint refuses it.

## Main definitions

* `AccountRecord`, `TransactionRow`: what the service reads and writes
* `loadAccountForUpdateByNumber`, `sumCompletedTransfersSince`, …: the statements
* `Transaction.of`: the row a transfer is stored as

## Main results

* `loadAccountForUpdateByNumber_cases`, `debitAccount_cases`, …: what each statement does
-/

namespace Bank

open Go Postgres

/-- Why a statement gave no row. -/
inductive SqlError where
  /-- `sql.ErrNoRows`. -/
  | noRows
  /-- Any other error. -/
  | failed
  deriving DecidableEq

/-- The reply to a statement. -/
abbrev Sql (α : Type) := Except SqlError α

/-- The row locked during a transfer (account + owner status). -/
structure AccountRecord where
  id : String := ""
  userID : String := ""
  userStatus : String := ""
  number : String := ""
  balance : Int64 := 0
  limit : Int64 := 0
  currency : String := ""
  status : String := ""
  deriving DecidableEq

/-- A transaction as the service hands it to the repository. -/
structure TransactionRow where
  id : String
  fromAccountID : String
  toAccountID : String
  fromNumber : String
  toNumber : String
  amount : Int64
  currency : String
  description : String
  payloadHash : String
  signature : String
  certSerial : String
  scope : String
  nonce : String
  idempotencyKey : String
  previousHash : String
  currentHash : String
  createdAt : Instant
  deriving DecidableEq

/-- What a statement of a transaction does. -/
abbrev SqlEffect (α : Type) := Effect schema (Sql α)

/-! ## Reading -/

/-- The record of an account and its owner. -/
def AccountRecord.of (a : Account) (u : User) : AccountRecord where
  id := a.id.text
  userID := a.userId.text
  userStatus := u.status.text
  number := a.accountNumber
  balance := a.balance
  limit := a.dailyTransferLimit
  currency := a.currency
  status := a.status.text

/-- `SELECT … FROM accounts a JOIN users u … WHERE a.account_number = $1 FOR UPDATE`. -/
def loadAccountForUpdateByNumber (accountNumber : String) (view : Db) :
    Option (SqlEffect AccountRecord) :=
  (textIn accountNumber).map fun number =>
    match view.accounts.find? (·.accountNumber = number) with
    | none => .read (.error .noRows)
    | some a => match view.user a.userId with
      | none => .read (.error .noRows)
      | some u => Effect.lock (S := schema) [Key.account a.id, Key.user u.id] (.ok (.of a u))

/-- The amounts of the completed transfers from an account in a span of time. -/
def Db.spent (db : Db) (id : Uuid) (since till : ℤ) : ℤ :=
  ((db.transactions.filter fun t => t.fromAccountId = some id ∧ t.status = .completed ∧
    since ≤ t.createdAt ∧ t.createdAt ≤ till).map (·.amount.toInt)).sum

/-- `SELECT COALESCE(SUM(amount), 0) FROM transactions WHERE from_account_id = $1 AND status =
'completed' AND created_at >= $2 AND created_at <= $3`. A sum that is no `int64` cannot be
scanned. -/
def sumCompletedTransfersSince (rounding : Rounding) (fromAccountID : String) (since till : ℤ)
    (view : Db) : Option (SqlEffect Int64) :=
  (uuidIn fromAccountID).map fun id =>
    match bigintIn (view.spent id (rounding.toMicros since) (rounding.toMicros till)) with
    | none => .read (.error .failed)
    | some spent => .read (.ok spent)

/-- `SELECT last_hash FROM ledger_state WHERE id = 'main' FOR UPDATE`. -/
def lockLedgerLastHash (view : Db) : Option (SqlEffect String) :=
  some (Effect.lock (S := schema) [Key.ledger] (.ok view.ledger.lastHash))

/-! ## Reading without a transaction -/

/-- A user together with an account. -/
structure AccountProfile where
  ownerID : String
  fullName : String
  email : String
  userStatus : String
  accountID : String
  accountNumber : String
  balance : Int64
  limit : Int64
  currency : String
  accountStatus : String
  deriving DecidableEq

/-- The profile of an account, by `JOIN users u ON u.id = a.user_id`. -/
def Db.profile (db : Db) (a : Account) : Sql AccountProfile :=
  match db.user a.userId with
  | none => .error .noRows
  | some u => .ok
    { ownerID := u.id.text, fullName := u.fullName, email := u.email, userStatus := u.status.text,
      accountID := a.id.text, accountNumber := a.accountNumber, balance := a.balance,
      limit := a.dailyTransferLimit, currency := a.currency, accountStatus := a.status.text }

/-- `… WHERE a.id = $1`. -/
def getAccountProfileByID (accountID : String) (db : Db) : Sql AccountProfile :=
  match uuidIn accountID with
  | none => .error .failed
  | some id => match db.account id with
    | none => .error .noRows
    | some a => db.profile a

/-- `… WHERE u.id = $1 ORDER BY a.created_at ASC LIMIT 1`. -/
def getDefaultAccountProfileByUser (userID : String) (db : Db) : Sql AccountProfile :=
  match uuidIn userID with
  | none => .error .failed
  | some id =>
    match (db.accounts.filter (·.userId = id)).insertionSort (·.createdAt ≤ ·.createdAt) with
    | [] => .error .noRows
    | a :: _ => db.profile a

/-- `SELECT user_id::text FROM accounts WHERE id = $1`. -/
def getAccountOwner (accountID : String) (db : Db) : Sql String :=
  match uuidIn accountID with
  | none => .error .failed
  | some id => match db.account id with
    | none => .error .noRows
    | some a => .ok a.userId.text

/-- The transactions of an account. -/
def Db.history (db : Db) (id : Uuid) : List Transaction :=
  db.transactions.filter fun t => t.fromAccountId = some id ∨ t.toAccountId = some id

/-- `SELECT COUNT(*) FROM transactions WHERE from_account_id = $1 OR to_account_id = $1`. A count
that is no `int32` cannot be scanned. -/
def countHistory (accountID : String) (db : Db) : Sql Int32 :=
  match uuidIn accountID with
  | none => .error .failed
  | some id =>
    let n := (db.history id).length
    if n < 2 ^ 31 then .ok (.ofNat n) else .error .failed

/-- A transaction as the history shows it. -/
structure TransactionRecord where
  transactionID : String
  fromAccountNumber : String
  toAccountNumber : String
  amount : Int64
  currency : String
  status : String
  description : String
  scope : String
  createdAtUnix : ℤ
  completedAtUnix : ℤ
  deriving DecidableEq

/-- `EXTRACT(EPOCH FROM …)::bigint`, which rounds half a second away from zero. -/
def epoch (micros : ℤ) : ℤ :=
  if 0 ≤ micros then (micros + 500000) / 1000000 else -((500000 - micros) / 1000000)

/-- The record of a row; `completed_at` is `created_at`. -/
def TransactionRecord.of (t : Transaction) : TransactionRecord where
  transactionID := t.id.text
  fromAccountNumber := t.fromAccountNumber
  toAccountNumber := t.toAccountNumber
  amount := t.amount
  currency := t.currency
  status := t.status.text
  description := t.description
  scope := t.scope
  createdAtUnix := epoch t.createdAt
  completedAtUnix := epoch t.createdAt

/-- The elements of a list in an order that some numbers decide: every order is decided by
some. -/
def arrange {α : Type} : List ℕ → List α → List α
  | n :: ns, x :: xs =>
    let rest := (x :: xs).eraseIdx (n % (xs.length + 1))
    ((x :: xs)[n % (xs.length + 1)]?.getD x) :: arrange ns rest
  | _, xs => xs

theorem arrange_perm {α : Type} (order : List ℕ) (xs : List α) : (arrange order xs).Perm xs := by
  induction order generalizing xs with
  | nil => cases xs <;> exact .refl _
  | cons n ns ih =>
    cases xs with
    | nil => exact .refl _
    | cons x xs =>
      have hlt : n % (xs.length + 1) < (x :: xs).length := Nat.mod_lt _ (Nat.succ_pos _)
      rw [arrange, List.getElem?_eq_getElem hlt, Option.getD_some]
      exact ((ih _).cons _).trans (List.getElem_cons_eraseIdx_perm hlt)

/-- Every order is decided by some numbers. -/
theorem exists_arrange {α : Type} {xs ys : List α} (h : ys.Perm xs) :
    ∃ order, arrange order xs = ys := by
  induction ys generalizing xs with
  | nil =>
    rw [List.nil_perm.mp h]
    exact ⟨[], rfl⟩
  | cons y ys ih =>
    obtain ⟨n, hn, hy⟩ := List.getElem_of_mem (h.subset List.mem_cons_self)
    have hrest : ys.Perm (xs.eraseIdx n) := by
      have hperm := h.trans (List.getElem_cons_eraseIdx_perm hn).symm
      rw [hy] at hperm
      exact hperm.cons_inv
    obtain ⟨order, horder⟩ := ih hrest
    cases xs with
    | nil => exact absurd hn (Nat.not_lt_zero n)
    | cons x xs =>
      have hmod : n % (xs.length + 1) = n := Nat.mod_eq_of_lt hn
      refine ⟨n :: order, ?_⟩
      rw [arrange, hmod, horder, List.getElem?_eq_getElem hn, Option.getD_some, hy]

/-- `SELECT … WHERE from_account_id = $1 OR to_account_id = $1 ORDER BY created_at DESC LIMIT $2
OFFSET $3`. Rows of one time come in any order. -/
def listHistory (order : List ℕ) (accountID : String) (limit offset : ℕ) (db : Db) :
    Sql (List TransactionRecord) :=
  match uuidIn accountID with
  | none => .error .failed
  | some id =>
    let rows := (arrange order (db.history id)).insertionSort (·.createdAt ≥ ·.createdAt)
    .ok (((rows.drop offset).take limit).map .of)

/-! ## Writing -/

/-- `UPDATE accounts SET balance = … WHERE id = $2`: no row may match, and the new balance must
be a `bigint` and pass its check. -/
def updateBalance (newBalance : ℤ → ℤ) (accountID : String) (view : Db) :
    Option (SqlEffect Unit) := do
  let id ← uuidIn accountID
  match view.account id with
  | none => return .read (.ok ())
  | some a =>
    let balance ← bigintIn (newBalance a.balance.toInt)
    if h : 0 ≤ balance then
      return .write (S := schema) (.setBalance id balance h) (.ok ())
    else none

/-- `UPDATE accounts SET balance = balance - $1 WHERE id = $2`. -/
def debitAccount (amount : Int64) (accountID : String) : Db → Option (SqlEffect Unit) :=
  updateBalance (· - amount.toInt) accountID

/-- `UPDATE accounts SET balance = balance + $1 WHERE id = $2`. -/
def creditAccount (amount : Int64) (accountID : String) : Db → Option (SqlEffect Unit) :=
  updateBalance (· + amount.toInt) accountID

/-- The row that stores a transaction, if its columns take the values and the checks pass. -/
def Transaction.of (rounding : Rounding) (status : TransactionStatus)
    (fromAccountId toAccountId : Option Uuid) (t : TransactionRow) : Option Transaction := do
  let id ← uuidIn t.id
  let fromAccountNumber ← varcharIn 30 t.fromNumber
  let toAccountNumber ← varcharIn 30 t.toNumber
  let currency ← varcharIn 3 t.currency
  let description ← textIn t.description
  let payloadHash ← varcharIn 64 t.payloadHash
  let clientSignature ← textIn t.signature
  let certSerial ← varcharIn 128 t.certSerial
  let scope ← varcharIn 50 t.scope
  let nonce ← varcharIn 255 t.nonce
  let idempotencyKey ← varcharIn 255 t.idempotencyKey
  let previousHash ← varcharIn 64 t.previousHash
  let currentHash ← varcharIn 64 t.currentHash
  if h : 0 < t.amount ∧
      (fromAccountId = none ∨ toAccountId = none ∨ fromAccountId ≠ toAccountId) then
    return { id, fromAccountId, toAccountId, fromAccountNumber, toAccountNumber,
             amount := t.amount, currency, status, description, payloadHash, clientSignature,
             certSerial, scope, nonce, idempotencyKey, previousHash, currentHash,
             createdAt := rounding.toMicros t.createdAt.ns, sentAt := t.createdAt,
             amount_check := h.1, diff_accounts := h.2 }
  else none

/-- A transaction can be added: what it refers to exists, and its unique values are new. -/
def Db.Admits (db : Db) (row : Transaction) : Prop :=
  (∀ id ∈ row.fromAccountId, db.account id ≠ none) ∧
  (∀ id ∈ row.toAccountId, db.account id ≠ none) ∧
  ∀ t ∈ db.transactions,
    t.id ≠ row.id ∧ t.nonce ≠ row.nonce ∧ t.idempotencyKey ≠ row.idempotencyKey

instance (db : Db) (row : Transaction) : Decidable (db.Admits row) :=
  -- named, since a search would also try the whole type of ids
  have : ∀ o : Option Uuid, Decidable (∀ id ∈ o, db.account id ≠ none) :=
    fun o => Option.decidableForallMem o
  inferInstanceAs (Decidable (_ ∧ _ ∧ _))

/-- `INSERT INTO transactions` of a row. -/
def insertRow (row : Transaction) (view : Db) : Option (SqlEffect Unit) :=
  if view.Admits row then some (.write (S := schema) (.insertTransaction row) (.ok ())) else none

/-- `INSERT INTO transactions(…) VALUES ($1, $2, $3, …, 'completed', …)`. -/
def insertTransaction (rounding : Rounding) (t : TransactionRow) (view : Db) :
    Option (SqlEffect Unit) := do
  let fromAccountId ← uuidIn t.fromAccountID
  let toAccountId ← uuidIn t.toAccountID
  let row ← Transaction.of rounding .completed (some fromAccountId) (some toAccountId) t
  insertRow row view

/-- `NULLIF($n, '')::uuid`. -/
def nullableUuidIn (s : String) : Option (Option Uuid) :=
  if s = "" then some none else (uuidIn s).map some

/-- `INSERT INTO transactions(…) VALUES ($1, NULLIF($2, '')::uuid, NULLIF($3, '')::uuid, …,
'failed', …)`. -/
def insertFailedTransaction (rounding : Rounding) (t : TransactionRow) (view : Db) :
    Option (SqlEffect Unit) := do
  let fromAccountId ← nullableUuidIn t.fromAccountID
  let toAccountId ← nullableUuidIn t.toAccountID
  let row ← Transaction.of rounding .failed fromAccountId toAccountId t
  insertRow row view

/-- `UPDATE ledger_state SET last_hash = $1, last_transaction_id = $2, … WHERE id = 'main'`. -/
def updateLedger (currentHash txID : String) (_view : Db) : Option (SqlEffect Unit) := do
  let lastHash ← varcharIn 64 currentHash
  let lastTransactionId ← uuidIn txID
  return .write (S := schema) (.setLedger lastHash lastTransactionId) (.ok ())

/-- `INSERT INTO users(…) VALUES ($1, $2, $3, 'active', $4, $4)`. -/
def insertUser (rounding : Rounding) (id email fullName : String) (now : Instant) (view : Db) :
    Option (SqlEffect Unit) := do
  let id ← uuidIn id
  let email ← varcharIn 255 email
  let fullName ← varcharIn 255 fullName
  if view.users.any (fun u => u.id = id ∨ u.email = email) then none
  else
    return .write (S := schema)
      (.insertUser ⟨id, email, fullName, .active, rounding.toMicros now.ns⟩) (.ok ())

/-- `INSERT INTO accounts(…) VALUES ($1, $2, $3, $4, 50000000, 'VND', 'active', $5, $5)`, with
the opening balance of 50000000. -/
def insertDefaultAccount (rounding : Rounding) (accountID userID accountNumber : String)
    (now : Instant) (view : Db) : Option (SqlEffect Unit) := do
  let id ← uuidIn accountID
  let userId ← uuidIn userID
  let number ← varcharIn 30 accountNumber
  if view.accounts.any (fun a => a.id = id ∨ a.accountNumber = number) ∨
      view.user userId = none then none
  else
    return .write (S := schema)
      (.insertAccount ⟨id, userId, number, 50000000, 50000000, "VND", .active,
        rounding.toMicros now.ns, 0, by decide⟩) (.ok ())

/-! ## What the statements do -/

section Cases

variable {rounding : Rounding} {view : Db}

theorem loadAccountForUpdateByNumber_cases {number : String} {f : SqlEffect AccountRecord}
    (h : loadAccountForUpdateByNumber number view = some f) :
    f = .read (.error .noRows) ∨
    ∃ a u, a ∈ view.accounts ∧ a.accountNumber = number ∧ view.user a.userId = some u ∧
      f = Effect.lock (S := schema) [Key.account a.id, Key.user u.id] (.ok (.of a u)) := by
  simp only [loadAccountForUpdateByNumber, Option.map_eq_some_iff] at h
  obtain ⟨n, hn, rfl⟩ := h
  obtain rfl := textIn_eq hn
  split
  · exact .inl rfl
  next a ha =>
  split
  · exact .inl rfl
  next u hu =>
  have hnumber := List.find?_some ha
  exact .inr ⟨a, u, List.mem_of_find?_eq_some ha, by simpa using hnumber, hu, rfl⟩

theorem sumCompletedTransfersSince_cases {id : String} {since till : ℤ} {f : SqlEffect Int64}
    (h : sumCompletedTransfersSince rounding id since till view = some f) :
    f = .read (.error .failed) ∨
    ∃ u spent, uuidIn id = some u ∧ f = .read (.ok spent) ∧
      spent.toInt = view.spent u (rounding.toMicros since) (rounding.toMicros till) := by
  simp only [sumCompletedTransfersSince, Option.map_eq_some_iff] at h
  obtain ⟨u, hu, rfl⟩ := h
  split
  · exact .inl rfl
  · next spent hspent => exact .inr ⟨u, spent, hu, rfl, toInt_of_bigintIn hspent⟩

theorem updateBalance_cases {newBalance : ℤ → ℤ} {id : String} {f : SqlEffect Unit}
    (h : updateBalance newBalance id view = some f) :
    ∃ u, uuidIn id = some u ∧ ((view.account u = none ∧ f = .read (.ok ())) ∨
      ∃ a balance check, view.account u = some a ∧
        balance.toInt = newBalance a.balance.toInt ∧
        f = Effect.write (S := schema) (Write.setBalance u balance check) (.ok ())) := by
  simp only [updateBalance, Option.bind_eq_bind, Option.bind_eq_some_iff] at h
  obtain ⟨u, hu, h⟩ := h
  refine ⟨u, hu, ?_⟩
  split at h
  · next ha =>
    cases h
    exact .inl ⟨ha, rfl⟩
  next a ha =>
  obtain ⟨balance, hb, h⟩ := Option.bind_eq_some_iff.mp h
  split at h
  · next check =>
    cases h
    exact .inr ⟨a, balance, check, ha, toInt_of_bigintIn hb, rfl⟩
  · cases h

/-- An update of an account that exists gives it the new balance. -/
theorem updateBalance_of_account {newBalance : ℤ → ℤ} {a : Account} {f : SqlEffect Unit}
    (h : updateBalance newBalance a.id.text view = some f) (ha : view.account a.id = some a) :
    ∃ balance check, balance.toInt = newBalance a.balance.toInt ∧
      f = Effect.write (S := schema) (Write.setBalance a.id balance check) (.ok ()) := by
  obtain ⟨u, hu, hnone | ⟨a', balance, check, ha', hbalance, hf⟩⟩ := updateBalance_cases h
  all_goals
    rw [uuidIn_text] at hu
    obtain rfl := Option.some.inj hu
  · exact absurd (ha.symm.trans hnone.1) (Option.some_ne_none _)
  · obtain rfl := Option.some.inj (ha.symm.trans ha')
    exact ⟨balance, check, hbalance, hf⟩

theorem insertRow_cases {row : Transaction} {f : SqlEffect Unit}
    (h : insertRow row view = some f) :
    view.Admits row ∧
      f = Effect.write (S := schema) (Write.insertTransaction row) (.ok ()) := by
  unfold insertRow at h
  split at h
  · next hadm => exact ⟨hadm, (Option.some.inj h).symm⟩
  · cases h

theorem insertTransaction_cases {t : TransactionRow} {f : SqlEffect Unit}
    (h : insertTransaction rounding t view = some f) :
    ∃ u v row, uuidIn t.fromAccountID = some u ∧ uuidIn t.toAccountID = some v ∧
      Transaction.of rounding .completed (some u) (some v) t = some row ∧ view.Admits row ∧
      f = Effect.write (S := schema) (Write.insertTransaction row) (.ok ()) := by
  simp only [insertTransaction, Option.bind_eq_bind, Option.bind_eq_some_iff] at h
  obtain ⟨u, hu, v, hv, row, hrow, h⟩ := h
  exact ⟨u, v, row, hu, hv, hrow, insertRow_cases h⟩

theorem insertFailedTransaction_cases {t : TransactionRow} {f : SqlEffect Unit}
    (h : insertFailedTransaction rounding t view = some f) :
    ∃ ou ov row, Transaction.of rounding .failed ou ov t = some row ∧ view.Admits row ∧
      f = Effect.write (S := schema) (Write.insertTransaction row) (.ok ()) := by
  simp only [insertFailedTransaction, Option.bind_eq_bind, Option.bind_eq_some_iff] at h
  obtain ⟨ou, hu, ov, hv, row, hrow, h⟩ := h
  exact ⟨ou, ov, row, hrow, insertRow_cases h⟩

theorem updateLedger_cases (view : Db) {currentHash txID : String} {f : SqlEffect Unit}
    (h : updateLedger currentHash txID view = some f) :
    ∃ lastHash u, varcharIn 64 currentHash = some lastHash ∧ uuidIn txID = some u ∧
      f = Effect.write (S := schema) (Write.setLedger lastHash u) (.ok ()) := by
  simp only [updateLedger, Option.bind_eq_bind, Option.bind_eq_some_iff] at h
  obtain ⟨lastHash, hl, u, hu, h⟩ := h
  exact ⟨lastHash, u, hl, hu, (Option.some.inj h).symm⟩

theorem insertUser_cases {id email fullName : String} {now : Instant} {f : SqlEffect Unit}
    (h : insertUser rounding id email fullName now view = some f) :
    ∃ u : User, uuidIn id = some u.id ∧
      f = Effect.write (S := schema) (Write.insertUser u) (.ok ()) := by
  simp only [insertUser, Option.bind_eq_bind, Option.bind_eq_some_iff] at h
  obtain ⟨u, hu, e, -, n, -, h⟩ := h
  split at h
  · cases h
  · exact ⟨_, hu, (Option.some.inj h).symm⟩

theorem insertDefaultAccount_cases {accountID userID number : String} {now : Instant}
    {f : SqlEffect Unit}
    (h : insertDefaultAccount rounding accountID userID number now view = some f) :
    ∃ a : Account, uuidIn userID = some a.userId ∧ varcharIn 30 number = some a.accountNumber ∧
      a.balance = 50000000 ∧ a.dailyTransferLimit = 50000000 ∧ a.currency = "VND" ∧
      a.version = 0 ∧ (∀ a' ∈ view.accounts, a'.id ≠ a.id ∧ a'.accountNumber ≠ a.accountNumber) ∧
      f = Effect.write (S := schema) (Write.insertAccount a) (.ok ()) := by
  simp only [insertDefaultAccount, Option.bind_eq_bind, Option.bind_eq_some_iff] at h
  obtain ⟨id, -, u, hu, n, hn, h⟩ := h
  split at h
  · cases h
  next hnew =>
  refine ⟨_, hu, hn, rfl, rfl, rfl, rfl, ?_, (Option.some.inj h).symm⟩
  intro a' ha'
  have hany := (not_or.mp hnew).1
  constructor
  · intro hid
    exact hany (List.any_eq_true.mpr ⟨a', ha', by simp [hid]⟩)
  · intro hnumber
    exact hany (List.any_eq_true.mpr ⟨a', ha', by simp [hnumber]⟩)

end Cases

/-- The row that stores a transaction has the values it was given, those that fit. -/
theorem Transaction.of_eq {rounding : Rounding} {status : TransactionStatus}
    {fromId toId : Option Uuid} {t : TransactionRow} {row : Transaction}
    (h : Transaction.of rounding status fromId toId t = some row) :
    uuidIn t.id = some row.id ∧ row.fromAccountId = fromId ∧ row.toAccountId = toId ∧
    varcharIn 30 t.fromNumber = some row.fromAccountNumber ∧
    varcharIn 30 t.toNumber = some row.toAccountNumber ∧ row.amount = t.amount ∧
    varcharIn 3 t.currency = some row.currency ∧ row.status = status ∧
    varcharIn 64 t.payloadHash = some row.payloadHash ∧
    textIn t.signature = some row.clientSignature ∧
    varcharIn 255 t.nonce = some row.nonce ∧
    varcharIn 255 t.idempotencyKey = some row.idempotencyKey ∧
    varcharIn 64 t.previousHash = some row.previousHash ∧
    varcharIn 64 t.currentHash = some row.currentHash ∧
    row.createdAt = rounding.toMicros t.createdAt.ns ∧ row.sentAt = t.createdAt := by
  unfold Transaction.of at h
  obtain ⟨id, hid, h⟩ := Option.bind_eq_some_iff.mp h
  obtain ⟨fn, hfn, h⟩ := Option.bind_eq_some_iff.mp h
  obtain ⟨tn, htn, h⟩ := Option.bind_eq_some_iff.mp h
  obtain ⟨cur, hcur, h⟩ := Option.bind_eq_some_iff.mp h
  obtain ⟨desc, -, h⟩ := Option.bind_eq_some_iff.mp h
  obtain ⟨ph, hph, h⟩ := Option.bind_eq_some_iff.mp h
  obtain ⟨sig, hsig, h⟩ := Option.bind_eq_some_iff.mp h
  obtain ⟨cs, -, h⟩ := Option.bind_eq_some_iff.mp h
  obtain ⟨sc, -, h⟩ := Option.bind_eq_some_iff.mp h
  obtain ⟨n, hn, h⟩ := Option.bind_eq_some_iff.mp h
  obtain ⟨key, hkey, h⟩ := Option.bind_eq_some_iff.mp h
  obtain ⟨prev, hprev, h⟩ := Option.bind_eq_some_iff.mp h
  obtain ⟨now, hnow, h⟩ := Option.bind_eq_some_iff.mp h
  split at h
  · cases h
    exact ⟨hid, rfl, rfl, hfn, htn, rfl, hcur, rfl, hph, hsig, hn, hkey, hprev, hnow, rfl, rfl⟩
  · cases h

end Bank
