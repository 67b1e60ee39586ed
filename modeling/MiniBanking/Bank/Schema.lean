import MiniBanking.Go.Time
import MiniBanking.Postgres.Columns
import MiniBanking.Postgres.Transaction

/-!
# The bank database

The tables of the bank database, with the `CHECK` constraints of each row as fields of the row,
and the schema that says what a transaction locks and writes. Every update of a row gives it a
new version, as in Postgres, so a row that was changed and changed back is not the same row.

## Main definitions

* `User`, `Account`, `Transaction`, `LedgerState`: the rows
* `Db`: the database, transactions in commit order
* `Db.empty`: the database after the migrations
* `Key`, `Val`, `Write`, `schema`: rows and unique values as keys, and the writes
-/

namespace Bank

open Go Postgres

/-! ## Rows -/

/-- `users.status`. -/
inductive UserStatus where
  | active
  | locked
  deriving DecidableEq

/-- `accounts.status`. -/
inductive AccountStatus where
  | active
  | locked
  | frozen
  deriving DecidableEq

/-- `transactions.status`. -/
inductive TransactionStatus where
  | pending
  | completed
  | failed
  deriving DecidableEq

/-- A status as the Go code reads it. -/
def UserStatus.text : UserStatus → String
  | active => "active"
  | locked => "locked"

/-- A status as the Go code reads it. -/
def AccountStatus.text : AccountStatus → String
  | active => "active"
  | locked => "locked"
  | frozen => "frozen"

/-- A status as the Go code reads it. -/
def TransactionStatus.text : TransactionStatus → String
  | pending => "pending"
  | completed => "completed"
  | failed => "failed"

/-- A row of `users`. -/
structure User where
  id : Uuid
  email : String
  fullName : String
  status : UserStatus
  createdAt : ℤ
  deriving DecidableEq

/-- A row of `accounts`. -/
structure Account where
  id : Uuid
  userId : Uuid
  accountNumber : String
  balance : Int64
  dailyTransferLimit : Int64
  currency : String
  status : AccountStatus
  createdAt : ℤ
  version : ℕ
  balance_check : 0 ≤ balance
  deriving DecidableEq

/-- A row of `transactions`. `createdAt` is in microseconds; `sentAt` is the time before it
was rounded, which the database does not keep and no statement reads. -/
structure Transaction where
  id : Uuid
  fromAccountId : Option Uuid
  toAccountId : Option Uuid
  fromAccountNumber : String
  toAccountNumber : String
  amount : Int64
  currency : String
  status : TransactionStatus
  description : String
  payloadHash : String
  clientSignature : String
  certSerial : String
  scope : String
  nonce : String
  idempotencyKey : String
  previousHash : String
  currentHash : String
  createdAt : ℤ
  sentAt : Instant
  amount_check : 0 < amount
  diff_accounts : fromAccountId = none ∨ toAccountId = none ∨ fromAccountId ≠ toAccountId
  deriving DecidableEq

/-- The row of `ledger_state` with id `main`. -/
structure LedgerState where
  lastHash : String
  lastTransactionId : Option Uuid
  version : ℕ
  deriving DecidableEq

/-- The bank database. -/
structure Db where
  users : List User
  accounts : List Account
  /-- In commit order. -/
  transactions : List Transaction
  ledger : LedgerState
  deriving DecidableEq

/-- The database after the migrations. -/
def Db.empty : Db := ⟨[], [], [], ⟨"genesis", none, 0⟩⟩

/-- The account with a given id. -/
def Db.account (db : Db) (id : Uuid) : Option Account := db.accounts.find? (·.id = id)

/-- The user with a given id. -/
def Db.user (db : Db) (id : Uuid) : Option User := db.users.find? (·.id = id)

/-! ## Keys and writes -/

/-- The rows and unique values a transaction locks. -/
inductive Key where
  | user (id : Uuid)
  | email (email : String)
  | account (id : Uuid)
  | accountNumber (number : String)
  | transaction (id : Uuid)
  | nonce (nonce : String)
  | idempotencyKey (key : String)
  | ledger
  deriving DecidableEq

/-- What the database has at a key: a row, or whether a unique value is taken. -/
inductive Val where
  | user (row : Option User)
  | account (row : Option Account)
  | ledger (row : LedgerState)
  | taken (taken : Bool)
  deriving DecidableEq

/-- A new row, or a new version of a row. -/
inductive Write where
  | insertUser (row : User)
  | insertAccount (row : Account)
  | setBalance (id : Uuid) (balance : Int64) (check : 0 ≤ balance)
  | insertTransaction (row : Transaction)
  | setLedger (lastHash : String) (lastTransactionId : Uuid)

/-- The next version of an account. -/
def Account.setBalance (row : Account) (balance : Int64) (check : 0 ≤ balance) : Account :=
  { row with balance, version := row.version + 1, balance_check := check }

/-- The accounts with a new version of the one with a given id. -/
def withBalance (accounts : List Account) (id : Uuid) (balance : Int64) (check : 0 ≤ balance) :
    List Account :=
  accounts.map fun row => if row.id = id then row.setBalance balance check else row

/-- What the database has at a key. -/
def Db.look (db : Db) : Key → Val
  | .user id => .user (db.user id)
  | .email email => .taken (db.users.any (·.email = email))
  | .account id => .account (db.account id)
  | .accountNumber number => .taken (db.accounts.any (·.accountNumber = number))
  | .transaction id => .taken (db.transactions.any (·.id = id))
  | .nonce nonce => .taken (db.transactions.any (·.nonce = nonce))
  | .idempotencyKey key => .taken (db.transactions.any (·.idempotencyKey = key))
  | .ledger => .ledger db.ledger

/-- The database after a write. -/
def Db.apply (db : Db) : Write → Db
  | .insertUser row => { db with users := db.users ++ [row] }
  | .insertAccount row => { db with accounts := db.accounts ++ [row] }
  | .setBalance id balance check =>
    { db with accounts := withBalance db.accounts id balance check }
  | .insertTransaction row => { db with transactions := db.transactions ++ [row] }
  | .setLedger lastHash lastTransactionId =>
    { db with ledger := ⟨lastHash, some lastTransactionId, db.ledger.version + 1⟩ }

/-- The keys a write may change. -/
def Write.touches : Write → List Key
  | .insertUser row => [.user row.id, .email row.email]
  | .insertAccount row => [.account row.id, .accountNumber row.accountNumber]
  | .setBalance id _ _ => [.account id]
  | .insertTransaction row => [.transaction row.id, .nonce row.nonce,
      .idempotencyKey row.idempotencyKey]
  | .setLedger _ _ => [.ledger]

section Balance

variable (accounts : List Account) (id : Uuid) (balance : Int64) (check : 0 ≤ balance)

@[simp] theorem any_withBalance (number : String) :
    (withBalance accounts id balance check).any (·.accountNumber = number) =
      accounts.any (·.accountNumber = number) := by
  rw [withBalance, List.any_map]
  congr 1
  funext row
  rw [Function.comp_apply]
  split <;> rfl

@[simp] theorem withBalance_nil : withBalance [] id balance check = [] := rfl

@[simp] theorem withBalance_cons (row : Account) :
    withBalance (row :: accounts) id balance check =
      (if row.id = id then row.setBalance balance check else row) ::
        withBalance accounts id balance check := rfl

@[simp] theorem Account.setBalance_id (row : Account) :
    (row.setBalance balance check).id = row.id := rfl

theorem find_withBalance {id' : Uuid} (h : id' ≠ id) :
    (withBalance accounts id balance check).find? (·.id = id') =
      accounts.find? (·.id = id') := by
  induction accounts with
  | nil => rfl
  | cons row accounts ih =>
    by_cases hid : row.id = id
    · simp [hid, h.symm, ih]
    · by_cases hid' : row.id = id'
      · simp [hid', h]
      · simp [hid, hid', ih]

theorem find_withBalance_self :
    (withBalance accounts id balance check).find? (·.id = id) =
      (accounts.find? (·.id = id)).map (·.setBalance balance check) := by
  induction accounts with
  | nil => rfl
  | cons row accounts ih =>
    by_cases hid : row.id = id
    · simp [hid]
    · simp [hid, ih]

end Balance

/-- A write changes only the keys it touches. -/
theorem Db.frame (db : Db) (w : Write) (k : Key) (h : k ∉ w.touches) :
    (db.apply w).look k = db.look k := by
  cases w <;> cases k <;> simp only [Db.look, Db.apply, Db.user, Db.account, any_withBalance]
  all_goals simp only [Write.touches, List.mem_cons, Key.user.injEq, Key.email.injEq,
    Key.account.injEq, Key.accountNumber.injEq, Key.transaction.injEq, Key.nonce.injEq,
    Key.idempotencyKey.injEq, reduceCtorEq, List.not_mem_nil, or_false, false_or,
    not_true_eq_false] at h
  case setBalance.account => rw [find_withBalance _ _ _ _ h]
  all_goals simp [Ne.symm h]

/-- The bank database as a schema of keys and writes. -/
abbrev schema : Schema where
  Db := Db
  Key := Key
  Val := Val
  Write := Write
  look := Db.look
  apply := Db.apply
  touches := Write.touches
  frame := Db.frame

instance : DecidableEq schema.Key := inferInstanceAs (DecidableEq Key)

instance : DecidableEq schema.Val := inferInstanceAs (DecidableEq Val)

end Bank
