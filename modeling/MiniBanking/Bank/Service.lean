import MiniBanking.Bank.Statement

/-!
# The bank service

`Service.Transfer` and `Service.CreateUser` as programs over the statements of the bank, in the
order of the source.

## Main definitions

* `Err`: the errors of the service
* `Caller`, `TransferInput`, `CreateUserInput`: what the handler hands to the service
* `Service`: what a deployment fixes
* `transfer`, `executeTransfer`, `failTransfer`: `Service.Transfer`
* `getBalance`, `getHistory`: `Service.GetBalance` and `Service.GetHistory`
* `createUser`: `Service.CreateUser`
* `serviceMachine`: interleaved calls of the service
-/

namespace Bank

open Concurrency Go Postgres

/-! ## Values -/

/-- The errors of the business layer: the sentinels, and errors of the database under the text
the service puts before them. -/
inductive Err where
  | notConfigured
  | invalidInput
  | userExists
  | accountNotFound
  | forbidden
  | accountNotActive
  | badRequest
  | insufficientFunds
  | dailyLimitExceeded
  | idempotency
  | wrapped (operation : String)
  deriving DecidableEq

/-- The text of an error; of a wrapped one, the text before the colon. -/
def Err.message : Err → String
  | notConfigured => "database is not configured"
  | invalidInput => "user_id, subject_email and full_name are required"
  | userExists => "user already exists"
  | accountNotFound => "NOT_FOUND"
  | forbidden => "FORBIDDEN"
  | accountNotActive => "ACCOUNT_NOT_ACTIVE"
  | badRequest => "BAD_REQUEST"
  | insufficientFunds => "INSUFFICIENT_FUNDS"
  | dailyLimitExceeded => "DAILY_LIMIT_EXCEEDED"
  | idempotency => "IDEMPOTENCY_FAILED"
  | wrapped operation => operation

/-- The authenticated identity the handler extracts during the AP exchange. -/
structure Caller where
  clientID : String
  certSN : String
  scope : String
  nonce : String
  requestID : String
  deriving DecidableEq

/-- The decrypted, signature-verified transfer the handler hands to the service. -/
structure TransferInput where
  fromAccountNumber : String
  toAccountNumber : String
  amount : Int64
  currency : String
  description : String
  idempotencyKey : String
  canonical : List UInt8
  signature : List UInt8
  deriving DecidableEq

/-- The user to create, under the owner id of a certificate. -/
structure CreateUserInput where
  userID : String
  subjectEmail : String
  fullName : String
  deriving DecidableEq

/-- A created user. -/
structure CreateUserResult where
  userID : String
  status : String
  createdAt : Instant
  deriving DecidableEq

/-- Profile and balance. -/
structure BalanceResult where
  accountID : String
  accountNumber : String
  balance : Int64
  currency : String
  status : String
  fullName : String
  email : String
  limit : Int64
  userStatus : String
  dailyTransferUsed : Int64
  deriving DecidableEq

/-- One page of a history. -/
structure HistoryResult where
  records : List TransactionRecord
  total : Int32
  limit : ℕ
  offset : ℕ
  deriving DecidableEq

/-- What a deployment fixes: SHA-256, and whether the service has a database. -/
structure Service where
  sha256 : List UInt8 → Vector UInt8 32
  configured : Bool := true

/-- Programs of the bank. -/
abbrev Run (α : Type) := Program signature α

/-- Issue a statement. -/
def stmt (s : Stmt) : Run (Reply s) := issue (S := signature) s

/-- Issue a statement of the transaction. -/
def sql (q : Query) : Run (Sql q.Row) := stmt (.query q)

/-- `errors.Is(err, sql.ErrNoRows)`. -/
def isNoRows {α : Type} : Sql α → Bool
  | .error .noRows => true
  | _ => false

/-! ## Transfer -/

namespace Service

variable (svc : Service)

/-- `hex.EncodeToString` of the SHA-256 of some bytes. -/
def hexHash (bytes : List UInt8) : String := hex (svc.sha256 bytes).toList

/-- The link of a transaction in the chain: the hash of the previous link, the payload hash, the
signature, the id and the time, one after the other. -/
def currentHash (previousHash payloadHash signatureText txID : String) (createdAt : Instant) :
    String :=
  svc.hexHash (utf8 (previousHash ++ payloadHash ++ signatureText ++ txID ++
    createdAt.rfc3339Nano))

/-- Appends an immutable failed-attempt record to the same hash-chain as completed transfers. It
never changes account balances. -/
def failTransfer (caller : Caller) (input : TransferInput) (fromAcc toAcc : AccountRecord)
    (auditAction auditReason : String) (publicErr : Err) : Run (Except Err String) := do
  let txID := newUUID (← stmt .random)
  let payloadHash := svc.hexHash input.canonical
  let signatureText := base64 input.signature
  let .ok lastHash ← sql .lockLedgerLastHash
    | return .error (.wrapped "lock ledger for failed transaction")
  let previousHash := if lastHash = "" then "genesis" else lastHash
  let createdAt ← stmt .now
  let currentHash := svc.currentHash previousHash payloadHash signatureText txID createdAt
  let .ok () ← sql (.insertFailedTransaction {
      id := txID, fromAccountID := fromAcc.id, toAccountID := toAcc.id,
      fromNumber := input.fromAccountNumber, toNumber := input.toAccountNumber,
      amount := input.amount, currency := input.currency, description := input.description,
      payloadHash, signature := signatureText, certSerial := caller.certSN,
      scope := caller.scope, nonce := caller.nonce, idempotencyKey := input.idempotencyKey,
      previousHash, currentHash, createdAt })
    | return .error (.wrapped "insert failed transaction")
  let .ok () ← sql (.updateLedger currentHash txID createdAt)
    | return .error (.wrapped "update ledger for failed transaction")
  let .ok () ← stmt .commit
    | return .error (.wrapped "commit failed transaction")
  stmt (.audit {
      action := auditAction, userID := caller.clientID, accountID := fromAcc.id,
      transactionID := txID, certSerial := caller.certSN, requestID := caller.requestID,
      reason := auditReason })
  return .error publicErr

/-- The part of `executeTransfer` after the business rules. -/
def moveMoney (caller : Caller) (input : TransferInput) (fromAcc toAcc : AccountRecord) :
    Run (Except Err String) := do
  let .ok lastHash ← sql .lockLedgerLastHash | return .error (.wrapped "lock ledger")
  let previousHash := if lastHash = "" then "genesis" else lastHash
  let txID := newUUID (← stmt .random)
  let createdAt ← stmt .now
  let payloadHash := svc.hexHash input.canonical
  let signatureText := base64 input.signature
  let currentHash := svc.currentHash previousHash payloadHash signatureText txID createdAt
  let .ok () ← sql (.debitAccount input.amount fromAcc.id)
    | return .error (.wrapped "debit account")
  let .ok () ← sql (.creditAccount input.amount toAcc.id)
    | return .error (.wrapped "credit account")
  let .ok () ← sql (.insertTransaction {
      id := txID, fromAccountID := fromAcc.id, toAccountID := toAcc.id,
      fromNumber := fromAcc.number, toNumber := toAcc.number,
      amount := input.amount, currency := input.currency, description := input.description,
      payloadHash, signature := signatureText, certSerial := caller.certSN,
      scope := caller.scope, nonce := caller.nonce, idempotencyKey := input.idempotencyKey,
      previousHash, currentHash, createdAt })
    | do
      stmt (.audit {
          action := "transfer_rejected", userID := caller.clientID, accountID := fromAcc.id,
          certSerial := caller.certSN, requestID := caller.requestID,
          reason := "transaction_insert_failed" })
      return .error (.wrapped "insert transaction")
  let .ok () ← sql (.updateLedger currentHash txID createdAt)
    | return .error (.wrapped "update ledger")
  let .ok () ← stmt .commit | return .error (.wrapped "commit transfer")
  stmt (.audit {
      action := "transfer_completed", userID := caller.clientID, accountID := fromAcc.id,
      transactionID := txID, certSerial := caller.certSN, requestID := caller.requestID,
      reason := "ok" })
  return .ok txID

/-- The business rules of `executeTransfer` on the locked accounts. -/
def checkTransfer (caller : Caller) (input : TransferInput) (fromAcc toAcc : AccountRecord) :
    Run (Except Err String) := do
  if fromAcc.userID ≠ caller.clientID then
    return ← svc.failTransfer caller input fromAcc toAcc "forbidden_ownership"
      "from_account_owner_mismatch" .forbidden
  if fromAcc.userStatus ≠ "active" ∨ fromAcc.status ≠ "active" ∨ toAcc.status ≠ "active" then
    return ← svc.failTransfer caller input fromAcc toAcc "transfer_rejected"
      "account_not_active" .accountNotActive
  if fromAcc.id = toAcc.id then
    -- to_account_id stays NULL, or the failed row would violate diff_accounts
    return ← svc.failTransfer caller input fromAcc {} "transfer_rejected" "same_account"
      .badRequest
  if fromAcc.currency ≠ input.currency ∨ toAcc.currency ≠ input.currency then
    return ← svc.failTransfer caller input fromAcc toAcc "transfer_rejected"
      "currency_mismatch" .badRequest
  if fromAcc.balance < input.amount then
    return ← svc.failTransfer caller input fromAcc toAcc "insufficient_funds"
      "insufficient_funds" .insufficientFunds
  let startOfDay := (← stmt .now).startOfDay
  let .ok spentToday ← sql (.sumCompletedTransfersSince fromAcc.id startOfDay (← stmt .now).ns)
    | return .error (.wrapped "query daily transfer total")
  if fromAcc.limit < spentToday + input.amount then
    return ← svc.failTransfer caller input fromAcc toAcc "transfer_rejected"
      "daily_limit_exceeded" .dailyLimitExceeded
  svc.moveMoney caller input fromAcc toAcc

/-- The body of `executeTransfer`, which runs between `BeginTx` and the deferred rollback. -/
def transferTx (caller : Caller) (input : TransferInput) : Run (Except Err String) := do
  let fromReply ← sql (.loadAccountForUpdateByNumber input.fromAccountNumber)
  if isNoRows fromReply then
    return ← svc.failTransfer caller input {} {} "transfer_rejected" "from_account_not_found"
      .accountNotFound
  let .ok fromAcc := fromReply | return .error (.wrapped "query from account")
  let toReply ← sql (.loadAccountForUpdateByNumber input.toAccountNumber)
  if isNoRows toReply then
    return ← svc.failTransfer caller input fromAcc {} "transfer_rejected"
      "to_account_not_found" .accountNotFound
  let .ok toAcc := toReply | return .error (.wrapped "query to account")
  svc.checkTransfer caller input fromAcc toAcc

/-- `executeTransfer`. -/
def executeTransfer (caller : Caller) (input : TransferInput) : Run (Except Err String) := do
  let .ok () ← stmt (.beginTx .serializable) | return .error (.wrapped "begin transfer")
  (svc.transferTx caller input).deferred (stmt .rollback)

/-- `findIdempotentTransaction`: the id of the completed transaction of a key, the empty string
when there is none, an error when there is one that is not completed. -/
def findIdempotentTransaction (key : String) : Run (Except String String) := do
  if key = "" then return .ok ""
  let reply ← stmt (.findTransactionByIdempotencyKey key)
  if isNoRows reply then return .ok ""
  let .ok (txID, txStatus) := reply | return .error "query failed"
  if txStatus = "completed" then return .ok txID
  return .error ("previous transaction status=" ++ txStatus)

/-- `Transfer` applies an idempotent money transfer and returns the transaction id. If the
idempotency key already maps to a completed transaction, that id is returned without
re-executing. -/
def transfer (caller : Caller) (input : TransferInput) : Run (Except Err String) := do
  match ← findIdempotentTransaction input.idempotencyKey with
  | .error reason =>
    stmt (.audit {
        action := "transfer_rejected", userID := caller.clientID, certSerial := caller.certSN,
        requestID := caller.requestID, reason })
    return .error .idempotency
  | .ok txID =>
    if txID ≠ "" then return .ok txID
    svc.executeTransfer caller input

/-! ## GetBalance and GetHistory -/

/-- `GetBalance` returns profile and balance: of the caller's default account when the account id
is blank, and of the account with this id if the caller owns it. -/
def getBalance (caller : Caller) (accountID : String) : Run (Except Err BalanceResult) := do
  let reply : Sql AccountProfile ←
    if trimSpace accountID = "" then
      stmt (.lookup (.getDefaultAccountProfileByUser caller.clientID))
    else stmt (.lookup (.getAccountProfileByID accountID))
  if isNoRows reply then return .error .accountNotFound
  let .ok p := reply | return .error (.wrapped "query balance")
  if p.ownerID ≠ caller.clientID then
    stmt (.audit {
        action := "forbidden_ownership", userID := caller.clientID, accountID := p.accountID,
        certSerial := caller.certSN, requestID := caller.requestID,
        reason := "balance_account_owner_mismatch" })
    return .error .forbidden
  let startOfDay := (← stmt .now).startOfDay
  let sum : Sql Int64 ← stmt (.lookup (.sumCompletedTransfersSince p.accountID startOfDay
    (← stmt .now).ns))
  return .ok
    { accountID := p.accountID, accountNumber := p.accountNumber, balance := p.balance,
      currency := p.currency, status := p.accountStatus, fullName := p.fullName,
      email := p.email, limit := p.limit, userStatus := p.userStatus,
      -- an error of the sum does not spoil the profile
      dailyTransferUsed := match sum with | .ok spentToday => spentToday | .error _ => 0 }

/-- `GetHistory`: one page of the transactions of an account that the caller owns. -/
def getHistory (caller : Caller) (accountID : String) (limit offset : Int32) :
    Run (Except Err HistoryResult) := do
  let reply : Sql String ← stmt (.lookup (.getAccountOwner accountID))
  if isNoRows reply then return .error .accountNotFound
  let .ok ownerID := reply | return .error (.wrapped "query account owner")
  if ownerID ≠ caller.clientID then
    stmt (.audit {
        action := "forbidden_ownership", userID := caller.clientID, accountID,
        certSerial := caller.certSN, requestID := caller.requestID,
        reason := "history_account_owner_mismatch" })
    return .error .forbidden
  let limit := if limit ≤ 0 ∨ 100 < limit then 20 else limit.toInt.toNat
  let offset := offset.toInt.toNat
  let total : Sql Int32 ← stmt (.lookup (.countHistory accountID))
  let .ok total := total | return .error (.wrapped "count history")
  let records : Sql (List TransactionRecord) ←
    stmt (.lookup (.listHistory accountID limit offset))
  let .ok records := records | return .error (.wrapped "query history")
  return .ok { records, total, limit, offset }

/-! ## CreateUser -/

/-- `accountNumberFromUser`: ten digits from the first six bytes of the hash of the user id. Six
bytes are never negative as an `int64`. -/
def accountNumberFromUser (userID : String) : String :=
  let sum := svc.sha256 (utf8 userID)
  let n := sum[0].toNat * 2 ^ 40 + sum[1].toNat * 2 ^ 32 + sum[2].toNat * 2 ^ 24 +
    sum[3].toNat * 2 ^ 16 + sum[4].toNat * 2 ^ 8 + sum[5].toNat
  "10" ++ padded 10 (n % 10000000000)

/-- The body of `CreateUser`, which runs between `BeginTx` and the deferred rollback. -/
def createUserTx (userID email fullName : String) : Run (Except Err CreateUserResult) := do
  let now ← stmt .now
  let .ok () ← sql (.insertUser userID email fullName now) | return .error .userExists
  let accountID := newUUID (← stmt .random)
  let accountNumber := svc.accountNumberFromUser userID
  let .ok () ← sql (.insertDefaultAccount accountID userID accountNumber now)
    | return .error (.wrapped "create default account")
  let .ok () ← stmt .commit | return .error (.wrapped "commit create user")
  return .ok { userID, status := "active", createdAt := now }

/-- `CreateUser` creates a user together with a default account, in a single transaction. -/
def createUser (input : CreateUserInput) : Run (Except Err CreateUserResult) := do
  if !svc.configured then return .error .notConfigured
  let userID := trimSpace input.userID
  let email := trimSpace input.subjectEmail
  let fullName := trimSpace input.fullName
  if userID = "" ∨ email = "" ∨ fullName = "" then return .error .invalidInput
  let .ok () ← stmt (.beginTx .readCommitted)
    | return .error (.wrapped "begin create user transaction")
  (svc.createUserTx userID email fullName).deferred (stmt .rollback)

end Service

/-! ## Calls -/

/-- A call of the service. -/
inductive Request where
  | transfer (caller : Caller) (input : TransferInput)
  | createUser (input : CreateUserInput)
  deriving DecidableEq

/-- What a call returns. -/
inductive Result where
  | transfer (result : Except Err String)
  | createUser (result : Except Err CreateUserResult)

/-- The program of a call. -/
def Service.program (svc : Service) : Request → Run Result
  | .transfer caller input => return .transfer (← svc.transfer caller input)
  | .createUser input => return .createUser (← svc.createUser input)

/-- The transaction id a call returned. -/
def Result.txID : Result → Option String
  | .transfer (.ok txID) => some txID
  | _ => none

/-- Interleaved calls of the service. -/
abbrev serviceMachine (svc : Service) (rounding : Rounding) : Machine :=
  machine rounding svc.program

/-! ## A sample deployment -/

/-- The first reading of the sample clock. -/
def sampleClock : Instant := ⟨1700000000000000000, by decide⟩

/-- A deployment with a hash that is easy to compute. -/
def sampleService : Service where
  sha256 bytes :=
    let h := bytes.foldl (fun h b => (31 * h + b.toNat) % 2 ^ 61) 7
    Vector.ofFn fun i => UInt8.ofNat (h / 2 ^ (8 * (i.val % 8)))

/-- The start of the sample deployment. -/
def sampleStart : State (serviceMachine sampleService .cut) := ⟨Env.initial sampleClock, ∅⟩

/-- A user id of the sample deployment. -/
def sampleUser (n : ℕ) : String := Uuid.text (Vector.replicate 16 (UInt8.ofNat n))

/-- A user of the sample deployment is created. -/
def sampleCreate (n : ℕ) : Request := .createUser ⟨sampleUser n, padded 2 n, "User"⟩

/-- The user `n` of the sample deployment sends an amount to the user `m` under a key. -/
def samplePay (n m : ℕ) (amount : Int64) (nonce key : String) : Request :=
  .transfer ⟨sampleUser n, padded 2 n, "transfer:create", nonce, nonce⟩
    ⟨sampleService.accountNumberFromUser (sampleUser n),
      sampleService.accountNumberFromUser (sampleUser m), amount, "VND", "", key, utf8 key, [1]⟩

/-- The labels of a call and of its first `n` statements, none of which fails. -/
def sampleCall (i : ℕ) (q : Request) (n : ℕ) : List (Act (serviceMachine sampleService .cut)) :=
  .spawn i q :: List.replicate n
    (.run i { random := Vector.replicate 16 (UInt8.ofNat (100 + i)) : Choice })

/-- Two users are created and one pays the other. -/
def samplePaid : List (Act (serviceMachine sampleService .cut)) :=
  sampleCall 0 (sampleCreate 1) 7 ++ sampleCall 1 (sampleCreate 2) 7 ++
    sampleCall 2 (samplePay 1 2 250 "n1" "k") 17

theorem samplePaid_runs : ∃ s, Steps sampleStart samplePaid s ∧
    (s.env.db.accounts.map (·.balance), s.env.db.transactions.map (·.amount),
      decide (s.request 2 = some (samplePay 1 2 250 "n1" "k")),
      (s.result 2).bind Result.txID) =
    ([49999750, 50000250], [250], true, some "66666666-6666-4666-a666-666666666666") :=
  steps_of_view (by decide +kernel)

end Bank
