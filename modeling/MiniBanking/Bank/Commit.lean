import MiniBanking.Bank.Service

/-!
# What the bank commits

The abstract bank: its database changes in three ways. A user is added together with an account,
a failed transfer is recorded, or a transfer moves money and is recorded. Each of them is stated
on the database it happens in, with no word about locks, snapshots or other calls.

## Main definitions

* `Linked`: a new row of the transaction chain
* `Movement`, `Movement.Valid`: a transfer that moves money
* `Commit`: one change of the database
* `Db.Extends`: what later databases keep of earlier ones
* `Db.Wf`: the database is well formed

## Main results

* `Commit.extends`: a commit adds to the database
* `Commit.wf`: a commit keeps the database well formed
-/

namespace Bank

open Go Postgres

variable (svc : Service) (rounding : Rounding)

/-! ## Commits -/

/-- The hash the next transaction is linked to. -/
def Db.head (db : Db) : String :=
  if db.ledger.lastHash = "" then "genesis" else db.ledger.lastHash

/-- The row can be added to the database as its next link. -/
structure Linked (db : Db) (row : Transaction) : Prop where
  admitted : db.Admits row
  previous : row.previousHash = db.head
  current : row.currentHash = svc.currentHash row.previousHash row.payloadHash
    row.clientSignature row.id.text row.sentAt
  created : row.createdAt = rounding.toMicros row.sentAt.ns

/-- The database with a row added and the ledger moved to it. -/
def Db.append (db : Db) (row : Transaction) : Db :=
  { db with
    transactions := db.transactions ++ [row]
    ledger := ⟨row.currentHash, some row.id, db.ledger.version + 1⟩ }

/-- A transfer that moves money: the two accounts as they are before it, their new balances, the
row that records it, and the clock readings and the sum of its limit check. -/
structure Movement where
  source : Account
  target : Account
  debited : Int64
  credited : Int64
  debited_check : 0 ≤ debited
  credited_check : 0 ≤ credited
  row : Transaction
  dayRead : Instant
  sumRead : Instant
  spentToday : Int64

/-- The database after a movement. -/
def Movement.apply (m : Movement) (db : Db) : Db :=
  ({ db with
    accounts := withBalance (withBalance db.accounts m.source.id m.debited m.debited_check)
      m.target.id m.credited m.credited_check } : Db).append m.row

/-- The completed transactions that name an account. -/
def Db.movementsOf (db : Db) (id : Uuid) : List Transaction :=
  db.transactions.filter fun t =>
    t.status = .completed ∧ (t.fromAccountId = some id ∨ t.toAccountId = some id)

/-- The movement may happen in the database. -/
structure Movement.Valid (db : Db) (m : Movement) : Prop where
  source_mem : db.account m.source.id = some m.source
  target_mem : db.account m.target.id = some m.target
  distinct : m.source.id ≠ m.target.id
  debit : m.debited.toInt = m.source.balance.toInt - m.row.amount.toInt
  credit : m.credited.toInt = m.target.balance.toInt + m.row.amount.toInt
  row_source : m.row.fromAccountId = some m.source.id
  row_target : m.row.toAccountId = some m.target.id
  status : m.row.status = .completed
  linked : Linked svc rounding db m.row
  spent : m.spentToday.toInt = db.spent m.source.id (rounding.toMicros m.dayRead.startOfDay)
    (rounding.toMicros m.sumRead.ns)
  limit : ¬ m.source.dailyTransferLimit < m.spentToday + m.row.amount
  read_order : m.dayRead ≤ m.sumRead
  sent_order : m.sumRead ≤ m.row.sentAt
  /-- The transfers the account already made were made before the limit check. -/
  settled : ∀ t ∈ db.movementsOf m.source.id, t.sentAt ≤ m.dayRead

/-- A new account of a new user. -/
structure Opened (db : Db) (u : User) (a : Account) : Prop where
  id_new : db.account a.id = none
  number_new : ∀ a' ∈ db.accounts, a'.accountNumber ≠ a.accountNumber
  number : ∃ userID, varcharIn 30 (svc.accountNumberFromUser userID) = some a.accountNumber
  owner : a.userId = u.id
  balance : a.balance = 50000000
  limit : a.dailyTransferLimit = 50000000
  currency : a.currency = "VND"
  version : a.version = 0

/-- One change of the database, at a time. -/
inductive Commit (now : Instant) (db : Db) : Db → Prop where
  | opened (u : User) (a : Account) (h : Opened svc db u a) :
      Commit now db { db with users := db.users ++ [u], accounts := db.accounts ++ [a] }
  | failed (row : Transaction) (status : row.status = .failed)
      (linked : Linked svc rounding db row) (sent : row.sentAt ≤ now) :
      Commit now db (db.append row)
  | moved (m : Movement) (h : m.Valid svc rounding db) (sent : m.row.sentAt ≤ now) :
      Commit now db (m.apply db)

/-! ## What later databases keep -/

/-- The parts of an account that no transfer changes. -/
def Account.static (a : Account) : Uuid × Uuid × String × Int64 × String :=
  (a.id, a.userId, a.accountNumber, a.dailyTransferLimit, a.currency)

/-- Rows are only added, and of an account only balance and version change. -/
structure Db.Extends (db db' : Db) : Prop where
  users : db.users <+: db'.users
  accounts : db.accounts.map Account.static <+: db'.accounts.map Account.static
  transactions : db.transactions <+: db'.transactions

theorem Db.Extends.refl (db : Db) : db.Extends db :=
  ⟨List.prefix_rfl, List.prefix_rfl, List.prefix_rfl⟩

/-- An account stays, with what is static about it. -/
theorem Db.Extends.account {db db' : Db} (h : db.Extends db') {a : Account}
    (ha : a ∈ db.accounts) : ∃ a' ∈ db'.accounts, a'.static = a.static :=
  List.mem_map.mp (h.accounts.subset (List.mem_map_of_mem ha))

theorem Db.Extends.trans {a b c : Db} (h : a.Extends b) (h' : b.Extends c) : a.Extends c :=
  ⟨h.users.trans h'.users, h.accounts.trans h'.accounts, h.transactions.trans h'.transactions⟩

section Accounts

variable (accounts : List Account) (id : Uuid) (balance : Int64) (check : 0 ≤ balance)

/-- A new balance keeps what is static. -/
theorem map_withBalance {β : Type} (f : Account → β)
    (h : ∀ a : Account, f (a.setBalance balance check) = f a) :
    (withBalance accounts id balance check).map f = accounts.map f := by
  rw [withBalance, List.map_map]
  refine List.map_congr_left fun a _ => ?_
  rw [Function.comp_apply]
  split
  · exact h a
  · rfl

theorem mem_withBalance {a' : Account} :
    a' ∈ withBalance accounts id balance check ↔
      ∃ a ∈ accounts, (if a.id = id then a.setBalance balance check else a) = a' := by
  rw [withBalance, List.mem_map]

theorem ids_setBalance (db : Db) :
    (db.apply (.setBalance id balance check)).accounts.map (·.id) = db.accounts.map (·.id) :=
  map_withBalance _ _ _ _ _ fun _ => rfl

end Accounts

variable {svc rounding}

theorem Movement.static_apply (m : Movement) (db : Db) :
    (m.apply db).accounts.map Account.static = db.accounts.map Account.static := by
  simp only [Movement.apply, Db.append]
  rw [map_withBalance, map_withBalance] <;> exact fun _ => rfl

theorem Db.Extends.movement (m : Movement) (db : Db) : db.Extends (m.apply db) :=
  ⟨List.prefix_rfl, m.static_apply db ▸ List.prefix_rfl, List.prefix_append _ _⟩

/-- A commit adds to the database. -/
theorem Commit.extends {now : Instant} {db db' : Db} (h : Commit svc rounding now db db') :
    db.Extends db' := by
  cases h with
  | opened u a h =>
    exact ⟨List.prefix_append _ _, by simp [List.prefix_append], List.prefix_rfl⟩
  | failed row => exact ⟨List.prefix_rfl, List.prefix_rfl, List.prefix_append _ _⟩
  | moved m => exact .movement m db

/-! ## Well-formed databases -/

/-- The unique columns are unique, transactions name accounts that exist, the version of an
account counts the transfers that changed it, and its texts and the ledger's hash fit their
columns. -/
structure Db.Wf (db : Db) : Prop where
  account_ids : (db.accounts.map (·.id)).Nodup
  account_numbers : (db.accounts.map (·.accountNumber)).Nodup
  transaction_ids : (db.transactions.map (·.id)).Nodup
  nonces : (db.transactions.map (·.nonce)).Nodup
  idempotency_keys : (db.transactions.map (·.idempotencyKey)).Nodup
  named : ∀ t ∈ db.transactions, ∀ id,
    t.fromAccountId = some id ∨ t.toAccountId = some id → db.account id ≠ none
  versions : ∀ a ∈ db.accounts, a.version = (db.movementsOf a.id).length
  fits : ∀ a ∈ db.accounts, a.accountNumber.toList.length ≤ 30 ∧ a.currency.toList.length ≤ 3
  last_hash : db.ledger.lastHash.toList.length ≤ 64

theorem Db.Wf.empty : Db.empty.Wf := by
  constructor <;> simp [Db.empty]

theorem Db.account_eq_none_iff {db : Db} {id : Uuid} :
    db.account id = none ↔ ∀ a ∈ db.accounts, a.id ≠ id := by
  simp [Db.account, List.find?_eq_none]

theorem Db.mem_of_account {db : Db} {id : Uuid} {a : Account} (h : db.account id = some a) :
    a ∈ db.accounts ∧ a.id = id :=
  ⟨List.mem_of_find?_eq_some h, by simpa using List.find?_some h⟩

/-- An account is found by its id. -/
theorem Db.Wf.account_of_mem {db : Db} (h : db.Wf) {a : Account} (ha : a ∈ db.accounts) :
    db.account a.id = some a := by
  cases hb : db.account a.id with
  | none => exact absurd rfl (Db.account_eq_none_iff.mp hb a ha)
  | some b =>
    obtain ⟨hmem, hid⟩ := Db.mem_of_account hb
    rw [List.inj_on_of_nodup_map h.account_ids hmem ha hid]

theorem Db.account_ne_none_iff {db : Db} {id : Uuid} :
    db.account id ≠ none ↔ id ∈ db.accounts.map (·.id) := by
  rw [Ne, Db.account_eq_none_iff]
  simp

@[simp] theorem Movement.apply_transactions (m : Movement) (db : Db) :
    (m.apply db).transactions = db.transactions ++ [m.row] := rfl

@[simp] theorem Db.append_transactions (db : Db) (row : Transaction) :
    (db.append row).transactions = db.transactions ++ [row] := rfl

@[simp] theorem Db.append_accounts (db : Db) (row : Transaction) :
    (db.append row).accounts = db.accounts := rfl

@[simp] theorem Movement.ids_apply (m : Movement) (db : Db) :
    (m.apply db).accounts.map (·.id) = db.accounts.map (·.id) := by
  simp only [Movement.apply, Db.append_accounts]
  rw [map_withBalance, map_withBalance] <;> exact fun _ => rfl

@[simp] theorem Movement.numbers_apply (m : Movement) (db : Db) :
    (m.apply db).accounts.map (·.accountNumber) = db.accounts.map (·.accountNumber) := by
  simp only [Movement.apply, Db.append_accounts]
  rw [map_withBalance, map_withBalance] <;> exact fun _ => rfl

/-- A hash is sixty-four digits. -/
@[simp] theorem Service.length_hexHash (bytes : List UInt8) :
    (svc.hexHash bytes).toList.length = 64 := by
  rw [hexHash, hex_length, Vector.length_toList]

theorem Linked.length_current {db : Db} {row : Transaction} (h : Linked svc rounding db row) :
    row.currentHash.toList.length = 64 := by
  rw [h.current, Service.currentHash, Service.length_hexHash]

theorem Db.Wf.length_head {db : Db} (h : db.Wf) : db.head.toList.length ≤ 64 := by
  unfold Db.head
  split
  · decide
  · exact h.last_hash

/-- New balances do not matter to what can be added. -/
theorem Db.Admits.congr {db db' : Db} {row : Transaction} (h : db.Admits row)
    (htransactions : db'.transactions = db.transactions)
    (hids : db'.accounts.map (·.id) = db.accounts.map (·.id)) : db'.Admits row := by
  have hnone : ∀ id, db'.account id ≠ none ↔ db.account id ≠ none := fun id => by
    rw [Db.account_ne_none_iff, Db.account_ne_none_iff, hids]
  exact ⟨fun id hid => (hnone id).mpr (h.1 id hid), fun id hid => (hnone id).mpr (h.2.1 id hid),
    htransactions ▸ h.2.2⟩

/-- The row that stores a transaction is the next link of the chain. -/
theorem Linked.of_row {db : Db} {status : TransactionStatus} {fromId toId : Option Uuid}
    {t : TransactionRow} {row : Transaction} {b : Uuid}
    (hrow : Transaction.of rounding status fromId toId t = some row) (hadm : db.Admits row)
    (hwf : db.Wf) (hid : t.id = newUUID b) (hprevious : t.previousHash = db.head)
    (hpayload : t.payloadHash.toList.length ≤ 64)
    (hcurrent : t.currentHash =
      svc.currentHash t.previousHash t.payloadHash t.signature t.id t.createdAt) :
    Linked svc rounding db row ∧ row.id.text = t.id ∧ row.currentHash = t.currentHash ∧
      row.sentAt = t.createdAt := by
  obtain ⟨hrowId, -, -, -, -, -, -, -, hph, hsig, -, -, hprev, hcur, hcreated, hsent⟩ :=
    Transaction.of_eq hrow
  rw [hid] at hrowId
  have htext := text_of_newUUID hrowId
  have hprev' := varcharIn_eq hprev (hprevious ▸ hwf.length_head)
  have hcur' := varcharIn_eq hcur (by rw [hcurrent, Service.currentHash, Service.length_hexHash])
  refine ⟨⟨hadm, hprev'.trans hprevious, ?_, hsent ▸ hcreated⟩, htext.trans hid.symm, hcur', hsent⟩
  rw [hcur', hcurrent, hprev', varcharIn_eq hph hpayload, textIn_eq hsig, htext, hid, hsent]

/-- The unique columns of `transactions` stay unique. -/
theorem Db.Admits.nodup {β : Type} (f : Transaction → β) {db : Db} {row : Transaction}
    (h : (db.transactions.map f).Nodup) (hne : ∀ t ∈ db.transactions, f t ≠ f row) :
    ((db.transactions ++ [row]).map f).Nodup := by
  rw [List.map_append, List.nodup_append]
  refine ⟨h, List.nodup_singleton _, ?_⟩
  intro x hx y hy
  obtain ⟨t, ht, rfl⟩ := List.mem_map.mp hx
  obtain rfl : y = f row := by simpa using hy
  exact hne t ht

/-- What a database with one more transaction needs to be well formed. -/
theorem Db.Wf.add {db db' : Db} {row : Transaction} (h : db.Wf)
    (hlink : Linked svc rounding db row)
    (htransactions : db'.transactions = db.transactions ++ [row])
    (hids : db'.accounts.map (·.id) = db.accounts.map (·.id))
    (hnumbers : db'.accounts.map (·.accountNumber) = db.accounts.map (·.accountNumber))
    (hhash : db'.ledger.lastHash = row.currentHash)
    (hfits : ∀ a ∈ db'.accounts,
      a.accountNumber.toList.length ≤ 30 ∧ a.currency.toList.length ≤ 3)
    (hversions : ∀ a ∈ db'.accounts, a.version = (db'.movementsOf a.id).length) : db'.Wf where
  account_ids := hids ▸ h.account_ids
  account_numbers := hnumbers ▸ h.account_numbers
  transaction_ids := htransactions ▸ Db.Admits.nodup (·.id) h.transaction_ids
    fun t ht => (hlink.admitted.2.2 t ht).1
  nonces := htransactions ▸ Db.Admits.nodup (·.nonce) h.nonces
    fun t ht => (hlink.admitted.2.2 t ht).2.1
  idempotency_keys := htransactions ▸ Db.Admits.nodup (·.idempotencyKey) h.idempotency_keys
    fun t ht => (hlink.admitted.2.2 t ht).2.2
  named t ht id hid := by
    rw [Db.account_ne_none_iff, hids, ← Db.account_ne_none_iff]
    rw [htransactions, List.mem_append, List.mem_singleton] at ht
    obtain ht | rfl := ht
    · exact h.named t ht id hid
    · rcases hid with hid | hid
      · exact hlink.admitted.1 id hid
      · exact hlink.admitted.2.1 id hid
  versions := hversions
  fits := hfits
  last_hash := by rw [hhash, hlink.length_current]

theorem Db.movementsOf_append {db db' : Db} {row : Transaction} (id : Uuid)
    (h : db'.transactions = db.transactions ++ [row]) :
    db'.movementsOf id = db.movementsOf id ++
      if row.status = .completed ∧ (row.fromAccountId = some id ∨ row.toAccountId = some id)
      then [row] else [] := by
  unfold Db.movementsOf
  rw [h, List.filter_append]
  congr 1
  rw [List.filter_singleton]
  simp

/-- A movement gives each of its two accounts a new version, and no other one. -/
theorem Movement.Valid.versions {db : Db} {m : Movement} (h : m.Valid svc rounding db)
    (hwf : db.Wf) {a' : Account} (ha' : a' ∈ (m.apply db).accounts) :
    a'.version = ((m.apply db).movementsOf a'.id).length := by
  simp only [Movement.apply, Db.append_accounts, mem_withBalance] at ha'
  obtain ⟨_, ⟨a, ha, rfl⟩, rfl⟩ := ha'
  have hversion := hwf.versions a ha
  have hdistinct := h.distinct
  rw [Db.movementsOf_append _ (m.apply_transactions db)]
  by_cases hs : a.id = m.source.id
  · have ht : a.id ≠ m.target.id := fun ht => hdistinct (hs.symm.trans ht)
    simpa [hs, h.row_source, h.status, Account.setBalance, hdistinct] using hs ▸ hversion
  · by_cases ht : a.id = m.target.id
    · simpa [ht, h.row_target, h.status, Account.setBalance, hdistinct.symm] using
        ht ▸ hversion
    · simp [hs, ht, ← hversion, h.row_source, h.row_target, Ne.symm hs, Ne.symm ht]

/-- A commit keeps the database well formed. -/
theorem Commit.wf {now : Instant} {db db' : Db} (h : Commit svc rounding now db db')
    (hwf : db.Wf) : db'.Wf := by
  cases h with
  | opened u a h =>
    have hnot : ∀ t ∈ db.transactions,
        ¬ (t.fromAccountId = some a.id ∨ t.toAccountId = some a.id) :=
      fun t ht hname => hwf.named t ht a.id hname h.id_new
    refine { hwf with
      account_ids := ?_, account_numbers := ?_, named := ?_, versions := ?_, fits := ?_ }
    · rw [List.map_append, List.nodup_append]
      refine ⟨hwf.account_ids, List.nodup_singleton _, ?_⟩
      rintro x hx y hy rfl
      obtain rfl : x = a.id := by simpa using hy
      exact (Db.account_ne_none_iff.mpr hx) h.id_new
    · rw [List.map_append, List.nodup_append]
      refine ⟨hwf.account_numbers, List.nodup_singleton _, ?_⟩
      rintro x hx y hy rfl
      obtain rfl : x = a.accountNumber := by simpa using hy
      obtain ⟨a', ha', hnumber⟩ := List.mem_map.mp hx
      exact h.number_new a' ha' hnumber
    · intro t ht id hid
      have := Db.account_ne_none_iff.mp (hwf.named t ht id hid)
      rw [Db.account_ne_none_iff, List.map_append]
      exact List.mem_append_left _ this
    · intro a' ha'
      rcases List.mem_append.mp ha' with ha' | ha'
      · exact hwf.versions a' ha'
      · obtain rfl : a' = a := by simpa using ha'
        rw [h.version]
        symm
        rw [List.length_eq_zero_iff]
        exact List.filter_eq_nil_iff.mpr fun t ht hname => hnot t ht (by simpa using
          (decide_eq_true_iff.mp hname).2)
    · intro a' ha'
      rcases List.mem_append.mp ha' with ha' | ha'
      · exact hwf.fits a' ha'
      · obtain rfl : a' = a := by simpa using ha'
        obtain ⟨userID, hnumber⟩ := h.number
        exact ⟨length_of_varcharIn hnumber, h.currency ▸ by decide⟩
  | failed row status linked =>
    refine hwf.add linked rfl rfl rfl rfl hwf.fits fun a ha => ?_
    rw [Db.movementsOf_append _ (db.append_transactions row), if_neg (by simp [status]),
      List.append_nil]
    exact hwf.versions a ha
  | moved m h =>
    refine hwf.add h.linked rfl (m.ids_apply db) (m.numbers_apply db) rfl ?_
      fun a ha => h.versions hwf ha
    intro a' ha'
    simp only [Movement.apply, Db.append_accounts, mem_withBalance] at ha'
    obtain ⟨_, ⟨a, ha, rfl⟩, rfl⟩ := ha'
    have := hwf.fits a ha
    split <;> split <;> exact this

end Bank
