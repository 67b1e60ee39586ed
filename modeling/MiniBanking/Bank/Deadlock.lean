import MiniBanking.Bank.Service
import MiniBanking.Concurrency.Trace
import MiniBanking.Concurrency.WaitsFor

/-!
# Transfers that wait for each other

A statement locks its rows one after the other, and waits at a row that another transaction holds
while it keeps those it has locked before. A transfer locks the account it names first with its
owner, then the other account with its owner, then the ledger, and holds them to its end.

## Main definitions

* `rowwise`: a program of the bank that locks one row at a time
* `rowMachine`: concurrent transfers whose statements lock row by row
* `wants`, `holds`: the row that a call needs next, and the rows it has locked
* `transferRows`: the rows of accounts and users that a transfer locks, in its order

## Main results

* `waits_of_blocked`: a call that cannot proceed waits for another one
* `waits_acyclic`: transfers that name their accounts in one order never wait in a circle
-/

namespace Bank

open Concurrency Go Postgres

/-! ## Locking row by row -/

/-- The statements of the bank, where a statement of a transaction locks its rows before. -/
inductive RowStmt where
  | stmt (s : Stmt)
  /-- A statement of a transaction locks its row number `n`. -/
  | grab (q : Query) (n : ℕ)

/-- The replies to the statements. -/
abbrev RowStmt.Reply : RowStmt → Type
  | .stmt s => Bank.Reply s
  | .grab _ _ => Sql Unit

/-- The statements with their replies. -/
abbrev rowSignature : Signature := ⟨RowStmt, RowStmt.Reply⟩

/-- The locks of a statement, one at a time. -/
def Query.grabs (q : Query) : (rows n : ℕ) → Program rowSignature Unit
  | 0, _ => return ()
  | rows + 1, n => do
    let _ ← issue (S := rowSignature) (.grab q n)
    q.grabs rows (n + 1)

/-- What comes before a statement. None needs more than three rows or values. -/
def Stmt.grabs : Stmt → Program rowSignature Unit
  | .query q => q.grabs 3 0
  | _ => return ()

/-- A program whose statements lock row by row. -/
def rowwise {α : Type} : Run α → Program rowSignature α
  | .ret a => .ret a
  | .call s k => do
    s.grabs
    let r ← issue (S := rowSignature) (.stmt s)
    rowwise (k r)

/-- What a statement does when it locks its row number `n`. -/
def Query.grab (rounding : Rounding) (n : ℕ) (q : Query) (view : Db) : Option (SqlEffect Unit) :=
  (q.plan rounding view).map fun f => .lock f.locks[n]?.toList (.ok ())

/-- The meaning of the statements. -/
def rowExec (rounding : Rounding) (others : List Conn) :
    (s : RowStmt) → Choice → Env → Conn → Option (s.Reply × Env × Conn)
  | .stmt s, c, e, l => exec rounding others s c e l
  | .grab q n, c, e, l => inTx others c e (q.grab rounding n) l

/-- The world of programs that lock row by row. -/
abbrev rowWorld (rounding : Rounding) : World where
  S := rowSignature
  Env := Env
  Loc := Conn
  Choice := Choice
  exec := rowExec rounding

/-- Concurrent calls of `executeTransfer`. -/
abbrev rowMachine (svc : Service) (rounding : Rounding) : Machine where
  toWorld := rowWorld rounding
  Tick := Instant
  Request := Caller × TransferInput
  Result := Except Err String
  program q := rowwise (svc.executeTransfer q.1 q.2)
  start := .fresh
  tick t (e : Env) := if e.clock ≤ t then some { e with clock := t } else none

/-! ## Waiting -/

/-- The first of the rows of a statement that the transaction does not hold. -/
def Conn.wants {α : Type} (e : Env) (plan : Db → Option (SqlEffect α)) : Conn → Option Key
  | .active tx =>
    if tx.aborted then none
    else (plan (tx.view e.db)).bind fun f => f.locks.find? fun k => decide (k ∉ tx.held)
  | _ => none

/-- The row that a statement needs. -/
def RowStmt.wants (rounding : Rounding) (e : Env) (l : Conn) : RowStmt → Option Key
  | .stmt (.query q) => l.wants e (q.plan rounding)
  | .stmt _ => none
  | .grab q n => l.wants e (q.grab rounding n)

/-- The rows and values that a transaction has locked. -/
def Conn.held : Conn → List Key
  | .active tx => tx.held
  | _ => []

section Waiting

variable {svc : Service} {rounding : Rounding}

/-- The row that a call needs for its next statement. -/
def wants (s : State (rowMachine svc rounding)) (i : ℕ) : Option Key :=
  (s.call i).bind fun c => c.rest.head.bind fun st => st.wants rounding s.env c.loc

/-- A call holds a row. -/
def holds (s : State (rowMachine svc rounding)) (i : ℕ) (k : Key) : Prop :=
  ∃ c, s.call i = some c ∧ k ∈ c.loc.held

/-- A call waits for another one that holds the row it needs. -/
abbrev Waits (s : State (rowMachine svc rounding)) : ℕ → ℕ → Prop := WaitsFor (wants s) (holds s)

end Waiting

/-! ## The rows of a transfer -/

/-- The rows that `LoadAccountForUpdateByNumber` locks. -/
def Db.rowsOf (db : Db) (number : String) : List Key :=
  ((loadAccountForUpdateByNumber number db).map (·.locks)).getD []

/-- The rows of accounts and users that a transfer locks, in its order. -/
def transferRows (db : Db) (input : TransferInput) : List Key :=
  if db.rowsOf input.fromAccountNumber = [] then []
  else db.rowsOf input.fromAccountNumber ++ db.rowsOf input.toAccountNumber

/-! ## What transfers leave as it is -/

/-- The users, and the accounts with their owners and numbers, are the same. -/
structure Db.Same (db db' : Db) : Prop where
  users : db'.users = db.users
  accounts : db'.accounts.map (fun a => (a.id, a.userId, a.accountNumber)) =
    db.accounts.map fun a => (a.id, a.userId, a.accountNumber)

/-- A write that adds no user and no account. -/
def Write.Plain : Write → Prop
  | .insertUser _ => False
  | .insertAccount _ => False
  | _ => True

theorem Db.Same.refl (db : Db) : db.Same db := ⟨rfl, rfl⟩

theorem Db.Same.apply {db db' : Db} (h : db.Same db') {w : Write} (hw : w.Plain) :
    db.Same (db'.apply w) := by
  cases w with
  | insertUser | insertAccount => exact hw.elim
  | insertTransaction | setLedger => exact ⟨h.users, h.accounts⟩
  | setBalance id balance check =>
    refine ⟨h.users, Eq.trans ?_ h.accounts⟩
    rw [Db.apply, withBalance, List.map_map]
    refine List.map_congr_left fun a _ => ?_
    rw [Function.comp_apply]
    split <;> rfl

theorem Db.Same.applyAll {db db' : Db} (h : db.Same db') {ws : List Write}
    (hws : ∀ w ∈ ws, w.Plain) : db.Same (schema.applyAll db' ws) := by
  induction ws generalizing db' with
  | nil => exact h
  | cons w ws ih =>
    exact ih (h.apply (hws w List.mem_cons_self)) fun v hv => hws v (List.mem_cons_of_mem _ hv)

/-- The account with a number has the same id and the same owner. -/
theorem Db.Same.find {db db' : Db} (h : db.Same db') (number : String) :
    (db'.accounts.find? (·.accountNumber = number)).map (fun a => (a.id, a.userId)) =
      (db.accounts.find? (·.accountNumber = number)).map fun a => (a.id, a.userId) := by
  have hfind : ∀ accounts : List Account,
      (accounts.find? (·.accountNumber = number)).map (fun a => (a.id, a.userId)) =
        ((accounts.map fun a => (a.id, a.userId, a.accountNumber)).find?
          (·.2.2 = number)).map fun x => (x.1, x.2.1) := by
    intro accounts
    rw [List.find?_map, Option.map_map]
    rfl
  rw [hfind, hfind, h.accounts]

/-- The rows that are locked do not depend on what transfers have done. -/
theorem Db.Same.rowsOf {db view : Db} (h : db.Same view) {number : String}
    {f : SqlEffect AccountRecord} (hf : loadAccountForUpdateByNumber number view = some f) :
    f.locks = db.rowsOf number := by
  have hlocks : db.rowsOf number = view.rowsOf number := by
    unfold Db.rowsOf loadAccountForUpdateByNumber
    cases textIn number with
    | none => rfl
    | some n =>
      have hfind := h.find n
      simp only [Option.map_some, Option.getD_some]
      cases ha : view.accounts.find? (·.accountNumber = n) with
      | none =>
        rw [ha, Option.map_none, eq_comm, Option.map_eq_none_iff] at hfind
        rw [hfind]
      | some a =>
        rw [ha, Option.map_some, eq_comm, Option.map_eq_some_iff] at hfind
        obtain ⟨b, hb, hid⟩ := hfind
        obtain ⟨hid, huser⟩ := Prod.mk.inj hid
        have hu : db.user b.userId = view.user a.userId := by
          rw [Db.user, Db.user, h.users, huser]
        rw [hb]
        simp only [hu, hid]
        cases view.user a.userId <;> rfl
  rw [hlocks, Db.rowsOf, hf]
  rfl

/-! ## Calls that cannot proceed -/

section Blocked

variable {svc : Service} {rounding : Rounding} {others : List Conn} {c : Choice} {e : Env}
  {l : Conn}

/-- Concurrent transfers are transactional. -/
def rowTransactional (svc : Service) (rounding : Rounding) :
    Transactional (rowMachine svc rounding) schema where
  db := Env.db
  tx := Conn.tx
  start := rfl
  exec {_ st _ _ _ _ _ _} h := by
    cases st with
    | stmt s => exact exec_step h
    | grab q n => exact inTx_step h
  tick {t e e'} h := by
    simp only [rowMachine] at h
    split at h
    · cases h
      rfl
    · cases h

/-- A statement waits only at a row that another transaction holds. -/
theorem inTx_blocked {α : Type} {plan : Db → Option (SqlEffect α)}
    (h : inTx others c e plan l = none) :
    ∃ tx f, l = .active tx ∧ tx.aborted = false ∧ plan (tx.view e.db) = some f ∧
      ∃ k ∈ f.locks, ∃ other ∈ others.filterMap Conn.tx, k ∈ other.held := by
  cases l with
  | fresh | done => cases h
  | active tx =>
    simp only [inTx, Option.map_eq_none_iff, Tx.perform] at h
    split at h
    · cases h
    next ha =>
    rw [Bool.or_eq_true, not_or, Bool.not_eq_true] at ha
    split at h
    · cases h
    next f hf =>
    split at h
    · next hany =>
      obtain ⟨k, hk, hany⟩ := List.any_eq_true.mp hany
      obtain ⟨other, hother, hheld⟩ := List.any_eq_true.mp hany
      exact ⟨tx, f, rfl, ha.1, hf, k, hk, other, hother, of_decide_eq_true hheld⟩
    · split at h <;> cases h

/-- Only statements of a transaction wait. -/
theorem exec_blocked {s : Stmt} (h : exec rounding others s c e l = none) :
    ∃ q, s = .query q ∧ inTx others c e (q.plan rounding) l = none := by
  cases s with
  | query q => exact ⟨q, rfl, h⟩
  | now | random | readRandom | mapOrder | lookup | audit | getSession | verifyCertificate => cases h
  | findTransactionByIdempotencyKey | beginTx | commit | rollback | insertUsedNonce | setNX |
      createSession =>
    simp only [exec] at h
    repeat' split at h
    all_goals cases h

end Blocked

/-! ## The order of the locks -/

/-- The rows of accounts and users come first, then the ledger, then the values of a new
transaction. -/
def Key.rank : Key → ℕ
  | .account _ => 0
  | .user _ => 0
  | .ledger => 1
  | .transaction _ => 2
  | .nonce _ => 3
  | .idempotencyKey _ => 4
  | .email _ => 5
  | .accountNumber _ => 6

/-- An order of accounts and users, with all other keys after them. -/
def lockOrder (r : Key → Key → Prop) (k k' : Key) : Prop :=
  k.rank < k'.rank ∨ k.rank = 0 ∧ k'.rank = 0 ∧ r k k'

instance {r : Key → Key → Prop} [IsStrictOrder Key r] : IsStrictOrder Key (lockOrder r) where
  irrefl k := by
    rintro (hlt | ⟨-, -, hr⟩)
    · exact lt_irrefl _ hlt
    · exact irrefl k hr
  trans k₁ k₂ k₃ := by
    rintro (hlt | ⟨h₁, h₂, hr⟩) (hlt' | ⟨h₂', h₃, hr'⟩)
    · exact .inl (hlt.trans hlt')
    · exact .inl (by omega)
    · exact .inl (by omega)
    · exact .inr ⟨h₁, h₃, IsTrans.trans _ _ _ hr hr'⟩

theorem rank_rowsOf {db : Db} {number : String} : ∀ k ∈ db.rowsOf number, k.rank = 0 := by
  intro k hk
  unfold Db.rowsOf at hk
  cases hf : loadAccountForUpdateByNumber number db with
  | none =>
    rw [hf] at hk
    cases hk
  | some f =>
    rw [hf] at hk
    obtain rfl | ⟨a, u, -, -, -, rfl⟩ := loadAccountForUpdateByNumber_cases hf
    · cases hk
    · rcases List.mem_cons.mp hk with rfl | hk
      · rfl
      · rw [List.mem_singleton.mp hk]
        rfl

/-- A key of a higher rank than all before. -/
theorem inOrder_snoc_rank {r : Key → Key → Prop} {l : List Key} {k : Key} {n : ℕ}
    (h : InOrder (lockOrder r) l) (hl : ∀ k ∈ l, k.rank ≤ n) (hk : n < k.rank) :
    InOrder (lockOrder r) (l ++ [k]) := h.snoc fun _ k' hk' => .inl ((hl k' hk').trans_lt hk)

theorem rank_snoc {l : List Key} {k : Key} {n : ℕ} (hl : ∀ k ∈ l, k.rank ≤ n)
    (hk : n ≤ k.rank) : ∀ k' ∈ l ++ [k], k'.rank ≤ k.rank := by
  intro k' hk'
  rcases List.mem_append.mp hk' with hk' | hk'
  · exact (hl k' hk').trans hk
  · rw [List.mem_singleton.mp hk']

/-! ## Transactions that lock row by row -/

/-- The transaction of a transfer, which holds some rows unless it is aborted. -/
structure Locked (db : Db) (ks : List Key) (tx : Tx schema) : Prop where
  snapshot : ∀ S, tx.snapshot = some S → db.Same S
  plain : ∀ w ∈ tx.writes, w.Plain
  held : ∀ k ∈ tx.held, k ∈ ks
  full : tx.aborted = false → ∀ k ∈ ks, k ∈ tx.held

section Locked

variable {svc : Service} {rounding : Rounding} {db db' : Db} {ks ks' : List Key} {tx tx' : Tx schema}
  {α : Type} {plan : Db → Option (SqlEffect α)}

theorem Locked.begin (db : Db) (isolation : Isolation) : Locked db [] (Tx.begin isolation) where
  snapshot _ h := nomatch h
  plain _ h := nomatch h
  held _ h := nomatch h
  full _ _ h := nomatch h

theorem Locked.abort (h : Locked db ks tx) : Locked db ks' tx.abort where
  snapshot := h.snapshot
  plain _ h := nomatch h
  held _ h := nomatch h
  full h := nomatch h

theorem Locked.base (h : Locked db ks tx) (hdb : db.Same db') : db.Same (tx.base db') := by
  unfold Tx.base
  split
  · next S _ hS => exact h.snapshot S hS
  · exact hdb

theorem Locked.view (h : Locked db ks tx) (hdb : db.Same db') : db.Same (tx.view db') :=
  (h.base hdb).applyAll h.plain

theorem Locked.commit (h : Locked db ks tx) (hdb : db.Same db') : db.Same (tx.commit db') :=
  hdb.applyAll h.plain

/-- A statement that fails leaves nothing locked, and one that does not adds its locks. -/
theorem Locked.perform {others : List (Tx schema)} {fail : Bool} {r : Option (Sql α)}
    (h : Locked db ks tx) (hdb : db.Same db') (hks : ∀ k ∈ ks, k ∈ ks')
    (hplan : ∀ view f, db.Same view → plan view = some f →
      (∀ w ∈ f.writes, w.Plain) ∧ (∀ k ∈ f.locks, k ∈ ks') ∧ ∀ k ∈ ks', k ∈ f.locks ∨ k ∈ ks)
    (hx : tx.perform others db' fail plan = some (r, tx')) : Locked db ks' tx' := by
  obtain ⟨-, rfl⟩ | ⟨f, ha, hf, -, rfl, -⟩ := Tx.perform_cases hx
  · exact h.abort
  obtain ⟨hwrites, hnew, hall⟩ := hplan _ f (h.view hdb) hf
  constructor
  · rintro S hS
    cases hS
    exact h.base hdb
  · intro w hw
    rcases List.mem_append.mp hw with hw | hw
    · exact h.plain w hw
    · exact hwrites w hw
  · intro k hk
    rcases List.mem_append.mp hk with hk | hk
    · exact hnew k hk
    · exact hks k (h.held k hk)
  · intro _ k hk
    rcases hall k hk with hk | hk
    · exact List.mem_append_left _ hk
    · exact List.mem_append_right _ (h.full ha k hk)

end Locked

/-! ## What a transfer promises -/

/-- Under what a transfer issues its statements: a row that it waits for comes after all that it
holds, provided that its own rows are in order. -/
structure RowPromise (rounding : Rounding) (r : Key → Key → Prop) (db : Db) (input : TransferInput)
    (st : RowStmt) (e : Env) (l : Conn) : Prop where
  commit : st = .stmt .commit → ∀ tx, l = .active tx → db.Same (tx.commit e.db)
  ordered : InOrder r (transferRows db input) →
    ∀ k ∈ st.wants rounding e l, ∀ h ∈ l.held, lockOrder r h k
  /-- A statement that has locked its rows needs no other ones. -/
  ready : ∀ s, st = .stmt s → st.wants rounding e l = none

section Rules

variable {rounding : Rounding} {r : Key → Key → Prop} {db : Db} {input : TransferInput}
  {α β : Type} {e : Env} {l : Conn} {ks : List Key} {tx : Tx schema}

/-- A program keeps the promises of a transfer while the other transfers leave the accounts as they
are. -/
def RowKeeps (rounding : Rounding) (r : Key → Key → Prop) (db : Db) (input : TransferInput)
    (p : Program rowSignature α) (e : Env) (l : Conn) : Prop :=
  ∀ log, Program.Meets (W := rowWorld rounding) (fun _ e' => db.Same e'.db)
    (fun _ => RowPromise rounding r db input) (fun _ _ _ _ => True) p log e l

theorem rowKeeps_ret {a : α} : RowKeeps rounding r db input (rowwise (pure a)) e l :=
  fun _ _ _ => trivial

theorem rowKeeps_bind {p : Program rowSignature α} {f : α → Program rowSignature β}
    (hp : RowKeeps rounding r db input p e l)
    (hf : ∀ a e l, RowKeeps rounding r db input (f a) e l) :
    RowKeeps rounding r db input (p >>= f) e l :=
  fun log => .bind (fun _ _ h => h) ((hp log).mono (fun _ _ _ _ h => h) fun _ a _ _ _ => hf a _ _ _)

theorem rowwise_bind (p : Run α) (f : α → Run β) :
    rowwise (p >>= f) = rowwise p >>= fun a => rowwise (f a) := by
  induction p with
  | ret a => rfl
  | call s k ih =>
    show (s.grabs >>= fun _ => issue (S := rowSignature) (.stmt s) >>= fun x => rowwise (k x >>= f)) =
      (s.grabs >>= fun _ => issue (S := rowSignature) (.stmt s) >>= fun x => rowwise (k x)) >>= _
    simp only [Program.bind_assoc]
    congr 1
    funext _
    congr 1
    funext x
    exact ih x

/-- A statement outside of transactions. -/
theorem rowKeeps_stmt {s : Stmt} {f : Reply s → Run α} (hs : ∀ q, s ≠ .query q)
    (hcommit : s = .commit → ∀ e' : Env, db.Same e'.db → ∀ tx, l = .active tx → db.Same (tx.commit e'.db))
    (h : ∀ others c x (e' : Env) e'' l', db.Same e'.db → exec rounding others s c e' l = some (x, e'', l') →
      RowKeeps rounding r db input (rowwise (f x)) e'' l') :
    RowKeeps rounding r db input (rowwise (stmt s >>= f)) e l := by
  have hnone : ∀ e', RowStmt.wants rounding e' l (.stmt s) = none := by
    intro e'
    cases s with
    | query q => exact absurd rfl (hs q)
    | _ => rfl
  have hgrabs : s.grabs = pure () := by
    cases s with
    | query q => exact absurd rfl (hs q)
    | _ => rfl
  show RowKeeps rounding r db input (s.grabs >>= fun _ => issue (S := rowSignature) (.stmt s) >>=
    fun x => rowwise (f x)) e l
  rw [hgrabs]
  refine fun log e' he' => ⟨⟨?_, ?_, ?_⟩, fun others c x e'' l' hx => h _ _ _ _ _ _ he' hx _⟩
  · rintro heq tx rfl
    cases heq
    exact hcommit rfl e' he' tx rfl
  · intro _ k hk
    rw [hnone] at hk
    cases hk
  · rintro s' heq
    cases heq
    exact hnone e'

theorem rowKeeps_now {f : Instant → Run α}
    (h : ∀ t e', RowKeeps rounding r db input (rowwise (f t)) e' l) :
    RowKeeps rounding r db input (rowwise (stmt .now >>= f)) e l := by
  refine rowKeeps_stmt (fun _ h => by cases h) (fun h => by cases h) fun others c x e' e'' l' _ hx => ?_
  cases hx
  exact h _ _

theorem rowKeeps_random {f : Uuid → Run α}
    (h : ∀ b e', RowKeeps rounding r db input (rowwise (f b)) e' l) :
    RowKeeps rounding r db input (rowwise (stmt .random >>= f)) e l := by
  refine rowKeeps_stmt (fun _ h => by cases h) (fun h => by cases h) fun others c x e' e'' l' _ hx => ?_
  cases hx
  exact h _ _

theorem rowKeeps_audit {event : AuditEvent} {f : Unit → Run α}
    (h : ∀ e', RowKeeps rounding r db input (rowwise (f ())) e' l) :
    RowKeeps rounding r db input (rowwise (stmt (.audit event) >>= f)) e l := by
  refine rowKeeps_stmt (fun _ h => by cases h) (fun h => by cases h) fun others c x e' e'' l' _ hx => ?_
  cases hx
  exact h _

theorem rowKeeps_commit {f : Sql Unit → Run α} (h : Locked db ks tx)
    (hf : ∀ x e' l', RowKeeps rounding r db input (rowwise (f x)) e' l') :
    RowKeeps rounding r db input (rowwise (stmt .commit >>= f)) e (.active tx) := by
  refine rowKeeps_stmt (fun _ h => by cases h) ?_ fun others c x e' e'' l' _ hx => hf _ _ _
  rintro - e' he' tx' heq
  cases heq
  exact h.commit he'

/-- What a statement of a transaction locks, if it has an effect: some rows, or only rows that are
held before. -/
def Takes (rounding : Rounding) (db : Db) (q : Query) (ks new : List Key) : Prop :=
  ∀ view f, db.Same view → q.plan rounding view = some f → (∀ w ∈ f.writes, w.Plain) ∧
    (f.locks = new ∨ new = [] ∧ ∀ k ∈ f.locks, k ∈ ks)

/-- A statement that locks its row number `n`. -/
theorem Takes.grab {q : Query} {new : List Key} {n : ℕ} (h : Takes rounding db q ks new)
    (hlocked : Locked db (ks ++ new.take n) tx) {others : List Conn} {c : Choice} {x : Sql Unit}
    {e' : Env} {l' : Conn} (hdb : db.Same e.db)
    (hx : inTx others c e (q.grab rounding n) (.active tx) = some (x, e', l')) :
    ∃ tx', l' = .active tx' ∧ Locked db (ks ++ new.take (n + 1)) tx' := by
  simp only [inTx, Option.map_eq_some_iff] at hx
  obtain ⟨⟨r', tx'⟩, hp, hx⟩ := hx
  cases hx
  refine ⟨tx', rfl, hlocked.perform hdb ?_ ?_ hp⟩
  · intro k hk
    rw [List.take_add_one]
    simp only [List.mem_append] at hk ⊢
    tauto
  · intro view f hview hf
    obtain ⟨g, hg, rfl⟩ := Option.map_eq_some_iff.mp hf
    refine ⟨fun _ hw => absurd hw List.not_mem_nil, ?_⟩
    rw [List.take_add_one]
    obtain ⟨-, rfl | ⟨rfl, hold⟩⟩ := h view g hview hg
    · simp only [Effect.lock, List.mem_append]
      tauto
    · have hmem : ∀ k ∈ g.locks[n]?.toList, k ∈ ks := fun k hk =>
        hold k (List.mem_of_getElem? (Option.mem_toList.mp hk))
      simp only [Effect.lock, List.take_nil, List.append_nil, List.getElem?_nil, Option.toList_none]
      exact ⟨hmem, fun k hk => .inr hk⟩

/-- The row number `n` comes after all that is held. -/
theorem Takes.promise {q : Query} {new : List Key} {n : ℕ} (h : Takes rounding db q ks new)
    (hlocked : Locked db (ks ++ new.take n) tx) (hdb : db.Same e.db)
    (hord : InOrder r (transferRows db input) → InOrder (lockOrder r) (ks ++ new)) :
    RowPromise rounding r db input (.grab q n) e (.active tx) := by
  refine ⟨nofun, fun hrows k hk h' hh' => ?_, fun s hs => RowStmt.noConfusion hs⟩
  simp only [RowStmt.wants, Conn.wants] at hk
  split at hk
  · cases hk
  next ha =>
  obtain ⟨f, hf, hk⟩ := Option.bind_eq_some_iff.mp hk
  obtain ⟨g, hg, rfl⟩ := Option.map_eq_some_iff.mp hf
  have hnew : k ∉ tx.held := by simpa using List.find?_some hk
  have hmem : g.locks[n]? = some k := Option.mem_toList.mp (List.mem_of_find?_eq_some hk)
  have hfull := hlocked.full (by simpa using ha)
  obtain ⟨-, rfl | ⟨rfl, hold⟩⟩ := h _ g (hlocked.view hdb) hg
  · obtain ⟨hn, hget⟩ := List.getElem?_eq_some_iff.mp hmem
    have hsplit : g.locks = g.locks.take n ++ k :: g.locks.drop (n + 1) := by
      rw [← hget, ← List.drop_eq_getElem_cons hn, List.take_append_drop]
    refine hord hrows (ks ++ g.locks.take n) k (g.locks.drop (n + 1)) ?_ ?_ h' (hlocked.held h' hh')
    · rw [List.append_assoc, ← hsplit]
    · exact fun hk => hnew (hfull k hk)
  · exact absurd (hfull k (List.mem_append_left _ (hold k (List.mem_of_getElem? hmem)))) hnew

/-- A statement that has locked its rows. -/
theorem Takes.ready {q : Query} {new : List Key} (h : Takes rounding db q ks new)
    (hlocked : Locked db (ks ++ new) tx) (hdb : db.Same e.db) :
    RowStmt.wants rounding e (.active tx) (.stmt (.query q)) = none := by
  simp only [RowStmt.wants, Conn.wants]
  split
  · rfl
  next ha =>
  rw [Option.bind_eq_none_iff]
  intro f hf
  have hfull := hlocked.full (by simpa using ha)
  rw [List.find?_eq_none]
  intro k hk
  rw [decide_eq_true_eq, not_not]
  obtain ⟨-, rfl | ⟨rfl, hold⟩⟩ := h _ f (hlocked.view hdb) hf
  · exact hfull k (List.mem_append_right _ hk)
  · exact hfull k (List.mem_append_left _ (hold k hk))

/-- **The rule for a statement of a transaction.** It locks its rows one after the other, and has its
effect or fails. -/
theorem rowKeeps_query {q : Query} {new : List Key} {f : Sql q.Row → Run α}
    (h : Takes rounding db q ks new) (hlen : new.length ≤ 3) (hlocked : Locked db ks tx)
    (hord : InOrder r (transferRows db input) → InOrder (lockOrder r) (ks ++ new))
    (hf : ∀ x e' tx', Locked db (ks ++ new) tx' → (x = .error .failed ∨ ∃ view eff, db.Same view ∧
      q.plan rounding view = some eff ∧ x = eff.reply) →
      RowKeeps rounding r db input (rowwise (f x)) e' (.active tx')) :
    RowKeeps rounding r db input (rowwise (sql q >>= f)) e (.active tx) := by
  -- the last step: all rows are locked
  have hlast : ∀ e tx, Locked db (ks ++ new) tx → RowKeeps rounding r db input
      (issue (S := rowSignature) (.stmt (.query q)) >>= fun x => rowwise (f x)) e (.active tx) := by
    intro e tx hlocked log e' he'
    refine ⟨⟨nofun, fun _ k hk => ?_, fun _ _ => ?_⟩, fun others c x e'' l' hx => ?_⟩
    · rw [h.ready hlocked he'] at hk
      cases hk
    · exact h.ready hlocked he'
    · replace hx : inTx others c e' (q.plan rounding) (.active tx) = some (x, e'', l') := hx
      have hreply := (inTx_cases hx).2
      obtain ⟨⟨r', tx'⟩, hp, heq⟩ := Option.map_eq_some_iff.mp hx
      cases heq
      refine hf _ _ tx' (hlocked.perform he' (fun _ hk => hk) ?_ hp) ?_ _
      · intro view eff hview heff
        obtain ⟨hplain, rfl | ⟨rfl, hold⟩⟩ := h view eff hview heff
        · exact ⟨hplain, fun k hk => List.mem_append_right _ hk, fun k hk => .inr hk⟩
        · exact ⟨hplain, fun k hk => List.mem_append_left _ (hold k hk), fun k hk => .inr hk⟩
      · obtain ⟨-, -, hfail, -⟩ | ⟨tx₀, eff, htx, -, hplan, hok, -⟩ | ⟨hnone, -⟩ := hreply
        · exact .inl hfail
        · cases htx
          exact .inr ⟨_, eff, hlocked.view he', hplan, hok⟩
        · cases hnone
  have hgrabs : ∀ rows n e tx, n + rows = 3 → Locked db (ks ++ new.take n) tx →
      RowKeeps rounding r db input (q.grabs rows n >>= fun _ =>
        issue (S := rowSignature) (.stmt (.query q)) >>= fun x => rowwise (f x)) e (.active tx) := by
    intro rows
    induction rows with
    | zero =>
      intro n e tx hn hlocked
      rw [List.take_of_length_le (by omega)] at hlocked
      exact hlast e tx hlocked
    | succ rows ih =>
      intro n e tx hn hlocked log e' he'
      refine ⟨h.promise hlocked he' hord, fun others c x e'' l' hx => ?_⟩
      obtain ⟨tx', rfl, hlocked'⟩ := h.grab hlocked he' hx
      exact ih (n + 1) e'' tx' (by omega) hlocked' _
  exact hgrabs 3 0 e tx rfl (by simpa using hlocked)

/-- The rule for a statement of a transaction that holds its rows. -/
theorem rowKeeps_reuse {q : Query} {f : Sql q.Row → Run α} (h : Takes rounding db q ks [])
    (hlocked : Locked db ks tx)
    (hord : InOrder r (transferRows db input) → InOrder (lockOrder r) ks)
    (hf : ∀ x e' tx', Locked db ks tx' →
      RowKeeps rounding r db input (rowwise (f x)) e' (.active tx')) :
    RowKeeps rounding r db input (rowwise (sql q >>= f)) e (.active tx) := by
  refine rowKeeps_query h (Nat.zero_le 3) hlocked ?_ fun x e' tx' hlocked' _ => hf x e' tx' ?_
  · rwa [List.append_nil]
  · rwa [List.append_nil] at hlocked'

end Rules

/-! ## The statements of a transfer -/

section Takes

variable {rounding : Rounding} {r : Key → Key → Prop} {db : Db} {ks : List Key}

theorem takes_load (number : String) :
    Takes rounding db (.loadAccountForUpdateByNumber number) ks (db.rowsOf number) := by
  intro view f hview hf
  refine ⟨?_, .inl (hview.rowsOf hf)⟩
  obtain rfl | ⟨a, u, -, -, -, rfl⟩ := loadAccountForUpdateByNumber_cases hf
  all_goals exact fun _ hw => absurd hw List.not_mem_nil

theorem takes_lockLedger : Takes rounding db .lockLedgerLastHash ks [.ledger] := by
  intro view f _ hf
  cases hf
  exact ⟨fun _ hw => absurd hw List.not_mem_nil, .inl rfl⟩

theorem takes_sum (id : String) (since till : ℤ) :
    Takes rounding db (.sumCompletedTransfersSince id since till) ks [] := by
  intro view f _ hf
  obtain rfl | ⟨u, spent, -, rfl, -⟩ := sumCompletedTransfersSince_cases hf
  all_goals exact ⟨fun _ hw => absurd hw List.not_mem_nil, .inl rfl⟩

/-- An update of an account that is locked. -/
theorem plain_updateBalance {newBalance : ℤ → ℤ} {id : Uuid} (hid : .account id ∈ ks) {view : Db}
    {f : SqlEffect Unit} (hf : updateBalance newBalance id.text view = some f) :
    (∀ w ∈ f.writes, w.Plain) ∧ ∀ k ∈ f.locks, k ∈ ks := by
  obtain ⟨u, hu, ⟨-, rfl⟩ | ⟨a, balance, check, -, -, rfl⟩⟩ := updateBalance_cases hf
  · exact ⟨fun _ hw => absurd hw List.not_mem_nil, fun _ hk => absurd hk List.not_mem_nil⟩
  · rw [uuidIn_text] at hu
    obtain rfl := Option.some.inj hu
    refine ⟨fun w hw => ?_, fun k hk => ?_⟩
    · rw [List.mem_singleton.mp hw]
      trivial
    · rw [List.mem_singleton.mp hk]
      exact hid

theorem takes_debit {amount : Int64} {id : Uuid} (hid : .account id ∈ ks) :
    Takes rounding db (.debitAccount amount id.text) ks [] := by
  intro view f _ hf
  replace hf : updateBalance (· - amount.toInt) id.text view = some f := hf
  obtain ⟨hplain, hlocks⟩ := plain_updateBalance hid hf
  exact ⟨hplain, .inr ⟨rfl, hlocks⟩⟩

theorem takes_credit {amount : Int64} {id : Uuid} (hid : .account id ∈ ks) :
    Takes rounding db (.creditAccount amount id.text) ks [] := by
  intro view f _ hf
  replace hf : updateBalance (· + amount.toInt) id.text view = some f := hf
  obtain ⟨hplain, hlocks⟩ := plain_updateBalance hid hf
  exact ⟨hplain, .inr ⟨rfl, hlocks⟩⟩

theorem takes_updateLedger {currentHash txID : String} {time : Instant} (hledger : .ledger ∈ ks) :
    Takes rounding db (.updateLedger currentHash txID time) ks [] := by
  intro view f _ hf
  obtain ⟨lastHash, u, -, -, rfl⟩ := updateLedger_cases view hf
  refine ⟨fun w hw => ?_, .inr ⟨rfl, fun k hk => ?_⟩⟩
  · rw [List.mem_singleton.mp hw]
    trivial
  · rw [List.mem_singleton.mp hk]
    exact hledger

/-- The values of a new transaction that are unique. -/
def TransactionRow.keys (t : TransactionRow) : List Key :=
  match uuidIn t.id, varcharIn 255 t.nonce, varcharIn 255 t.idempotencyKey with
  | some id, some nonce, some key => [.transaction id, .nonce nonce, .idempotencyKey key]
  | _, _, _ => []

theorem TransactionRow.length_keys (t : TransactionRow) : t.keys.length ≤ 3 := by
  unfold keys
  split <;> simp

theorem TransactionRow.keys_eq {t : TransactionRow} {status : TransactionStatus}
    {fromId toId : Option Uuid} {row : Transaction}
    (h : Transaction.of rounding status fromId toId t = some row) :
    t.keys = [.transaction row.id, .nonce row.nonce, .idempotencyKey row.idempotencyKey] := by
  obtain ⟨hid, -, -, -, -, -, -, -, -, -, hnonce, hkey, -⟩ := Transaction.of_eq h
  rw [keys, hid, hnonce, hkey]

theorem takes_insert {t : TransactionRow} :
    Takes rounding db (.insertTransaction t) ks t.keys := by
  intro view f _ hf
  obtain ⟨u, v, row, -, -, hrow, -, rfl⟩ := insertTransaction_cases hf
  refine ⟨fun w hw => ?_, .inl (TransactionRow.keys_eq hrow).symm⟩
  rw [List.mem_singleton.mp hw]
  trivial

theorem takes_insertFailed {t : TransactionRow} :
    Takes rounding db (.insertFailedTransaction t) ks t.keys := by
  intro view f _ hf
  obtain ⟨ou, ov, row, hrow, -, rfl⟩ := insertFailedTransaction_cases hf
  refine ⟨fun w hw => ?_, .inl (TransactionRow.keys_eq hrow).symm⟩
  rw [List.mem_singleton.mp hw]
  trivial

/-- The values of a new transaction are locked after the ledger. -/
theorem inOrder_keys {t : TransactionRow} (h : InOrder (lockOrder r) ks)
    (hrank : ∀ k ∈ ks, k.rank ≤ 1) : InOrder (lockOrder r) (ks ++ t.keys) := by
  unfold TransactionRow.keys
  split
  · next id nonce key _ _ _ =>
    have hsplit : ks ++ [Key.transaction id, .nonce nonce, .idempotencyKey key] =
        ks ++ [.transaction id] ++ [.nonce nonce] ++ [.idempotencyKey key] := by simp
    have htransaction := rank_snoc (k := .transaction id) hrank (Nat.le_succ 1)
    have hnonce := rank_snoc (k := .nonce nonce) htransaction (Nat.le_succ 2)
    rw [hsplit]
    exact inOrder_snoc_rank (inOrder_snoc_rank (inOrder_snoc_rank h hrank (Nat.lt_succ_self 1))
      htransaction (Nat.lt_succ_self 2)) hnonce (Nat.lt_succ_self 3)
  · rwa [List.append_nil]

end Takes

/-! ## Transfers -/

section Transfers

variable {svc : Service} {rounding : Rounding} {r : Key → Key → Prop} {db : Db} {caller : Caller}
  {input : TransferInput} {e : Env} {ks : List Key} {tx : Tx schema}

/-- Rows of accounts and users that come in the order of the transfer. -/
structure Rows (r : Key → Key → Prop) (db : Db) (input : TransferInput) (ks : List Key) : Prop where
  rank : ∀ k ∈ ks, k.rank = 0
  order : InOrder r (transferRows db input) → InOrder (lockOrder r) ks

theorem Rows.ledger (h : Rows r db input ks) (hrows : InOrder r (transferRows db input)) :
    InOrder (lockOrder r) (ks ++ [.ledger]) :=
  inOrder_snoc_rank (h.order hrows) (fun k hk => (h.rank k hk).le) Nat.zero_lt_one

theorem Rows.rank_ledger (h : Rows r db input ks) : ∀ k ∈ ks ++ [Key.ledger], k.rank ≤ 1 :=
  rank_snoc (fun k hk => (h.rank k hk).le) (Nat.zero_le 1)

/-- A transfer that is rejected locks the ledger after its rows. -/
theorem failTransfer_rowKeeps (h : Locked db ks tx) (hks : Rows r db input ks)
    (fromAcc toAcc : AccountRecord) (action reason : String) (err : Err) :
    RowKeeps rounding r db input
      (rowwise (svc.failTransfer caller input fromAcc toAcc action reason err)) e (.active tx) := by
  unfold Service.failTransfer
  refine rowKeeps_random fun b e₁ => ?_
  refine rowKeeps_query takes_lockLedger (by simp) h hks.ledger fun x e₂ tx₂ h₂ _ => ?_
  cases x with
  | error => exact rowKeeps_ret
  | ok lastHash =>
  refine rowKeeps_now fun t e₃ => ?_
  refine rowKeeps_query takes_insertFailed (TransactionRow.length_keys _) h₂
    (fun hrows => inOrder_keys (hks.ledger hrows) hks.rank_ledger) fun x e₄ tx₄ h₄ _ => ?_
  cases x with
  | error => exact rowKeeps_ret
  | ok =>
  refine rowKeeps_reuse (takes_updateLedger (by simp)) h₄
    (fun hrows => inOrder_keys (hks.ledger hrows) hks.rank_ledger) fun x e₅ tx₅ h₅ => ?_
  cases x with
  | error => exact rowKeeps_ret
  | ok =>
  refine rowKeeps_commit h₅ fun x e₆ l₆ => ?_
  cases x with
  | error => exact rowKeeps_ret
  | ok => exact rowKeeps_audit fun _ => rowKeeps_ret

/-- A transfer that moves money locks the ledger after its rows, and updates what it has locked. -/
theorem moveMoney_rowKeeps (h : Locked db ks tx) (hks : Rows r db input ks)
    {fromAcc toAcc : AccountRecord} {a b : Uuid} (ha : fromAcc.id = a.text) (hb : toAcc.id = b.text)
    (hfrom : .account a ∈ ks) (hto : .account b ∈ ks) :
    RowKeeps rounding r db input (rowwise (svc.moveMoney caller input fromAcc toAcc)) e
      (.active tx) := by
  unfold Service.moveMoney
  rw [ha, hb]
  refine rowKeeps_query takes_lockLedger (by simp) h hks.ledger fun x e₁ tx₁ h₁ _ => ?_
  cases x with
  | error => exact rowKeeps_ret
  | ok lastHash =>
  refine rowKeeps_random fun bytes e₂ => ?_
  refine rowKeeps_now fun t e₃ => ?_
  refine rowKeeps_reuse (takes_debit (List.mem_append_left _ hfrom)) h₁ hks.ledger
    fun x e₄ tx₄ h₄ => ?_
  cases x with
  | error => exact rowKeeps_ret
  | ok =>
  refine rowKeeps_reuse (takes_credit (List.mem_append_left _ hto)) h₄ hks.ledger
    fun x e₅ tx₅ h₅ => ?_
  cases x with
  | error => exact rowKeeps_ret
  | ok =>
  refine rowKeeps_query takes_insert (TransactionRow.length_keys _) h₅
    (fun hrows => inOrder_keys (hks.ledger hrows) hks.rank_ledger) fun x e₆ tx₆ h₆ _ => ?_
  cases x with
  | error => exact rowKeeps_audit fun _ => rowKeeps_ret
  | ok =>
  refine rowKeeps_reuse (takes_updateLedger (by simp)) h₆
    (fun hrows => inOrder_keys (hks.ledger hrows) hks.rank_ledger) fun x e₇ tx₇ h₇ => ?_
  cases x with
  | error => exact rowKeeps_ret
  | ok =>
  refine rowKeeps_commit h₇ fun x e₈ l₈ => ?_
  cases x with
  | error => exact rowKeeps_ret
  | ok => exact rowKeeps_audit fun _ => rowKeeps_ret

theorem checkTransfer_rowKeeps (h : Locked db ks tx) (hks : Rows r db input ks)
    {fromAcc toAcc : AccountRecord} {a b : Uuid} (ha : fromAcc.id = a.text) (hb : toAcc.id = b.text)
    (hfrom : .account a ∈ ks) (hto : .account b ∈ ks) :
    RowKeeps rounding r db input (rowwise (svc.checkTransfer caller input fromAcc toAcc)) e
      (.active tx) := by
  unfold Service.checkTransfer
  split
  · exact failTransfer_rowKeeps h hks _ _ _ _ _
  split
  · exact failTransfer_rowKeeps h hks _ _ _ _ _
  split
  · exact failTransfer_rowKeeps h hks _ _ _ _ _
  split
  · exact failTransfer_rowKeeps h hks _ _ _ _ _
  split
  · exact failTransfer_rowKeeps h hks _ _ _ _ _
  refine rowKeeps_now fun t e₁ => ?_
  refine rowKeeps_now fun t' e₂ => ?_
  refine rowKeeps_reuse (takes_sum _ _ _) h hks.order fun x e₃ tx₃ h₃ => ?_
  cases x with
  | error => exact rowKeeps_ret
  | ok spentToday =>
  dsimp only
  split
  · exact failTransfer_rowKeeps h₃ hks _ _ _ _ _
  · exact moveMoney_rowKeeps h₃ hks ha hb hfrom hto

/-- What is known of an account that was loaded: its row is locked. -/
theorem mem_rowsOf {number : String} {view : Db} {f : SqlEffect AccountRecord} {acc : AccountRecord}
    (hview : db.Same view) (hf : loadAccountForUpdateByNumber number view = some f)
    (hacc : f.reply = .ok acc) : ∃ a : Uuid, acc.id = a.text ∧ .account a ∈ db.rowsOf number := by
  have hrows := hview.rowsOf hf
  obtain rfl | ⟨a, u, -, -, -, rfl⟩ := loadAccountForUpdateByNumber_cases hf
  · cases hacc
  · cases hacc
    exact ⟨a.id, rfl, hrows ▸ List.mem_cons_self⟩

theorem length_rowsOf (db : Db) (number : String) : (db.rowsOf number).length ≤ 3 := by
  unfold Db.rowsOf
  cases hf : loadAccountForUpdateByNumber number db with
  | none => simp
  | some f => obtain rfl | ⟨a, u, -, -, -, rfl⟩ := loadAccountForUpdateByNumber_cases hf <;> simp [
      Effect.read, Effect.lock]

/-- The rows of the account that is named first. -/
theorem rows_from : Rows r db input (db.rowsOf input.fromAccountNumber) where
  rank := rank_rowsOf
  order hrows := by
    by_cases hnone : db.rowsOf input.fromAccountNumber = []
    · rw [hnone]
      exact inOrder_nil
    · rw [transferRows, if_neg hnone] at hrows
      exact hrows.append_left.mono fun k hk k' hk' hr => .inr ⟨rank_rowsOf k hk, rank_rowsOf k' hk', hr⟩

/-- The rows of both accounts, if the first one exists. -/
theorem rows_both (hsome : db.rowsOf input.fromAccountNumber ≠ []) :
    Rows r db input
      (db.rowsOf input.fromAccountNumber ++ db.rowsOf input.toAccountNumber) where
  rank k hk := (List.mem_append.mp hk).elim (rank_rowsOf k) (rank_rowsOf k)
  order hrows := by
    have hrank : ∀ k ∈ db.rowsOf input.fromAccountNumber ++ db.rowsOf input.toAccountNumber,
        k.rank = 0 := fun k hk => (List.mem_append.mp hk).elim (rank_rowsOf k) (rank_rowsOf k)
    rw [transferRows, if_neg hsome] at hrows
    exact hrows.mono fun k hk k' hk' hr => .inr ⟨hrank k hk, hrank k' hk', hr⟩

theorem transferTx_rowKeeps (h : Locked db [] tx) :
    RowKeeps rounding r db input (rowwise (svc.transferTx caller input)) e (.active tx) := by
  unfold Service.transferTx
  refine rowKeeps_query (takes_load _) (length_rowsOf _ _) h rows_from.order
    fun x e₁ tx₁ h₁ hx => ?_
  rw [List.nil_append] at h₁
  split
  · exact failTransfer_rowKeeps h₁ rows_from _ _ _ _ _
  cases x with
  | error => exact rowKeeps_ret
  | ok fromAcc =>
  obtain hfail | ⟨view, f, hview, hf, hreply⟩ := hx
  · cases hfail
  obtain ⟨a, ha, hfrom⟩ := mem_rowsOf hview hf hreply.symm
  have hboth := @rows_both r db input (List.ne_nil_of_mem hfrom)
  refine rowKeeps_query (takes_load _) (length_rowsOf _ _) h₁ hboth.order fun x e₂ tx₂ h₂ hx => ?_
  split
  · exact failTransfer_rowKeeps h₂ hboth _ _ _ _ _
  cases x with
  | error => exact rowKeeps_ret
  | ok toAcc =>
  obtain hfail | ⟨view, f, hview, hf, hreply⟩ := hx
  · cases hfail
  obtain ⟨b, hb, hto⟩ := mem_rowsOf hview hf hreply.symm
  exact checkTransfer_rowKeeps h₂ hboth ha hb (List.mem_append_left _ hfrom)
    (List.mem_append_right _ hto)

theorem executeTransfer_rowKeeps :
    RowKeeps rounding r db input (rowwise (svc.executeTransfer caller input)) e .fresh := by
  unfold Service.executeTransfer
  refine rowKeeps_stmt (fun _ h => by cases h) (fun h => by cases h) fun others c x e' e'' l' _ hx => ?_
  simp only [exec] at hx
  split at hx
  · cases hx
    exact rowKeeps_ret
  cases hx
  show RowKeeps rounding r db input (rowwise (svc.transferTx caller input >>= fun a =>
    stmt .rollback >>= fun _ => pure a)) _ _
  rw [rowwise_bind]
  refine rowKeeps_bind (transferTx_rowKeeps (.begin db _)) fun a e l => ?_
  exact rowKeeps_stmt (fun _ h => by cases h) (fun h => by cases h) fun _ _ _ _ _ _ _ _ => rowKeeps_ret

end Transfers

/-! ## Runs -/

section Runs

variable {svc : Service} {rounding : Rounding} {e₀ : Env} {s : State (rowMachine svc rounding)}

/-- Every statement of every transfer is issued as it promises. -/
theorem rowKeeps_of_reachable (h : Reachable e₀ s) (r : Key → Key → Prop) :
    e₀.db.Same s.env.db ∧ ∀ i c, s.call i = some c → c.rest.Meets (W := rowWorld rounding)
      (fun _ e' => e₀.db.Same e'.db) (fun _ => RowPromise rounding r e₀.db c.request.2)
      (fun _ _ _ _ => True) c.log s.env c.loc := by
  refine @Reachable.meets (rowMachine svc rounding) (fun _ e' => e₀.db.Same e'.db) e₀
    (.refl _) (fun _ _ h => h) (fun _ _ _ _ h => h)
    (fun q _ => RowPromise rounding r e₀.db q.2) (fun _ _ _ _ _ => True) ?_ ?_ ?_ s h
  · intro s i q st k loc log c x env loc' _ _ hself hG hx
    cases st with
    | grab q n => rw [(inTx_cases hx).1]; exact hself
    | stmt st =>
      obtain hdb | ⟨rfl, -, tx, rfl, -, hdb⟩ := exec_db hx
      · rw [hdb]
        exact hself
      · rw [hdb]
        exact hG.commit rfl tx rfl
  · intro t e e' hself htick
    simp only [rowMachine] at htick
    split at htick
    · cases htick
      exact hself
    · cases htick
  · intro q e _
    exact executeTransfer_rowKeeps []

/-- A call that cannot proceed waits for another one. -/
theorem waits_of_blocked (h : Reachable e₀ s) {i : ℕ} {c : Call (rowMachine svc rounding)}
    (hc : s.call i = some c) (hunfinished : c.rest.result = none) {choice : Choice}
    (hblocked : next s (.run i choice) = none) : ∃ j, Waits s i j := by
  obtain ⟨hsame, hmeets⟩ := rowKeeps_of_reachable h fun _ _ => False
  have hsafe := (rowTransactional svc rounding).safe h
  obtain ⟨q, rest, l, log⟩ := c
  cases rest with
  | ret a => cases hunfinished
  | call st k =>
  have hready := (hmeets i _ hc s.env hsame).1.ready
  have hnone : rowExec rounding (s.others i) st choice s.env l = none := by
    simp only [next, hc] at hblocked
    split at hblocked
    · cases hblocked
    · assumption
  -- what another transaction holds, the call does not hold
  have hother : ∀ tx k, l = .active tx → ∀ other ∈ (s.others i).filterMap Conn.tx, k ∈ other.held →
      k ∉ tx.held ∧ ∃ j, i ≠ j ∧ holds s j k := by
    rintro tx k rfl other hmem hheld
    obtain ⟨l', hl', htx⟩ := List.mem_filterMap.mp hmem
    obtain ⟨j, c', hij, hc', rfl⟩ := State.mem_others.mp hl'
    refine ⟨fun hown => hsafe.exclusive i j _ c' tx other hij.symm hc hc' rfl htx k hown hheld,
      j, hij.symm, c', hc', ?_⟩
    obtain ⟨qj, restj, lj, logj⟩ := c'
    cases lj with
    | active tx' => cases htx; exact hheld
    | fresh | done => cases htx
  have hwants : wants s i = st.wants rounding s.env l := by simp [wants, hc, Program.head]
  cases st with
  | stmt st =>
    obtain ⟨q, rfl, hnone⟩ := exec_blocked hnone
    obtain ⟨tx, f, rfl, ha, hf, k, hk, other, hmem, hheld⟩ := inTx_blocked hnone
    -- the row would be wanted, but the statement has locked all its rows
    have hwanted := hready _ rfl
    simp only [RowStmt.wants, Conn.wants, ha, hf, Option.bind_some, Bool.false_eq_true, if_false,
      List.find?_eq_none] at hwanted
    exact absurd (hother tx k rfl other hmem hheld).1 (by simpa using hwanted k hk)
  | grab q n =>
    obtain ⟨tx, f, rfl, ha, hf, k, hk, other, hmem, hheld⟩ := inTx_blocked hnone
    obtain ⟨hnew, j, hij, hj⟩ := hother tx k rfl other hmem hheld
    refine ⟨j, hij, k, ?_, hj⟩
    rw [hwants]
    simp only [RowStmt.wants, Conn.wants, ha, hf, Option.bind_some, Bool.false_eq_true, if_false]
    obtain ⟨g, -, rfl⟩ := Option.map_eq_some_iff.mp hf
    have hone : g.locks[n]? = some k := Option.mem_toList.mp hk
    simp [Effect.lock, hone, hnew]

/-- **No circle of waits**, in every run of transfers that name their accounts in one order: of the
rows of accounts and users that a transfer locks, each comes after those before it. -/
theorem waits_acyclic (h : Reachable e₀ s) {r : Key → Key → Prop} [IsStrictOrder Key r]
    (hr : ∀ i c, s.call i = some c → InOrder r (transferRows e₀.db c.request.2)) (i : ℕ) :
    ¬ Relation.TransGen (Waits s) i i := by
  obtain ⟨hsame, hmeets⟩ := rowKeeps_of_reachable h r
  refine acyclic_of_ordered (r := lockOrder r) ?_ i
  rintro i k hk k' ⟨c, hc, hheld⟩
  obtain ⟨q, rest, l, log⟩ := c
  simp only [wants, hc, Option.bind_some] at hk
  cases rest with
  | ret a => cases hk
  | call st next => exact (hmeets i _ hc s.env hsame).1.ordered (hr i _ hc) k hk k' hheld

end Runs

/-! ## Sample runs -/

section Samples

theorem sampleBalance_check : (0 : Int64) ≤ 1000 := by decide

/-- The id of the user number `n`, and of the account of this user. -/
def pairId (n : ℕ) : Uuid := Vector.replicate 16 (UInt8.ofNat n)

/-- A user with an account. -/
def pairUser (n : ℕ) : User := ⟨pairId n, padded 2 n, "User", .active, 0⟩

/-- The account of a user. -/
def pairAccount (n : ℕ) : Account :=
  ⟨pairId n, pairId n, padded 2 n, 1000, 1000, "VND", .active, 0, 0, sampleBalance_check⟩

/-- Two users with an account each. -/
def pairEnv : Env where
  db := ⟨[pairUser 1, pairUser 2], [pairAccount 1, pairAccount 2], [], ⟨"genesis", none, 0⟩⟩
  usedNonces := []
  redis := []
  sessions := []
  clock := sampleClock

/-- The user `n` pays the user `m`. -/
def pairPay (n m : ℕ) (key : String) : Caller × TransferInput :=
  (⟨(pairId n).text, padded 2 n, "transfer:create", key, key⟩,
    ⟨padded 2 n, padded 2 m, 10, "VND", "", key, utf8 key, [1]⟩)

/-- A transfer wants the account of the user number `n`, and another transfer holds it. -/
def seesWait (s : State (rowMachine sampleService .cut)) (i j n : ℕ) : Bool :=
  wants s i = some (.account (pairId n)) &&
    (s.call j).any fun c => decide (.account (pairId n) ∈ c.loc.held)

theorem waits_of_seesWait {s : State (rowMachine sampleService .cut)} {i j n : ℕ} (hij : i ≠ j)
    (h : seesWait s i j n = true) : Waits s i j := by
  obtain ⟨hwants, hholds⟩ := Bool.and_eq_true_iff.mp h
  obtain ⟨c, hc, hheld⟩ := (Option.any_eq_true _ _).mp hholds
  exact ⟨hij, _, of_decide_eq_true hwants, c, hc, of_decide_eq_true hheld⟩

/-- An order of the accounts and users of the sample: the first user's come first. -/
def pairOrder (k k' : Key) : Prop :=
  [.account (pairId 1), .user (pairId 1), .account (pairId 2), .user (pairId 2)].idxOf k <
    [Key.account (pairId 1), .user (pairId 1), .account (pairId 2), .user (pairId 2)].idxOf k'

instance : IsStrictOrder Key pairOrder where
  irrefl _ := Nat.lt_irrefl _
  trans _ _ _ := Nat.lt_trans

instance (k k' : Key) : Decidable (pairOrder k k') := inferInstanceAs (Decidable (_ < _))

/-- Two payments of one user to the other: the second one waits, and there is no circle. -/
theorem waits_acyclic_of_pair : ∃ s : State (rowMachine sampleService .cut), Reachable pairEnv s ∧
    Waits s 1 0 ∧ ∀ i, ¬ Relation.TransGen (Waits s) i i := by
  have hruns : (runAll ⟨pairEnv, ∅⟩ ([.spawn 0 (pairPay 1 2 "k"), .spawn 1 (pairPay 1 2 "l")] ++
      List.replicate 9 (.run 0 {}) ++ [.run 1 {}])).map (fun s => seesWait s 1 0 1) =
    some true := by decide +kernel
  obtain ⟨s, hs, hwait⟩ := steps_of_view hruns
  refine ⟨s, ⟨_, hs⟩, waits_of_seesWait (by decide) hwait,
    waits_acyclic (r := pairOrder) ⟨_, hs⟩ fun i c hc => ?_⟩
  -- both transfers lock the rows of the first user before those of the second one
  have hrows : (transferRows pairEnv.db (pairPay 1 2 "k").2).Pairwise pairOrder := by decide +kernel
  have hrows' : (transferRows pairEnv.db (pairPay 1 2 "l").2).Pairwise pairOrder := by decide +kernel
  have hq := hs.spawned hc
  simp only [List.cons_append, List.nil_append, List.mem_cons, List.mem_append,
    List.mem_replicate, reduceCtorEq, and_false, List.not_mem_nil, or_false, Act.spawn.injEq] at hq
  obtain ⟨-, hq⟩ | ⟨-, hq⟩ := hq
  · rw [hq]
    exact inOrder_of_pairwise hrows
  · rw [hq]
    exact inOrder_of_pairwise hrows'

/-- The users pay each other at one time, and each transfer waits for the other one. -/
theorem transfers_wait_in_circle : ¬ ∀ (svc : Service) (rounding : Rounding) (e₀ : Env)
    (s : State (rowMachine svc rounding)), Reachable e₀ s →
    ∀ i, ¬ Relation.TransGen (Waits s) i i := by
  intro hall
  have hruns : (runAll ⟨pairEnv, ∅⟩ ([.spawn 0 (pairPay 1 2 "k"), .spawn 1 (pairPay 2 1 "l")] ++
      List.replicate 5 (.run 0 {}) ++ List.replicate 5 (.run 1 {}))).map (fun s =>
        seesWait s 0 1 2 && seesWait s 1 0 1) = some true := by decide +kernel
  obtain ⟨s, hs, hwait⟩ := steps_of_view hruns
  obtain ⟨hwait, hwait'⟩ := Bool.and_eq_true_iff.mp hwait
  exact hall _ _ _ s ⟨_, hs⟩ 0 (.tail (.single (waits_of_seesWait (by decide) hwait))
    (waits_of_seesWait (by decide) hwait'))

end Samples

end Bank
