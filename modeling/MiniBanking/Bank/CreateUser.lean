import MiniBanking.Bank.Service
import MiniBanking.Concurrency.Solo
import MiniBanking.Go.Rfc3339

/-!
# New users

A user is created together with an account whose number is a hash of the user id. The numbers are
unique, but there are fewer of them than users to come, so a new user is refused if another one
has the number already.

## Main definitions

* `CreateUserInput.Fits`: an input whose values the columns of `users` take
* `Served`: what the creation of a user should do
* `Choice.Healthy`: a statement that does not fail

## Main results

* `createUser_solo`: what the creation of a user does while the other calls stand still
* `createUser_served`: it does what it should exactly if the user exists, or the account number
  and the account id are free
-/

namespace Bank

open Concurrency Go Postgres

/-! ## What should happen -/

/-- The user has an id, an email and a name that fit into the columns of `users`. -/
structure CreateUserInput.Fits (input : CreateUserInput) (id : Uuid) (email fullName : String) :
    Prop where
  userID : uuidIn (trimSpace input.userID) = some id
  subjectEmail : varcharIn 255 (trimSpace input.subjectEmail) = some email
  fullName : varcharIn 255 (trimSpace input.fullName) = some fullName
  email_ne : trimSpace input.subjectEmail ≠ ""
  fullName_ne : trimSpace input.fullName ≠ ""

/-- The id or the email of a user is present. -/
def Db.Present (db : Db) (id : Uuid) (email : String) : Prop :=
  ∃ u ∈ db.users, u.id = id ∨ u.email = email

/-- An account with this id and number can be opened. -/
def Db.Free (db : Db) (id : Uuid) (number : String) : Prop :=
  ∀ a ∈ db.accounts, a.id ≠ id ∧ a.accountNumber ≠ number

/-- A user is created from nothing but a person: if the id and the email are new, there is one user
and one account more; if one of them is present, the caller is told so and nothing changes. -/
structure Served (db db' : Db) (id : Uuid) (email fullName : String)
    (result : Except Err CreateUserResult) : Prop where
  told : result = .error .userExists ↔ db.Present id email
  kept : db.Present id email → db' = db
  created : ¬ db.Present id email → (∃ r, result = .ok r) ∧
    ∃ u a, db' = { db with users := db.users ++ [u], accounts := db.accounts ++ [a] } ∧
      u.id = id ∧ u.email = email ∧ u.fullName = fullName ∧ a.userId = id

/-- The statement does not fail, and draws these random bytes. -/
structure Choice.Healthy (random : Uuid) (c : Choice) : Prop where
  fail : c.fail = false
  lost : c.lost = false
  random : c.random = random

/-- None of the other calls has a transaction open. -/
def Idle (others : List Conn) : Prop := ∀ l ∈ others, l.tx = none

/-! ## Statements of a call that runs alone -/

section Rules

variable {rounding : Rounding} {others : List Conn} {random : Uuid} {α : Type}
  {Q : α → Env → Conn → Prop} {e : Env} {l : Conn}

/-- The program of a call, while the other calls stand still and nothing fails, reaches `Q`. -/
abbrev Reaches (rounding : Rounding) (others : List Conn) (random : Uuid)
    (Q : α → Env → Conn → Prop) (p : Run α) (e : Env) (l : Conn) : Prop :=
  Program.Wp (W := world rounding) others (Choice.Healthy random) (Idle others) Q p e l

theorem reaches_now {f : Instant → Run α} (h : Reaches rounding others random Q (f e.clock) e l) :
    Reaches rounding others random Q (stmt .now >>= f) e l := by
  intro c _
  refine ⟨fun _ => Option.some_ne_none _, fun r e' l' hx => ?_⟩
  cases hx
  exact h

theorem reaches_random {f : Uuid → Run α} (h : Reaches rounding others random Q (f random) e l) :
    Reaches rounding others random Q (stmt .random >>= f) e l := by
  intro c hc
  refine ⟨fun _ => Option.some_ne_none _, fun r e' l' hx => ?_⟩
  cases hx
  rwa [hc.random]

theorem reaches_beginTx {isolation : Isolation} {f : Sql Unit → Run α}
    (h : Reaches rounding others random Q (f (.ok ())) e (.active (Tx.begin isolation))) :
    Reaches rounding others random Q (stmt (.beginTx isolation) >>= f) e .fresh := by
  intro c hc
  have hx : exec rounding others (.beginTx isolation) c e .fresh =
      some (.ok (), e, .active (Tx.begin isolation)) := by
    simp [exec, hc.fail]
  refine ⟨fun _ hnone => ?_, fun r e' l' hx' => ?_⟩
  · exact Option.some_ne_none _ (hx.symm.trans hnone)
  · cases hx.symm.trans hx'
    exact h

/-- A statement is refused, or has its effect. -/
theorem reaches_query {tx : Tx schema} (hiso : tx.isolation = .readCommitted)
    (ha : tx.aborted = false) {q : Query} {f : Sql q.Row → Run α}
    (hrefused : q.plan rounding (tx.view e.db) = none →
      Reaches rounding others random Q (f (.error .failed)) e (.active tx.abort))
    (hdone : ∀ eff, q.plan rounding (tx.view e.db) = some eff →
      Reaches rounding others random Q (f eff.reply) e (.active (tx.extend e.db eff))) :
    Reaches rounding others random Q (stmt (.query q) >>= f) e (.active tx) := by
  intro c hc
  have hx : exec rounding others (.query q) c e (.active tx) =
      (match q.plan rounding (tx.view e.db) with
      | none => some (.error .failed, e, .active tx.abort)
      | some eff =>
        if eff.locks.any fun k => (others.filterMap Conn.tx).any fun o => decide (k ∈ o.held)
        then none
        else some (eff.reply, e, .active (tx.extend e.db eff))) := by
    rw [exec_query, inTx, hc.fail, Tx.perform_readCommitted hiso ha]
    cases q.plan rounding (tx.view e.db) with
    | none => rfl
    | some eff =>
      dsimp only
      split <;> rfl
  cases hplan : q.plan rounding (tx.view e.db) with
  | none =>
    rw [hplan] at hx
    refine ⟨fun _ hnone => Option.some_ne_none _ (hx.symm.trans hnone), fun r e' l' hx' => ?_⟩
    cases hx.symm.trans hx'
    exact hrefused hplan
  | some eff =>
    rw [hplan] at hx
    dsimp only at hx
    refine ⟨fun hidle hnone => ?_, fun r e' l' hx' => ?_⟩
    · have hnobody : others.filterMap Conn.tx = [] := List.filterMap_eq_nil_iff.mpr hidle
      rw [hnobody, if_neg (by simp)] at hx
      exact Option.some_ne_none _ (hx.symm.trans hnone)
    · have hx' := hx.symm.trans hx'
      split at hx'
      · cases hx'
      · cases hx'
        exact hdone eff hplan

theorem reaches_commit {tx : Tx schema} (ha : tx.aborted = false) {f : Sql Unit → Run α}
    (h : Reaches rounding others random Q (f (.ok ())) { e with db := tx.commit e.db } .done) :
    Reaches rounding others random Q (stmt .commit >>= f) e (.active tx) := by
  intro c hc
  have hx : exec rounding others .commit c e (.active tx) =
      some (.ok (), { e with db := tx.commit e.db }, .done) := by
    simp [exec, ha, hc.fail, hc.lost]
  refine ⟨fun _ hnone => Option.some_ne_none _ (hx.symm.trans hnone), fun r e' l' hx' => ?_⟩
  cases hx.symm.trans hx'
  exact h

/-- The deferred rollback leaves the result and the environment as they are. -/
theorem reaches_rollback {p : Run α} {Q : α → Env → Prop}
    (h : Reaches rounding others random (fun a e _ => Q a e) p e l) :
    Reaches rounding others random (fun a e _ => Q a e) (p.deferred (stmt .rollback)) e l := by
  refine Program.Wp.bind (h.mono fun a e l hQ => ?_)
  intro c _
  have hx : ∃ l', exec rounding others .rollback c e l = some ((), e, l') := by
    cases l <;> exact ⟨_, rfl⟩
  obtain ⟨l', hx⟩ := hx
  refine ⟨fun _ hnone => Option.some_ne_none _ (hx.symm.trans hnone), fun r e' l' hx' => ?_⟩
  cases hx.symm.trans hx'
  exact hQ

end Rules

/-! ## The two inserts -/

section Inserts

variable {svc : Service} {rounding : Rounding} {view : Db} {id : Uuid} {email fullName : String}
  {input : CreateUserInput} {now : Instant}

theorem CreateUserInput.Fits.userID_ne (h : input.Fits id email fullName) :
    trimSpace input.userID ≠ "" := by
  intro hempty
  have huserID := h.userID
  rw [hempty, show uuidIn "" = none by decide] at huserID
  cases huserID

theorem any_present : view.users.any (fun u => u.id = id ∨ u.email = email) = true ↔
    view.Present id email := by
  simp [Db.Present]

/-- The row of a new user. -/
def newUser (rounding : Rounding) (id : Uuid) (email fullName : String) (now : Instant) : User :=
  ⟨id, email, fullName, .active, rounding.toMicros now.ns⟩

/-- A user is refused exactly if the id or the email is present. -/
theorem insertUser_eq (h : input.Fits id email fullName) :
    insertUser rounding (trimSpace input.userID) (trimSpace input.subjectEmail)
      (trimSpace input.fullName) now view =
      if view.users.any (fun u => u.id = id ∨ u.email = email) then none
      else some (.write (S := schema) (.insertUser (newUser rounding id email fullName now))
        (.ok ())) := by
  simp only [insertUser, h.userID, h.subjectEmail, h.fullName, Option.bind_eq_bind,
    Option.bind_some]
  rfl

/-- The number of a new account. -/
def drawnNumber (svc : Service) (input : CreateUserInput) : String :=
  svc.accountNumberFromUser (trimSpace input.userID)

theorem uuidIn_drawnId (random : Uuid) : uuidIn (newUUID random) = some (drawnId random) := by
  rw [newUUID, uuidIn_text]
  rfl

/-- An account number has twelve digits. -/
theorem varcharIn_drawnNumber (svc : Service) (input : CreateUserInput) :
    varcharIn 30 (drawnNumber svc input) = some (drawnNumber svc input) := by
  rw [drawnNumber, Service.accountNumberFromUser]
  generalize hn : (_ % 10000000000 : ℕ) = n
  have hlt : n < 10 ^ 10 := hn ▸ Nat.mod_lt _ (by decide)
  have hlen : ("10" ++ padded 10 n).toList.length = 12 := by
    rw [String.toList_append, List.length_append, length_padded (by decide) hlt]
    rfl
  have hdigits : '\x00' ∉ ("10" ++ padded 10 n).toList := by
    rw [String.toList_append, List.mem_append]
    rintro (hmem | hmem)
    · exact absurd hmem (by decide)
    · exact absurd (isDigit_padded hmem) (by decide)
  rw [varcharIn, textIn, if_neg (by simpa using hdigits), Option.bind_some, if_pos (by omega)]

theorem newAccount_balance : 0 ≤ (50000000 : Int64) := by decide

/-- The row of a new account. -/
def newAccount (svc : Service) (rounding : Rounding) (random : Uuid) (input : CreateUserInput)
    (id : Uuid) (now : Instant) : Account where
  id := drawnId random
  userId := id
  accountNumber := drawnNumber svc input
  balance := 50000000
  dailyTransferLimit := 50000000
  currency := "VND"
  status := .active
  createdAt := rounding.toMicros now.ns
  version := 0
  balance_check := newAccount_balance

theorem any_taken {accountId : Uuid} {number : String} :
    view.accounts.any (fun a => a.id = accountId ∨ a.accountNumber = number) = true ↔
      ¬ view.Free accountId number := by
  simp only [Db.Free, List.any_eq_true, decide_eq_true_eq]
  push Not
  simp only [imp_iff_not_or, not_not, ne_eq]

/-- A new account of a user is refused exactly if its id or its number is taken. -/
theorem insertDefaultAccount_eq (h : input.Fits id email fullName) {random : Uuid}
    (huser : view.user id ≠ none) :
    insertDefaultAccount rounding (newUUID random) (trimSpace input.userID)
      (svc.accountNumberFromUser (trimSpace input.userID)) now view =
      if view.accounts.any
        (fun a => a.id = drawnId random ∨ a.accountNumber = drawnNumber svc input) then none
      else some (.write (S := schema)
        (.insertAccount (newAccount svc rounding random input id now)) (.ok ())) := by
  have hnumber := varcharIn_drawnNumber svc input
  rw [drawnNumber] at hnumber
  simp only [insertDefaultAccount, h.userID, uuidIn_drawnId, hnumber, Option.bind_eq_bind,
    Option.bind_some, huser, or_false]
  rfl

end Inserts

/-! ## The creation of a user -/

section Creation

variable (svc : Service) (rounding : Rounding) (random : Uuid) (input : CreateUserInput)
  (id : Uuid) (email fullName : String)

/-- What the creation of a user does to a database: the user is there, or the account cannot be
opened, or both rows are added. -/
inductive Created (now : Instant) (db : Db) : Except Err CreateUserResult → Db → Prop where
  | present (h : db.Present id email) : Created now db (.error .userExists) db
  | taken (h : ¬ db.Present id email) (h' : ¬ db.Free (drawnId random) (drawnNumber svc input)) :
      Created now db (.error (.wrapped "create default account")) db
  | done (h : ¬ db.Present id email) (h' : db.Free (drawnId random) (drawnNumber svc input)) :
      Created now db (.ok ⟨trimSpace input.userID, "active", now⟩)
        { db with
          users := db.users ++ [newUser rounding id email fullName now]
          accounts := db.accounts ++ [newAccount svc rounding random input id now] }

variable {svc rounding random input id email fullName}

/-- The creation does what it should exactly if the user exists, or the account number and the
account id are free. -/
theorem Created.served_iff {now : Instant} {db db' : Db} {r : Except Err CreateUserResult}
    (h : Created svc rounding random input id email fullName now db r db') :
    Served db db' id email fullName r ↔
      db.Present id email ∨ db.Free (drawnId random) (drawnNumber svc input) := by
  cases h with
  | present hp => exact iff_of_true ⟨by simp [hp], fun _ => rfl, fun h => absurd hp h⟩ (.inl hp)
  | taken hp hf =>
    refine iff_of_false (fun hserved => ?_) (fun h => h.elim hp hf)
    obtain ⟨⟨_, hok⟩, -⟩ := hserved.created hp
    cases hok
  | done hp hf =>
    refine iff_of_true ⟨by simp [hp], fun h => absurd h hp, fun _ => ⟨⟨_, rfl⟩, ?_⟩⟩ (.inr hf)
    exact ⟨_, _, rfl, rfl, rfl, rfl, rfl⟩

variable {others : List Conn} {e : Env}

/-- The transaction of a new user. -/
theorem createUserTx_reaches (h : input.Fits id email fullName) :
    Reaches rounding others random
      (fun r e' _ => Created svc rounding random input id email fullName e.clock e.db r e'.db)
      (svc.createUserTx (trimSpace input.userID) (trimSpace input.subjectEmail)
        (trimSpace input.fullName)) e (.active (Tx.begin .readCommitted)) := by
  unfold Service.createUserTx
  refine reaches_now ?_
  refine reaches_query rfl rfl (fun hrefused => ?_) fun eff hdone => ?_
  · have hplan : insertUser rounding _ _ _ e.clock e.db = none := hrefused
    rw [insertUser_eq h] at hplan
    split at hplan
    · next hp => exact .present (any_present.mp hp)
    · cases hplan
  have hplan : insertUser rounding _ _ _ e.clock e.db = some eff := hdone
  rw [insertUser_eq h] at hplan
  split at hplan
  · cases hplan
  next hp =>
  have hp : ¬ e.db.Present id email := fun h => hp (any_present.mpr h)
  obtain rfl := Option.some.inj hplan
  refine reaches_random ?_
  -- the second insert sees the new user
  have hview : ((Tx.begin .readCommitted : Tx schema).extend e.db
      (.write (S := schema) (.insertUser (newUser rounding id email fullName e.clock))
        (.ok () : Sql Unit))).view e.db =
      { e.db with users := e.db.users ++ [newUser rounding id email fullName e.clock] } := rfl
  have huser : Db.user
      { e.db with users := e.db.users ++ [newUser rounding id email fullName e.clock] } id ≠ none := by
    simp [Db.user, newUser]
  refine reaches_query rfl rfl (fun hrefused => ?_) fun eff hdone => ?_
  · rw [hview] at hrefused
    have hplan : insertDefaultAccount rounding _ _ _ e.clock _ = none := hrefused
    rw [insertDefaultAccount_eq h huser] at hplan
    split at hplan
    · next hf => exact .taken hp (any_taken.mp hf)
    · cases hplan
  rw [hview] at hdone
  have hplan : insertDefaultAccount rounding _ _ _ e.clock _ = some eff := hdone
  rw [insertDefaultAccount_eq h huser] at hplan
  split at hplan
  · cases hplan
  next hf =>
  have hf : e.db.Free (drawnId random) (drawnNumber svc input) :=
    not_not.mp fun h => hf (any_taken.mpr h)
  obtain rfl := Option.some.inj hplan
  exact reaches_commit rfl (.done hp hf)

/-- **The creation of a user**, while the other calls stand still. -/
theorem createUser_reaches (hsvc : svc.configured = true) (h : input.Fits id email fullName) :
    Reaches rounding others random
      (fun r e' _ => Created svc rounding random input id email fullName e.clock e.db r e'.db)
      (svc.createUser input) e .fresh := by
  rw [Service.createUser, hsvc]
  simp only [Bool.not_true, Bool.false_eq_true, if_false, h.userID_ne, h.email_ne, h.fullName_ne,
    or_false]
  exact reaches_beginTx (reaches_rollback (createUserTx_reaches h))

end Creation

/-! ## Calls -/

/-- A call that is made, and runs while the others stand still. -/
theorem runAll_spawn {svc : Service} {rounding : Rounding} {s : State (serviceMachine svc rounding)}
    {i : ℕ} (hi : s.call i = none) (q : Request) (choices : List Choice) :
    (runAll s (.spawn i q :: Act.all i choices)).map
        (fun t => (t.env, (t.call i).map fun c => (c.rest, c.loc))) =
      (Program.solo (W := world rounding) (s.others i) (svc.program q) choices s.env .fresh).map
        fun (p', e', l') => (e', some (p', l')) := by
  have hspawn : next s (.spawn i q) = some (s.put i ⟨q, svc.program q, .fresh, []⟩) := by
    simp [next, hi]
  rw [runAll_cons, hspawn, Option.bind_some, runAll_solo (State.call_put_self _ _ _),
    State.others_put]
  rfl

/-- **A new user is served exactly if the account can be opened.** In every state, whatever other
calls are in progress, a call of `CreateUser` that runs without a failure does what it should
exactly if the user is present, or no account has the number or the id that is drawn. It returns
if no other transaction is open. -/
theorem createUser_served (svc : Service) (hsvc : svc.configured = true) (rounding : Rounding)
    (s : State (serviceMachine svc rounding)) (i : ℕ) (hi : s.call i = none)
    (input : CreateUserInput) (id : Uuid) (email fullName : String)
    (hfits : input.Fits id email fullName) (random : Uuid) :
    (Idle (s.others i) → ∀ choices : ℕ → Choice, (∀ n, (choices n).Healthy random) →
      ∃ n t r, runAll s (.spawn i (.createUser input) ::
        Act.all i ((List.range n).map choices)) = some t ∧
          t.result i = some (.createUser r)) ∧
    ∀ (choices : List Choice) t r, (∀ c ∈ choices, c.Healthy random) →
      runAll s (.spawn i (.createUser input) :: Act.all i choices) = some t →
      t.result i = some (.createUser r) →
      (Served s.env.db t.env.db id email fullName r ↔
        s.env.db.Present id email ∨
          s.env.db.Free (drawnId random) (drawnNumber svc input)) := by
  have hreaches : Reaches rounding (s.others i) random
      (fun a e' _ => ∃ r, a = Result.createUser r ∧
        Created svc rounding random input id email fullName s.env.clock s.env.db r e'.db)
      (svc.program (.createUser input)) s.env .fresh :=
    Program.Wp.bind ((createUser_reaches hsvc hfits).mono fun r e l h => ⟨r, rfl, h⟩)
  constructor
  · intro hidle choices hhealthy
    obtain ⟨n, a, e', l', hsolo⟩ := hreaches.total hidle hhealthy
    obtain ⟨r, rfl, -⟩ := hreaches.sound
      (fun c hc => by
        obtain ⟨k, -, rfl⟩ := List.mem_map.mp hc
        exact hhealthy k) hsolo
    have hrun := runAll_spawn hi (.createUser input) ((List.range n).map choices)
    rw [hsolo] at hrun
    obtain ⟨t, ht, hview⟩ := Option.map_eq_some_iff.mp hrun
    obtain ⟨c, hc, hrest⟩ := Option.map_eq_some_iff.mp (Prod.mk.inj hview).2
    refine ⟨n, t, r, ht, ?_⟩
    rw [State.result, hc, Option.bind_some, (Prod.mk.inj hrest).1]
    rfl
  · intro choices t r hhealthy ht hr
    have hrun := runAll_spawn hi (.createUser input) choices
    rw [ht] at hrun
    obtain ⟨⟨p', e', l'⟩, hsolo, hview⟩ := Option.map_eq_some_iff.mp hrun.symm
    obtain ⟨henv, hcall⟩ := Prod.mk.inj hview
    obtain ⟨c, hc, hrest⟩ := Option.map_eq_some_iff.mp hcall.symm
    rw [State.result, hc, Option.bind_some, (Prod.mk.inj hrest).1] at hr
    rw [Program.eq_ret_of_result hr] at hsolo
    obtain ⟨r', hr', hcreated⟩ := hreaches.sound hhealthy hsolo
    cases hr'
    rw [← henv]
    exact hcreated.served_iff

/-- The first user of the sample deployment is served. -/
theorem createUser_served_of_sample : ∃ (t : State (serviceMachine sampleService .cut)) (r : _),
    t.result 0 = some (.createUser r) ∧
      Served Db.empty t.env.db (Vector.replicate 16 1) "01" "User" r := by
  have hfits : CreateUserInput.Fits ⟨sampleUser 1, "01", "User"⟩ (Vector.replicate 16 1)
      "01" "User" := ⟨by decide +kernel, by decide +kernel, by decide +kernel, by decide +kernel,
    by decide +kernel⟩
  have hhealthy : ({ random := Vector.replicate 16 1 : Choice }).Healthy (Vector.replicate 16 1) :=
    ⟨rfl, rfl, rfl⟩
  obtain ⟨hreturns, hserved⟩ := createUser_served sampleService rfl .cut sampleStart 0 rfl
    ⟨sampleUser 1, "01", "User"⟩ (Vector.replicate 16 1) "01" "User" hfits (Vector.replicate 16 1)
  obtain ⟨n, t, r, ht, hr⟩ := hreturns (fun l hl => absurd hl List.not_mem_nil) _ fun _ => hhealthy
  refine ⟨t, r, hr, (hserved _ t r ?_ ht hr).mpr (.inr ?_)⟩
  · intro c hc
    obtain ⟨_, -, rfl⟩ := List.mem_map.mp hc
    exact hhealthy
  · exact fun a ha => absurd ha List.not_mem_nil

/-! ## Two users with one number -/

/-- The user whose account number is taken by `laterUser` too. -/
def earlierUser : String := "00000000-0000-4000-8000-00000000e381"

/-- The user whose account number is the one of `earlierUser`. -/
def laterUser : String := "00000000-0000-4000-8000-000000018b9f"

/-- A deployment with the SHA-256 of the two users. -/
def collidingService : Service where
  sha256 bytes :=
    if bytes = utf8 earlierUser then
      #v[69, 136, 45, 209, 72, 239, 141, 165, 233, 204, 192, 186, 254, 23, 91, 163,
      130, 248, 89, 220, 196, 130, 171, 16, 37, 230, 133, 162, 102, 228, 223, 235]
    else
      #v[224, 172, 110, 31, 144, 239, 206, 154, 252, 109, 225, 21, 155, 108, 134, 38,
      24, 75, 224, 131, 190, 2, 159, 131, 82, 37, 160, 181, 250, 247, 8, 127]

/-- The choices of a call that opens an account with these random bytes. -/
def drawing (random : Uuid) (n : ℕ) : List Choice := List.replicate n { random : Choice }

theorem drawing_healthy {random : Uuid} {n : ℕ} {c : Choice} (h : c ∈ drawing random n) :
    c.Healthy random := by
  rw [(List.mem_replicate.mp h).2]
  exact ⟨rfl, rfl, rfl⟩

/-- The user `earlierUser` is created, then the other one. -/
def earlierCreated : List (Act (serviceMachine collidingService .cut)) :=
  .spawn 0 (.createUser ⟨earlierUser, "01", "User"⟩) ::
    Act.all 0 (drawing (Vector.replicate 16 1) 7)

/-- The user `laterUser`, as an input. -/
def laterInput : CreateUserInput := ⟨laterUser, "02", "User"⟩

/-- The creation of `laterUser`, which ends early. -/
def laterCreated : List (Act (serviceMachine collidingService .cut)) :=
  .spawn 1 (.createUser laterInput) :: Act.all 1 (drawing (Vector.replicate 16 2) 6)

/-- The error with which a user was refused. -/
def Result.refusal : Result → Option Err
  | .createUser (.error err) => some err
  | _ => none

/-- The id of `laterUser`. -/
def laterId : Uuid := #v[0, 0, 0, 0, 0, 0, 64, 0, 128, 0, 0, 0, 0, 1, 139, 159]

theorem laterInput_fits : laterInput.Fits laterId "02" "User" where
  userID := by decide +kernel
  subjectEmail := by decide +kernel
  fullName := by decide +kernel
  email_ne := by decide +kernel
  fullName_ne := by decide +kernel

/-- **Another customer's number**: the later user is refused, though there is no such user. -/
theorem laterUser_not_served : ¬ ∀ svc : Service, svc.configured = true →
    ∀ (rounding : Rounding) (clock : Instant) (s : State (serviceMachine svc rounding)),
      Reachable (Env.initial clock) s → ∀ i, s.call i = none →
      ∀ (input : CreateUserInput) (id : Uuid) (email fullName : String),
        input.Fits id email fullName → ∀ (random : Uuid) (choices : List Choice) t r,
          (∀ c ∈ choices, c.Healthy random) →
          runAll s (.spawn i (.createUser input) :: Act.all i choices) = some t →
          t.result i = some (.createUser r) → Served s.env.db t.env.db id email fullName r := by
  intro hall
  have hfirst : (runAll ⟨Env.initial sampleClock, ∅⟩ earlierCreated).map
      (fun s => (s.env.db.users.any (fun u => u.id = laterId ∨ u.email = "02"),
        (s.call 1).isNone)) = some (false, true) := by decide +kernel
  have hboth : (runAll ⟨Env.initial sampleClock, ∅⟩ (earlierCreated ++ laterCreated)).map
      (fun t => (t.result 1).map Result.refusal) =
      some (some (some (.wrapped "create default account"))) := by decide +kernel
  obtain ⟨s, hs, hview⟩ := Option.map_eq_some_iff.mp hfirst
  obtain ⟨hnew, hcall⟩ := Prod.mk.inj hview
  rw [runAll_append, hs, Option.bind_some] at hboth
  obtain ⟨t, ht, hview⟩ := Option.map_eq_some_iff.mp hboth
  obtain ⟨result, hresult, herr⟩ := Option.map_eq_some_iff.mp hview
  cases result with
  | transfer => cases herr
  | createUser r =>
  have hserved := hall collidingService rfl .cut sampleClock s (reachable_of_runAll hs) 1
    (Option.isNone_iff_eq_none.mp hcall) laterInput laterId "02" "User" laterInput_fits _ _ t r
    (fun c hc => drawing_healthy hc) ht hresult
  have hnew : ¬ s.env.db.Present laterId "02" := fun h =>
    Bool.false_ne_true (hnew.symm.trans (any_present.mpr h))
  obtain ⟨⟨r', rfl⟩, -⟩ := hserved.created hnew
  cases herr

end Bank
