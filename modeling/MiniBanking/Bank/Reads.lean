import MiniBanking.Bank.AdminSession
import MiniBanking.Bank.Conservation
import MiniBanking.Bank.HistoryPages

/-!
# What a client is shown

`GetBalance` and `GetHistory` read without a transaction, while transfers commit. What they show is
still what one database of the run holds, read after the AP exchange, and it is the client's own:
the profile and the balance come from one statement, and the rows of a history page from another.

## Main definitions

* `ReadAfter`: a statement after some others found an environment of a kind
* `BalanceShown`, `HistoryShown`: what a result says of the database it was read from

## Main results

* `readMethod_follows`: a method that reads shows what its call of the service read
* `balance_sound`, `history_sound`: results of every reachable state of interleaved calls
-/

namespace Bank

open Concurrency Go Kerberos Postgres

/-! ## What is shown -/

/-- A balance result shows the account `a` of the database, which belongs to the user `u`, the
client. It is the account that was asked for, or the client's oldest. -/
structure BalanceShown (clientID accountID : String) (res : BalanceResult) (db : Db) (a : Account)
    (u : User) : Prop where
  account : a ∈ db.accounts
  user : db.user a.userId = some u
  owner : u.id.text = clientID
  asked : trimSpace accountID ≠ "" → uuidIn accountID = some a.id
  oldest : trimSpace accountID = "" →
    ∀ b ∈ db.accounts, b.userId = a.userId → a.createdAt ≤ b.createdAt
  accountID : res.accountID = a.id.text
  accountNumber : res.accountNumber = a.accountNumber
  balance : res.balance = a.balance
  currency : res.currency = a.currency
  status : res.status = a.status.text
  limit : res.limit = a.dailyTransferLimit
  fullName : res.fullName = u.fullName
  email : res.email = u.email
  userStatus : res.userStatus = u.status.text

/-- The page of a history shows the newest rows of the account with this id, after the offset. -/
structure HistoryShown (id : Uuid) (res : HistoryResult) (db : Db) : Prop where
  rows : ∃ answer, Answers (·.createdAt) (db.history id) answer ∧
    res.records = (page res.limit res.offset answer).map .of
  limit : res.limit ≤ 100
  total : res.total.toInt ≤ (db.history id).length

/-- After the statements `start`, a statement found an environment in `P`. -/
def ReadAfter {rounding : Rounding} (start log : Log rounding) (P : Env → Prop) : Prop :=
  ∃ before ev after, log = before ++ ev :: after ∧ start <+: before ∧ P ev.env

section ReadAfter

variable {rounding : Rounding} {start log log' : Log rounding} {P : Env → Prop}

/-- What was read stays read. -/
theorem ReadAfter.mono (h : ReadAfter start log P) (hle : log <+: log') :
    ReadAfter start log' P := by
  obtain ⟨before, ev, after, rfl, hstart, hP⟩ := h
  obtain ⟨tail, rfl⟩ := hle
  exact ⟨before, ev, after ++ tail, by simp, hstart, hP⟩

theorem ReadAfter.last {ev : Event (world rounding)} (hstart : start <+: log) (hP : P ev.env) :
    ReadAfter start (log ++ [ev]) P :=
  ⟨log, ev, [], rfl, hstart, hP⟩

end ReadAfter

/-! ## Reading rows -/

section Rows

variable {db : Db} {p : AccountProfile} {a : Account}

theorem profile_cases (h : db.profile a = .ok p) : ∃ u, db.user a.userId = some u ∧
    p = ⟨u.id.text, u.fullName, u.email, u.status.text, a.id.text, a.accountNumber, a.balance,
      a.dailyTransferLimit, a.currency, a.status.text⟩ := by
  unfold Db.profile at h
  split at h
  · cases h
  · next u hu => exact ⟨u, hu, (Except.ok.inj h).symm⟩

/-- The account of an id is the one that has it. -/
theorem getAccountProfileByID_cases {accountID : String}
    (h : getAccountProfileByID accountID db = .ok p) :
    ∃ a ∈ db.accounts, uuidIn accountID = some a.id ∧ db.profile a = .ok p := by
  unfold getAccountProfileByID at h
  split at h
  · cases h
  next id hid =>
  split at h
  · cases h
  next a ha =>
  obtain ⟨hmem, rfl⟩ := Db.mem_of_account ha
  exact ⟨a, hmem, hid, h⟩

/-- The default account of a user is the oldest. -/
theorem getDefaultAccountProfileByUser_cases {userID : String}
    (h : getDefaultAccountProfileByUser userID db = .ok p) :
    ∃ a ∈ db.accounts, (∀ b ∈ db.accounts, b.userId = a.userId → a.createdAt ≤ b.createdAt) ∧
      db.profile a = .ok p := by
  unfold getDefaultAccountProfileByUser at h
  split at h
  · cases h
  next id hid =>
  split at h
  · cases h
  next a rest hsorted =>
  have hperm := List.perm_insertionSort (·.createdAt ≤ ·.createdAt)
    (db.accounts.filter (·.userId = id))
  rw [hsorted] at hperm
  have hpair := List.pairwise_insertionSort (·.createdAt ≤ ·.createdAt)
    (db.accounts.filter (·.userId = id))
  rw [hsorted, List.pairwise_cons] at hpair
  obtain ⟨hmem, hid⟩ := List.mem_filter.mp (hperm.mem_iff.mp List.mem_cons_self)
  refine ⟨a, hmem, fun b hb hsame => ?_, h⟩
  have hin : b ∈ a :: rest := hperm.mem_iff.mpr (List.mem_filter.mpr ⟨hb, by simp_all⟩)
  rcases List.mem_cons.mp hin with rfl | hin
  · exact le_refl _
  · exact hpair.1 b hin

end Rows

/-! ## Calls of the service -/

section Calls

variable {rounding : Rounding} {e e' : Env} {l l' : Conn} {log start : Log rounding}

/-- A lookup that did not fail read the database. -/
theorem read_of_reply {q : Lookup} {c : Choice} {db : Db} {r : q.Row}
    (h : (if c.fail = true then .error .failed else q.read rounding c.order db) =
      (.ok r : Sql q.Row)) :
    q.read rounding c.order db = .ok r := by
  split at h
  · cases h
  · exact h

theorem exec_lookup {others : List Conn} {q : Lookup} {c : Choice} {r : q.Row}
    (h : exec rounding others (.lookup q) c e l = some (.ok r, e', l')) :
    q.read rounding c.order e.db = .ok r :=
  read_of_reply (Prod.mk.inj (Option.some.inj h)).1

/-- The statements of a reading call, which only extend what its call has issued. -/
abbrev Reads {α : Type} (P : α → Env → Prop) (start : Log rounding) (p : Run (Except Err α))
    (log : Log rounding) (e : Env) (l : Conn) : Prop :=
  Follows rounding (fun _ s _ _ => s.plain = true)
    (fun log' r _ _ => log <+: log' ∧ ∀ a, r = .ok a → ReadAfter start log' (P a)) p log e l

/-- A reading call that goes on without a lookup shows nothing. -/
theorem reads_error {α : Type} {P : α → Env → Prop} {err : Err} {log₀ : Log rounding}
    (hle : log₀ <+: log) :
    Follows rounding (fun _ s _ _ => s.plain = true)
      (fun log' r _ _ => log₀ <+: log' ∧ ∀ a, r = Except.ok a → ReadAfter start log' (P a))
      (pure (.error err)) log e l :=
  follows_ret fun _ _ => ⟨hle, fun _ hr => nomatch hr⟩

/-- A caller that does not own what was read is refused after an audit event. -/
theorem reads_forbidden {α : Type} {P : α → Env → Prop} {event : AuditEvent} {err : Err}
    {log₀ : Log rounding} (hle : log₀ <+: log) :
    Follows rounding (fun _ s _ _ => s.plain = true)
      (fun log' r _ _ => log₀ <+: log' ∧ ∀ a, r = Except.ok a → ReadAfter start log' (P a))
      (stmt (.audit event) >>= fun _ => pure (.error err)) log e l := by
  refine follows_stmt fun e₁ hr₁ => ⟨rfl, fun others c r e₂ l₂ hx => ?_⟩
  exact reads_error (hle.trans (List.prefix_append _ _))

/-- A profile is that of the account that was asked for, or of the client's oldest. -/
structure ProfileShown (accountID : String) (p : AccountProfile) (db : Db) (a : Account) :
    Prop where
  account : a ∈ db.accounts
  asked : trimSpace accountID ≠ "" → uuidIn accountID = some a.id
  oldest : trimSpace accountID = "" →
    ∀ b ∈ db.accounts, b.userId = a.userId → a.createdAt ≤ b.createdAt
  profile : db.profile a = .ok p

/-- **A balance is what one statement read.** -/
theorem getBalance_reads (caller : Caller) (accountID : String) (hstart : start <+: log) :
    Reads (fun res env => ∃ a u, BalanceShown caller.clientID accountID res env.db a u) start
      (Service.getBalance caller accountID) log e l := by
  unfold Service.getBalance
  -- whichever profile was looked up, the rest is the same
  extract_lets rest
  have hrest : ∀ (reply : Sql AccountProfile) (log₁ : Log rounding) (e : Env), log <+: log₁ →
      (∀ p, reply = .ok p → ReadAfter start log₁ fun env =>
        ∃ a, ProfileShown accountID p env.db a) →
      Follows rounding (fun _ s _ _ => s.plain = true)
        (fun log' r _ _ => log <+: log' ∧ ∀ res, r = Except.ok res → ReadAfter start log'
          fun env => ∃ a u, BalanceShown caller.clientID accountID res env.db a u)
        (rest reply) log₁ e l := by
    intro reply log₁ e hle hread
    show Follows _ _ _ (if isNoRows reply = true then _ else _) _ _ _
    split
    · exact reads_error hle
    cases reply with
    | error _ => exact reads_error hle
    | ok p =>
      show Follows _ _ _ (if p.ownerID ≠ caller.clientID then _ else _) _ _ _
      split
      · exact reads_forbidden hle
      next howner =>
      refine follows_now (fun _ => rfl) fun e₁ hr₁ => ?_
      refine follows_now (fun _ => rfl) fun e₂ hr₂ => ?_
      refine follows_stmt fun e₃ hr₃ => ⟨rfl, fun others c sum e₄ l₄ hx => ?_⟩
      have hle' : log₁ <+: log₁ ++ [Event.mk Stmt.now e₁ e₁.clock] ++
          [Event.mk Stmt.now e₂ e₂.clock] ++ [Event.mk (Stmt.lookup _) e₃ sum] := by
        simp only [List.append_assoc]
        exact List.prefix_append _ _
      refine follows_ret fun e₅ hr₅ => ⟨hle.trans hle', fun res hres => ?_⟩
      obtain rfl := Except.ok.inj hres
      -- the result has the fields of the profile
      obtain ⟨before, ev, after, hlog, hpre, a, hshown⟩ := (hread p rfl).mono hle'
      obtain ⟨u, hu, rfl⟩ := profile_cases hshown.profile
      exact ⟨before, ev, after, hlog, hpre, a, u, {
        account := hshown.account
        user := hu
        owner := not_not.mp howner
        asked := hshown.asked
        oldest := hshown.oldest
        accountID := rfl
        accountNumber := rfl
        balance := rfl
        currency := rfl
        status := rfl
        limit := rfl
        fullName := rfl
        email := rfl
        userStatus := rfl }⟩
  split
  · next hblank =>
    refine follows_stmt fun e₁ hr₁ => ⟨rfl, fun others c reply e₂ l₂ hx => ?_⟩
    cases hx
    refine hrest _ _ _ (List.prefix_append _ _) fun p hp => ?_
    refine ReadAfter.last hstart ?_
    obtain ⟨a, ha, hold, hprofile⟩ := getDefaultAccountProfileByUser_cases
      (read_of_reply (q := .getDefaultAccountProfileByUser caller.clientID) (c := c) hp)
    exact ⟨a, ha, fun h => absurd hblank h, fun _ => hold, hprofile⟩
  · next hblank =>
    refine follows_stmt fun e₁ hr₁ => ⟨rfl, fun others c reply e₂ l₂ hx => ?_⟩
    cases hx
    refine hrest _ _ _ (List.prefix_append _ _) fun p hp => ?_
    refine ReadAfter.last hstart ?_
    obtain ⟨a, ha, hid, hprofile⟩ := getAccountProfileByID_cases
      (read_of_reply (q := .getAccountProfileByID accountID) (c := c) hp)
    exact ⟨a, ha, fun _ => hid, fun h => absurd h hblank, hprofile⟩

theorem countHistory_cases {accountID : String} {db : Db} {total : Int32} {id : Uuid}
    (hid : uuidIn accountID = some id) (h : countHistory accountID db = .ok total) :
    total.toInt = (db.history id).length := by
  unfold countHistory at h
  rw [hid] at h
  simp only at h
  split at h
  · next hlt =>
    rw [← Except.ok.inj h]
    exact toInt_ofNat_of_lt hlt
  · cases h

theorem listHistory_cases {order : List ℕ} {accountID : String} {limit offset : ℕ} {db : Db}
    {records : List TransactionRecord} {id : Uuid} (hid : uuidIn accountID = some id)
    (h : listHistory order accountID limit offset db = .ok records) :
    ∃ answer, Answers (·.createdAt) (db.history id) answer ∧
      records = (page limit offset answer).map .of := by
  unfold listHistory at h
  rw [hid] at h
  exact ⟨_, answers_arrange order _, (Except.ok.inj h).symm⟩

/-- A limit that is asked for is kept within 1 and 100. -/
theorem limit_le (limit : Int32) :
    (if limit ≤ 0 ∨ 100 < limit then 20 else limit.toInt.toNat) ≤ 100 := by
  split
  · decide
  · next h =>
    have hle := not_lt.mp (mt Int32.lt_iff_toInt_lt.mpr (not_or.mp h).2)
    simp only [show (100 : Int32).toInt = 100 from rfl] at hle
    omega

/-- **A history page is what one statement read**, of an account that is the client's then. -/
theorem getHistory_reads (caller : Caller) (accountID : String) (limit offset : Int32)
    (hstart : start <+: log) :
    Reads (fun res env => ∃ a ∈ env.db.accounts, uuidIn accountID = some a.id ∧
        a.userId.text = caller.clientID ∧ HistoryShown a.id res env.db) start
      (Service.getHistory caller accountID limit offset) log e l := by
  unfold Service.getHistory
  refine follows_stmt fun e₁ hr₁ => ⟨rfl, fun others₁ c₁ owner e₁' l₁ hx₁ => ?_⟩
  have hle₁ := List.prefix_append log [Event.mk (Stmt.lookup (.getAccountOwner accountID)) e₁ owner]
  show Follows _ _ _ (if isNoRows owner = true then _ else _) _ _ _
  split
  · exact reads_error hle₁
  cases owner with
  | error _ => exact reads_error hle₁
  | ok ownerID =>
  show Follows _ _ _ (if ownerID ≠ caller.clientID then _ else _) _ _ _
  split
  · exact reads_forbidden hle₁
  next howner =>
  -- the account that has the id is the client's
  have hread := exec_lookup hx₁
  obtain ⟨a, ha, hid, hclient⟩ : ∃ a ∈ e₁.db.accounts, uuidIn accountID = some a.id ∧
      a.userId.text = ownerID := by
    simp only [Lookup.read, getAccountOwner] at hread
    split at hread
    · cases hread
    next id hid =>
    split at hread
    · cases hread
    next a ha =>
    obtain ⟨hmem, rfl⟩ := Db.mem_of_account ha
    exact ⟨a, hmem, hid, Except.ok.inj hread⟩
  obtain rfl : e₁ = e₁' := (Prod.mk.inj (Prod.mk.inj (Option.some.inj hx₁)).2).1
  refine follows_stmt fun e₂ hr₂ => ⟨rfl, fun others₂ c₂ total e₂' l₂ hx₂ => ?_⟩
  have hle₂ := hle₁.trans (List.prefix_append _
    [Event.mk (Stmt.lookup (.countHistory accountID)) e₂ total])
  cases total with
  | error _ => exact reads_error hle₂
  | ok total =>
  have htotal := countHistory_cases hid (exec_lookup hx₂)
  obtain rfl : e₂ = e₂' := (Prod.mk.inj (Prod.mk.inj (Option.some.inj hx₂)).2).1
  refine follows_stmt fun e₃ hr₃ => ⟨rfl, fun others₃ c₃ records e₃' l₃ hx₃ => ?_⟩
  have hle₃ := hle₂.trans (List.prefix_append _
    [Event.mk (Stmt.lookup (.listHistory accountID
      (if limit ≤ 0 ∨ 100 < limit then 20 else limit.toInt.toNat) offset.toInt.toNat)) e₃ records])
  cases records with
  | error _ => exact reads_error hle₃
  | ok records =>
  obtain ⟨answer, hanswer, hrecords⟩ := listHistory_cases hid (exec_lookup hx₃)
  refine follows_ret fun e₄ hr₄ => ⟨hle₃, fun res hres => ?_⟩
  obtain rfl := Except.ok.inj hres
  refine ReadAfter.last (hstart.trans hle₂) ?_
  -- rows are only added between the two readings, and the owner stays
  obtain ⟨a', ha', hstatic⟩ := (hr₂.grows.trans hr₃.grows).account ha
  simp only [Account.static, Prod.mk.injEq] at hstatic
  obtain ⟨hsame, huser, -⟩ := hstatic
  refine ⟨a', ha', hid.trans (congrArg some hsame.symm), ?_, ⟨answer, ?_, hrecords⟩,
    limit_le limit, ?_⟩
  · rw [huser, hclient, not_not.mp howner]
  · rw [hsame]
    exact hanswer
  · have hgrows : e₂.db.history a.id <+: e₃.db.history a.id := hr₃.grows.transactions.filter _
    rw [hsame, htotal]
    exact Int.ofNat_le.mpr hgrows.length_le

end Calls

/-! ## Calls of the handler -/

section Methods

variable {h : Handler} {rounding : Rounding} {q : ApRequest} {α β : Type} {e : Env} {l : Conn}
  {log : Log rounding}

/-- A plain program keeps what its call has issued. -/
theorem Plain.extends {p : Run α} (hp : Plain p) :
    Follows rounding (fun _ s _ _ => s.plain = true) (fun log' _ _ _ => log <+: log') p log e l :=
  ⟨((hp.meets log e l).prefixed List.prefix_rfl).mono (fun _ _ _ _ h => h.2)
    fun _ _ _ _ h => h.1⟩

/-- What a method that reads has done when it returns a result: its request passed the AP exchange
and was marked as seen, and then the call of the service read what is shown. -/
structure Answered (h : Handler) (ticketV authenticator : List UInt8) (scope : String)
    (P : String → α → Env → Prop) (response : List UInt8 → α → β) (log : Log rounding) (b : β)
    (x : ApExchange) : Prop where
  passed : x.Passed h ticketV authenticator scope
  marked : Marked log
  issued : x.log rounding <+: log
  shown : ∃ apRep a, b = response apRep a ∧ ReadAfter (x.log rounding) log (P x.ticket.clientID a)

/-- **A method that reads** shows what its call of the service read. -/
theorem readMethod_follows {ticketV authenticator : List UInt8} {scope operation : String}
    {call : Caller → Run (Except Err α)} {payload : AuthInfo → α → List (String × Json)}
    {response : List UInt8 → α → β} {P : String → α → Env → Prop}
    (hq : q.presented = some (ticketV, authenticator))
    (hcall : ∀ caller start (log : Log rounding) e l, start <+: log →
      Reads (P caller.clientID) start (call caller) log e l) :
    Follows rounding (HandlerPromise h rounding q)
      (fun log r _ _ => ∀ b, r = Except.ok b →
        ∃ x, Answered h ticketV authenticator scope P response log b x)
      (h.readMethod ticketV authenticator scope operation call payload response) [] e l := by
  unfold Handler.readMethod
  refine Follows.bind ((authorize_follows HandlerPromise.plain).mono (fun _ _ _ _ h => h) ?_)
  intro log₁ r e₁ l₁ hauth
  cases r with
  | error _ => exact follows_ret fun _ _ _ hr => nomatch hr
  | ok auth =>
  obtain ⟨rfl, x, hx, rfl, rfl, hfirst⟩ := hauth auth rfl
  refine Follows.bind ((markReplay_follows hq hx List.prefix_rfl hfirst x.unmarked).mono
    (fun _ _ _ _ h => h) ?_)
  rintro log₂ r e₂ l₂ ⟨rfl, hle, hmarked⟩
  cases r with
  | error _ => exact follows_ret fun _ _ _ hr => nomatch hr
  | ok _ =>
  refine Follows.bind ((hcall (callerFrom x.auth) (x.log rounding) log₂ e₂ l₂ hle).mono
    HandlerPromise.plain ?_)
  rintro log₃ r e₃ l₃ ⟨hle₃, hread⟩
  cases r with
  | error _ => exact follows_ret fun _ _ _ hr => nomatch hr
  | ok a =>
  refine Follows.bind ((encryptAPRep_plain _ _).extends.mono HandlerPromise.plain ?_)
  intro log₄ apRep e₄ l₄ hle₄
  cases apRep with
  | none => exact follows_ret fun _ _ _ hr => nomatch hr
  | some apRep =>
  refine follows_ret fun _ _ b hb => ⟨x, ?_⟩
  exact {
    passed := hx
    marked := (hmarked.mp rfl).mono (hle₃.trans hle₄)
    issued := hle.trans (hle₃.trans hle₄)
    shown := ⟨apRep, a, (Except.ok.inj hb).symm, (hread a rfl).mono hle₄⟩ }

end Methods

/-- What a balance shows of an environment. -/
def ShowsBalance (accountID clientID : String) (res : BalanceResult) (e : Env) : Prop :=
  ∃ a u, BalanceShown clientID accountID res e.db a u

/-- What a page of a history shows of an environment. -/
def ShowsHistory (accountID clientID : String) (res : HistoryResult) (e : Env) : Prop :=
  ∃ a ∈ e.db.accounts, uuidIn accountID = some a.id ∧ a.userId.text = clientID ∧
    HistoryShown a.id res e.db

/-- What a call of the handler that reads and has returned a result has done. -/
def ReadOutcome (h : Handler) (rounding : Rounding) : ApRequest → Log rounding → ApResult → Prop
  | .getBalance ticketV authenticator accountId, log, .getBalance (.ok b) =>
    ∃ x, Answered h ticketV authenticator scopeBalance (ShowsBalance accountId) Prod.mk log b x
  | .getHistory ticketV authenticator accountId _ _, log, .getHistory (.ok b) =>
    ∃ x, Answered h ticketV authenticator scopeHistory (ShowsHistory accountId) Prod.mk log b x
  | _, _, _ => True

/-- **The handler keeps its promises, and shows what it read.** -/
theorem reads_kept (h : Handler) (rounding : Rounding) :
    Kept h.svc rounding h.program (HandlerPromise h rounding)
      (fun q log r _ _ => ReadOutcome h rounding q log r) where
  meets q e := by
    refine Follows.meets ?_
    cases q with
    | getBalance ticketV authenticator accountId =>
      refine Follows.bind ((readMethod_follows (P := ShowsBalance accountId) rfl
        fun caller start log e l hstart => getBalance_reads caller accountId hstart).mono
          (fun _ _ _ _ h => h) ?_)
      intro log r e₁ l₁ hr
      refine follows_ret fun _ _ => ?_
      cases r with
      | error _ => trivial
      | ok b => exact hr b rfl
    | getHistory ticketV authenticator accountId limit offset =>
      refine Follows.bind ((readMethod_follows (P := ShowsHistory accountId) rfl
        fun caller start log e l hstart =>
          getHistory_reads caller accountId limit offset hstart).mono (fun _ _ _ _ h => h) ?_)
      intro log r e₁ l₁ hr
      refine follows_ret fun _ _ => ?_
      cases r with
      | error _ => trivial
      | ok b => exact hr b rfl
    | transferMoney | createAdminSession | createUser | requireAdminSession =>
      exact (Follows.mk ((handler_kept h rounding).meets _ e)).mono (fun _ _ _ _ h => h)
        fun _ _ _ _ _ => trivial
  commits := (handler_kept h rounding).commits

/-! ## Results of a run -/

section Run

variable {h : Handler} {rounding : Rounding} {clock : Instant}
  {s : State (handlerMachine h rounding)} {i : ℕ}

/-- What was read was there in a state on the way, no earlier than the statements before it. -/
theorem ReadAfter.state {c : Call (handlerMachine h rounding)} {start : Log rounding}
    {P : Env → Prop} (hs : Reachable (Env.initial clock) s) (hc : s.call i = some c)
    (hread : ReadAfter start c.log P) :
    ∃ u : State (handlerMachine h rounding), Reachable (Env.initial clock) u ∧ Leads u s ∧
      P u.env ∧ ∀ ev ∈ start, ev.env.clock ≤ u.env.clock := by
  obtain ⟨before, ev, after, hlog, hstart, hP⟩ := hread
  have hissued : s.Issued i ev := ⟨c, hc, by simp [hlog]⟩
  obtain ⟨u, hu, hleads, henv⟩ := hs.issued_from hissued
  refine ⟨u, hu, hleads, henv ▸ hP, fun ev' hev' => ?_⟩
  have hpair := (log_clock hs hc).1
  rw [hlog] at hpair
  rw [henv]
  exact (List.pairwise_append.mp hpair).2.2 ev' (hstart.subset hev') ev List.mem_cons_self

/-- The outcome of a call that is over. -/
theorem readOutcome {q : ApRequest} {result : ApResult} (hs : Reachable (Env.initial clock) s)
    (hq : s.request i = some q) (hr : s.result i = some result) :
    ∃ c, s.call i = some c ∧ ReadOutcome h rounding q c.log result := by
  obtain ⟨c, hc, rfl⟩ := Option.map_eq_some_iff.mp hq
  rw [State.result, hc] at hr
  obtain ⟨hself, hmeets⟩ := (reads_kept h rounding).reachable hs
  have hrest := hmeets i c hc
  rw [Program.eq_ret_of_result hr] at hrest
  exact ⟨c, hc, hrest s.env hself⟩

/-- **Sound balances.** In every state that interleaved calls of the handler can reach, a balance
that was returned is that of an account of the client that the ticket names, in one database that
the run had after the checks of the request, and it is the opening balance with what completed
transfers had brought and taken by then. -/
theorem balance_sound (h : Handler) (rounding : Rounding) (clock : Instant)
    (s : State (handlerMachine h rounding)) (hs : Reachable (Env.initial clock) s) (i : ℕ)
    (ticketV authenticator apRep : List UInt8) (accountId : String) (res : BalanceResult)
    (hq : s.request i = some (ApRequest.getBalance ticketV authenticator accountId))
    (hr : s.result i = some (ApResult.getBalance (.ok (apRep, res)))) :
    ∃ (x : ApExchange) (u : State (handlerMachine h rounding)) (a : Account) (user : User),
      x.Passed h ticketV authenticator "balance:read" ∧ Reachable (Env.initial clock) u ∧
      Leads u s ∧ (∀ ev ∈ x.log rounding, ev.env.clock ≤ u.env.clock) ∧
      BalanceShown x.ticket.clientID accountId res u.env.db a user ∧
      res.balance.toInt =
        50000000 + Db.received u.env.db a.id - Db.sent u.env.db a.id := by
  obtain ⟨c, hc, x, hx, -, hlog, apRep', res', heq, hread⟩ := readOutcome hs hq hr
  obtain ⟨-, rfl⟩ := Prod.mk.inj heq
  obtain ⟨u, hu, hleads, ⟨a, user, hshown⟩, hclock⟩ := hread.state hs hc
  refine ⟨x, u, a, user, hx, hu, hleads, hclock, hshown, ?_⟩
  rw [hshown.balance]
  exact ((handler_kept h rounding).history hu).balanced a hshown.account

/-- **Sound histories.** In every state that interleaved calls of the handler can reach, a page
that was returned shows at most 100 rows, the newest after the offset, of the transactions of an
account of the client that the ticket names, in one database that the run had after the checks of
the request, and the total is not more than there were. -/
theorem history_sound (h : Handler) (rounding : Rounding) (clock : Instant)
    (s : State (handlerMachine h rounding)) (hs : Reachable (Env.initial clock) s) (i : ℕ)
    (ticketV authenticator apRep : List UInt8) (accountId : String) (limit offset : Int32)
    (res : HistoryResult)
    (hq : s.request i = some (ApRequest.getHistory ticketV authenticator accountId limit offset))
    (hr : s.result i = some (ApResult.getHistory (.ok (apRep, res)))) :
    ∃ (x : ApExchange) (u : State (handlerMachine h rounding)) (a : Account),
      x.Passed h ticketV authenticator "history:read" ∧ Reachable (Env.initial clock) u ∧
      Leads u s ∧ (∀ ev ∈ x.log rounding, ev.env.clock ≤ u.env.clock) ∧
      a ∈ Db.accounts u.env.db ∧ uuidIn accountId = some a.id ∧
      a.userId.text = x.ticket.clientID ∧ HistoryShown a.id res u.env.db := by
  obtain ⟨c, hc, x, hx, -, hlog, apRep', res', heq, hread⟩ := readOutcome hs hq hr
  obtain ⟨-, rfl⟩ := Prod.mk.inj heq
  obtain ⟨u, hu, hleads, ⟨a, ha, hid, howner, hshown⟩, hclock⟩ := hread.state hs hc
  exact ⟨x, u, a, hx, hu, hleads, hclock, ha, hid, howner, hshown⟩

end Run

/-! ## A sample client -/

section Sample

/-- The account id of the sample user 1. -/
def sampleAccountID : String := newUUID (Vector.replicate 16 100)

/-- A user is created, and asks for the balance of its default account and for its history. -/
def sampleReads : List (Act (handlerMachine sampleHandler .cut)) :=
  handlerCall 0 (.createUser ⟨sampleUser 1, "01", "User"⟩) 7 ++
    handlerCall 1 (.getBalance (sampleTicket scopeBalance 1700000300)
      (sampleAuthenticator 1700000000) "") 11 ++
    handlerCall 2 (.getHistory (sampleTicket scopeHistory 1700000300)
      (sampleAuthenticator 1700000001) sampleAccountID 10 0) 10

/-- The balance that a call returned. -/
def ApResult.balance : ApResult → Option BalanceResult
  | .getBalance (.ok (_, res)) => some res
  | _ => none

/-- The page that a call returned. -/
def ApResult.page : ApResult → Option HistoryResult
  | .getHistory (.ok (_, res)) => some res
  | _ => none

theorem exists_of_balance {result : ApResult} {res : BalanceResult}
    (h : result.balance = some res) : ∃ apRep, result = .getBalance (.ok (apRep, res)) := by
  unfold ApResult.balance at h
  split at h
  · next apRep res' => exact ⟨apRep, by rw [Option.some.inj h]⟩
  · cases h

theorem exists_of_page {result : ApResult} {res : HistoryResult} (h : result.page = some res) :
    ∃ apRep, result = .getHistory (.ok (apRep, res)) := by
  unfold ApResult.page at h
  split at h
  · next apRep res' => exact ⟨apRep, by rw [Option.some.inj h]⟩
  · cases h

theorem sampleReads_runs : ∃ s, Steps handlerStart sampleReads s ∧
    ((s.request 1, ((s.result 1).bind ApResult.balance).map (·.balance)),
      s.request 2, ((s.result 2).bind ApResult.page).map (·.total)) =
      ((some (ApRequest.getBalance (sampleTicket scopeBalance 1700000300)
          (sampleAuthenticator 1700000000) ""), some 50000000),
        some (ApRequest.getHistory (sampleTicket scopeHistory 1700000300)
          (sampleAuthenticator 1700000001) sampleAccountID 10 0), some 0) :=
  steps_of_view (by decide +kernel)

/-- The sample client is shown its opening balance. -/
theorem balance_sound_of_sampleReads : ∃ s, Steps handlerStart sampleReads s ∧
    ∃ (x : ApExchange) (u : State (handlerMachine sampleHandler .cut)) (a : Account) (user : User)
      (res : BalanceResult),
      x.Passed sampleHandler (sampleTicket scopeBalance 1700000300)
        (sampleAuthenticator 1700000000) "balance:read" ∧
      Reachable (Env.initial sampleClock) u ∧ Leads u s ∧
      (∀ ev ∈ x.log .cut, ev.env.clock ≤ u.env.clock) ∧
      BalanceShown x.ticket.clientID "" res u.env.db a user ∧ res.balance.toInt =
        50000000 + Db.received u.env.db a.id - Db.sent u.env.db a.id := by
  obtain ⟨s, hs, hview⟩ := sampleReads_runs
  obtain ⟨hrequest, hshown⟩ := Prod.mk.inj (Prod.mk.inj hview).1
  obtain ⟨res, hres, -⟩ := Option.map_eq_some_iff.mp hshown
  obtain ⟨result, hresult, hbalance⟩ := Option.bind_eq_some_iff.mp hres
  obtain ⟨apRep, rfl⟩ := exists_of_balance hbalance
  obtain ⟨x, u, a, user, h⟩ := balance_sound sampleHandler .cut sampleClock s ⟨_, hs⟩ 1 _ _
    apRep "" res hrequest hresult
  exact ⟨s, hs, x, u, a, user, res, h⟩

/-- The sample client is shown its own history. -/
theorem history_sound_of_sampleReads : ∃ s, Steps handlerStart sampleReads s ∧
    ∃ (x : ApExchange) (u : State (handlerMachine sampleHandler .cut)) (a : Account)
      (res : HistoryResult),
      x.Passed sampleHandler (sampleTicket scopeHistory 1700000300)
        (sampleAuthenticator 1700000001) "history:read" ∧
      Reachable (Env.initial sampleClock) u ∧ Leads u s ∧
      (∀ ev ∈ x.log .cut, ev.env.clock ≤ u.env.clock) ∧
      a ∈ Db.accounts u.env.db ∧ uuidIn sampleAccountID = some a.id ∧
      a.userId.text = x.ticket.clientID ∧ HistoryShown a.id res u.env.db := by
  obtain ⟨s, hs, hview⟩ := sampleReads_runs
  obtain ⟨hrequest, hshown⟩ := Prod.mk.inj (Prod.mk.inj hview).2
  obtain ⟨res, hres, -⟩ := Option.map_eq_some_iff.mp hshown
  obtain ⟨result, hresult, hpage⟩ := Option.bind_eq_some_iff.mp hres
  obtain ⟨apRep, rfl⟩ := exists_of_page hpage
  obtain ⟨x, u, a, h⟩ := history_sound sampleHandler .cut sampleClock s ⟨_, hs⟩ 2 _ _ apRep _ _ _
    res hrequest hresult
  exact ⟨s, hs, x, u, a, res, h⟩

end Sample

end Bank
