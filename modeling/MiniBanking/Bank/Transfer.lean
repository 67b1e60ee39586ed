import MiniBanking.Bank.Commit

/-!
# What a call of the service promises

Each call is executed symbolically once, against whatever the other calls may do meanwhile: at
its commit the open transaction holds exactly the writes of one abstract commit, stated on the
snapshot the transaction read.

## Main definitions

* `Rely`: what other calls and the clock may do to the environment
* `Stage`: the open transaction of a transfer, its snapshot and its writes so far
* `Ready`: a transaction that is about to commit
* `Promise`: under what each statement of a call is issued
* `Outcome`: what a call that returned has done

## Main results

* `transfer_meets`, `createUser_meets`: every call keeps its promises
-/

namespace Bank

open Concurrency Go Postgres

/-! ## The rely -/

/-- What other calls and the clock may do: the clock goes on, rows are added, and the database
stays well formed and free of rows from the future. -/
structure Rely (e e' : Env) : Prop where
  clock : e.clock ≤ e'.clock
  grows : e.db.Extends e'.db
  wf : e'.db.Wf
  timely : ∀ t ∈ e'.db.transactions, t.sentAt ≤ e'.clock

theorem Rely.refl {e e' : Env} (h : Rely e e') : Rely e' e' :=
  ⟨e'.clock.le_refl, .refl _, h.wf, h.timely⟩

theorem Rely.trans {e e' e'' : Env} (h : Rely e e') (h' : Rely e' e'') : Rely e e'' :=
  ⟨Instant.le_trans h.clock h'.clock, h.grows.trans h'.grows, h'.wf, h'.timely⟩

section Meets

variable {rounding : Rounding} {G : Stmt → Env → Conn → Prop} {α β : Type}

/-- A program of the bank keeps its promises, whatever its call has issued before. -/
def Keeps (rounding : Rounding) (G : Stmt → Env → Conn → Prop) (Q : α → Env → Conn → Prop)
    (p : Run α) (e : Env) (l : Conn) : Prop :=
  ∀ log, Program.Meets (W := world rounding) Rely (fun _ => G) (fun _ => Q) p log e l

variable {Q : α → Env → Conn → Prop}

theorem Keeps.mono {G' : Stmt → Env → Conn → Prop} {Q' : α → Env → Conn → Prop} {p : Run α}
    {e : Env} {l : Conn} (h : Keeps rounding G Q p e l) (hG : ∀ s e l, G s e l → G' s e l)
    (hQ : ∀ a e l, Q a e l → Q' a e l) : Keeps rounding G' Q' p e l :=
  fun log => (h log).mono (fun _ => hG) (fun _ => hQ)

theorem Keeps.bind {Q' : β → Env → Conn → Prop} {p : Run α} {f : α → Run β} {e : Env} {l : Conn}
    (h : Keeps rounding G (fun a e l => Keeps rounding G Q' (f a) e l) p e l) :
    Keeps rounding G Q' (p >>= f) e l :=
  fun log => Program.Meets.bind (fun _ _ h => h.refl)
    ((h log).mono (fun _ _ _ _ h => h) (fun log _ _ _ h => h log))

theorem keeps_stmt {s : Stmt} {f : Reply s → Run α} {e : Env} {l : Conn}
    (h : ∀ e', Rely e e' → G s e' l ∧ ∀ others c r e'' l',
      exec rounding others s c e' l = some (r, e'', l') →
        Keeps rounding G Q (f r) e'' l') :
    Keeps rounding G Q (stmt s >>= f) e l :=
  fun _ e' hr => ⟨(h e' hr).1, fun others c r e'' l' hx => (h e' hr).2 others c r e'' l' hx _⟩

theorem keeps_ret {a : α} {e : Env} {l : Conn} (h : ∀ e', Rely e e' → Q a e' l) :
    Keeps rounding G Q (pure a) e l := fun _ => h

/-- An error promises nothing. -/
theorem keeps_error {P : String → Env → Conn → Prop} {err : Err} {e : Env} {l : Conn} :
    Keeps rounding G (fun r e l => ∀ txID, r = Except.ok txID → P txID e l) (pure (.error err))
      e l :=
  keeps_ret fun _ _ _ hr => nomatch hr

theorem keeps_now {f : Instant → Run α} {e : Env} {l : Conn} (hG : ∀ e, G .now e l)
    (h : ∀ e', Rely e e' → Keeps rounding G Q (f e'.clock) e' l) :
    Keeps rounding G Q (stmt .now >>= f) e l := by
  refine keeps_stmt fun e' hr => ⟨hG e', fun others c r e'' l' hx => ?_⟩
  cases hx
  exact h e' hr

theorem keeps_random {f : Uuid → Run α} {e : Env} {l : Conn} (hG : ∀ e, G .random e l)
    (h : ∀ e' b, Rely e e' → Keeps rounding G Q (f b) e' l) :
    Keeps rounding G Q (stmt .random >>= f) e l := by
  refine keeps_stmt fun e' hr => ⟨hG e', fun others c r e'' l' hx => ?_⟩
  cases hx
  exact h e' _ hr

theorem keeps_audit {event : AuditEvent} {f : Unit → Run α} {e : Env} {l : Conn}
    (hG : ∀ e, G (.audit event) e l) (h : ∀ e', Rely e e' → Keeps rounding G Q (f ()) e' l) :
    Keeps rounding G Q (stmt (.audit event) >>= f) e l := by
  refine keeps_stmt fun e' hr => ⟨hG e', fun others c r e'' l' hx => ?_⟩
  cases hx
  exact h e' hr

end Meets

/-! ## Stages of a transfer -/

/-- The open transaction of a transfer: it reads the snapshot `S` and has written `ws`. -/
structure Stage (S : Db) (ws : List Write) (e : Env) (tx : Tx schema) : Prop where
  isolation : tx.isolation = .serializable
  snapshot : tx.snapshot = some S
  writes : tx.writes = ws
  wf : S.Wf
  known : S.Extends e.db
  timely : ∀ t ∈ S.transactions, t.sentAt ≤ e.clock

variable {rounding : Rounding} {S : Db} {ws : List Write} {e e' : Env} {tx : Tx schema}

theorem Stage.rely (h : Stage S ws e tx) (hr : Rely e e') : Stage S ws e' tx :=
  { h with
    known := h.known.trans hr.grows
    timely := fun t ht => Instant.le_trans (h.timely t ht) hr.clock }

/-- A statement fails and aborts the transaction, or its effect on what the snapshot and the
writes show is added to the transaction. -/
theorem Stage.exec (h : Stage S ws e tx) {q : Query} {others : List Conn} {c : Choice}
    {r : Sql q.Row} {l' : Conn}
    (hx : exec rounding others (.query q) c e (.active tx) = some (r, e', l')) :
    e' = e ∧ ((r = .error .failed ∧ l' = .active tx.abort) ∨
      ∃ f tx', q.plan rounding (schema.applyAll S ws) = some f ∧ r = f.reply ∧
        l' = .active tx' ∧ Stage S (ws ++ f.writes) e tx') := by
  have hbase : tx.base e.db = S := Tx.base_of_snapshot _ h.isolation h.snapshot
  rw [exec_query] at hx
  obtain ⟨rfl, ⟨_, htx, rfl, rfl⟩ | ⟨_, f, htx, -, hplan, rfl, rfl⟩ | ⟨htx, -⟩⟩ := inTx_cases hx
  · cases htx
    exact ⟨rfl, .inl ⟨rfl, rfl⟩⟩
  · cases htx
    refine ⟨rfl, .inr ⟨f, _, ?_, rfl, rfl, ?_⟩⟩
    · rw [Tx.view, hbase, h.writes] at hplan
      exact hplan
    · exact { h with
        snapshot := congrArg some hbase
        writes := congrArg (· ++ f.writes) h.writes }
  · cases htx

/-- The first statement of a transfer takes the snapshot. -/
theorem Stage.first (hr : Rely e e) {q : Query} {others : List Conn} {c : Choice}
    {r : Sql q.Row} {l' : Conn}
    (hx : Bank.exec rounding others (.query q) c e (.active (Tx.begin .serializable)) =
      some (r, e', l')) :
    e' = e ∧ ((r = .error .failed ∧ ∃ tx', l' = .active tx') ∨
      ∃ f tx', q.plan rounding e.db = some f ∧ r = f.reply ∧ l' = .active tx' ∧
        Stage e.db f.writes e tx') := by
  rw [exec_query] at hx
  obtain ⟨rfl, ⟨_, htx, rfl, rfl⟩ | ⟨_, f, htx, -, hplan, rfl, rfl⟩ | ⟨htx, -⟩⟩ := inTx_cases hx
  · cases htx
    exact ⟨rfl, .inl ⟨rfl, _, rfl⟩⟩
  · cases htx
    exact ⟨rfl, .inr ⟨f, _, hplan, rfl, rfl, rfl, rfl, rfl, hr.wf, .refl _, hr.timely⟩⟩
  · cases htx

/-- **The rule for a statement of a transfer.** -/
theorem Stage.keeps (h : Stage S ws e tx) {G : Stmt → Env → Conn → Prop} {α : Type}
    {Q : α → Env → Conn → Prop} {q : Query} {f : Sql q.Row → Run α}
    (hG : ∀ e', Stage S ws e' tx → G (.query q) e' (.active tx))
    (herr : ∀ e' tx', Keeps rounding G Q (f (.error .failed)) e' (.active tx'))
    (hok : ∀ e' tx' (eff : SqlEffect q.Row), Rely e e' →
      q.plan rounding (schema.applyAll S ws) = some eff → Stage S (ws ++ eff.writes) e' tx' →
        Keeps rounding G Q (f eff.reply) e' (.active tx')) :
    Keeps rounding G Q (sql q >>= f) e (.active tx) := by
  refine keeps_stmt fun e' hr => ⟨hG e' (h.rely hr), fun others c r e'' l' hx => ?_⟩
  obtain ⟨rfl, ⟨rfl, rfl⟩ | ⟨eff, tx', hplan, rfl, rfl, hstage⟩⟩ := (h.rely hr).exec hx
  · exact herr _ _
  · exact hok _ _ eff hr hplan hstage

/-! ## Promises -/

/-- The writes of a transfer that moves money. -/
def Movement.writes (m : Movement) : List Write :=
  [.setBalance m.source.id m.debited m.debited_check,
    .setBalance m.target.id m.credited m.credited_check, .insertTransaction m.row,
    .setLedger m.row.currentHash m.row.id]

/-- The movement is what the call was asked for. -/
structure Movement.Describes (m : Movement) (caller : Caller) (input : TransferInput) :
    Prop where
  owner : m.source.userId.text = caller.clientID
  source_number : m.source.accountNumber = input.fromAccountNumber
  target_number : m.target.accountNumber = input.toAccountNumber
  row_source_number : m.row.fromAccountNumber = input.fromAccountNumber
  row_target_number : m.row.toAccountNumber = input.toAccountNumber
  amount : m.row.amount = input.amount
  currency : m.row.currency = input.currency
  key : varcharIn 255 input.idempotencyKey = some m.row.idempotencyKey

/-- The transaction of a transfer that is about to commit. -/
inductive Ready (svc : Service) (rounding : Rounding) (caller : Caller) (input : TransferInput)
    (e : Env) (tx : Tx schema) : Prop where
  | failed {S : Db} {row : Transaction}
      (stage : Stage S [.insertTransaction row, .setLedger row.currentHash row.id] e tx)
      (status : row.status = .failed) (linked : Linked svc rounding S row)
      (sent : row.sentAt ≤ e.clock)
  | moved {S : Db} {m : Movement} (stage : Stage S m.writes e tx)
      (valid : m.Valid svc rounding S) (sent : m.row.sentAt ≤ e.clock)
      (describes : m.Describes caller input)

/-- The transaction of a transfer that sums up what its account has sent today. -/
structure Summing (input : TransferInput) (id : String) (since till : ℤ) (e : Env)
    (tx : Tx schema) : Prop where
  stage : ∃ S, Stage S [] e tx ∧ ∃ a ∈ S.accounts, id = a.id.text ∧ ¬ a.balance < input.amount ∧
    ∃ dayRead sumRead : Instant, since = dayRead.startOfDay ∧ till = sumRead.ns ∧
      dayRead ≤ sumRead ∧ ∀ t ∈ S.transactions, t.sentAt ≤ dayRead

/-- Under what a transfer issues its statements. -/
def TransferPromise (svc : Service) (rounding : Rounding) (caller : Caller)
    (input : TransferInput) : Stmt → Env → Conn → Prop
  | .commit, e, l => ∃ tx, l = .active tx ∧ Ready svc rounding caller input e tx
  | .query (.sumCompletedTransfersSince id since till), e, l =>
    ∃ tx, l = .active tx ∧ Summing input id since till e tx
  | .query _, _, l => ∃ tx, l = .active tx
  | st, _, _ => st.marks = false

/-- A transfer changes no store beside the database. -/
theorem TransferPromise.marks {svc : Service} {caller : Caller} {input : TransferInput}
    {st : Stmt} {l : Conn} (h : TransferPromise svc rounding caller input st e l) :
    st.marks = false := by
  cases st with
  | commit | query => rfl
  | _ => exact h

/-- The transaction is the transfer the call was asked for. -/
structure Performed (db : Db) (caller : Caller) (input : TransferInput) (row : Transaction) :
    Prop where
  owner : ∃ a ∈ db.accounts, row.fromAccountId = some a.id ∧ a.userId.text = caller.clientID
  source_number : row.fromAccountNumber = input.fromAccountNumber
  target_number : row.toAccountNumber = input.toAccountNumber
  amount : row.amount = input.amount
  currency : row.currency = input.currency

/-- What a transfer that returned has done: success means a completed transaction with the id
returned, which is the transfer asked for if this call ran a transaction, and had the
idempotency key of this call before it otherwise. -/
def TransferOutcome (caller : Caller) (input : TransferInput) (result : Except Err String)
    (e : Env) (l : Conn) : Prop :=
  ∀ txID, result = .ok txID → ∃ row ∈ e.db.transactions,
    row.id.text = txID ∧ row.status = .completed ∧
    ((l = .done ∧ Performed e.db caller input row) ∨
      (l = .fresh ∧ row.idempotencyKey = input.idempotencyKey))

/-! ## Failed transfers -/

section Executions

variable {svc : Service} {caller : Caller} {input : TransferInput}

/-- A transfer that is rejected commits a failed row, or nothing, and returns an error. -/
theorem failTransfer_keeps (h : Stage S [] e tx) (fromAcc toAcc : AccountRecord)
    (action reason : String) (err : Err) :
    Keeps rounding (TransferPromise svc rounding caller input)
      (fun r _ _ => ∃ err, r = .error err)
      (svc.failTransfer caller input fromAcc toAcc action reason err) e (.active tx) := by
  unfold Service.failTransfer
  refine keeps_random (fun _ => rfl) fun e₁ b hr₁ => ?_
  refine (h.rely hr₁).keeps (fun _ _ => ⟨_, rfl⟩) (fun _ _ => keeps_ret fun _ _ => ⟨_, rfl⟩)
    fun e₂ tx₂ eff hr₂ hplan h₂ => ?_
  cases hplan
  refine keeps_now (fun _ => rfl) fun e₃ hr₃ => ?_
  refine (h₂.rely hr₃).keeps (fun _ _ => ⟨_, rfl⟩) (fun _ _ => keeps_ret fun _ _ => ⟨_, rfl⟩)
    fun e₄ tx₄ eff hr₄ hplan h₄ => ?_
  obtain ⟨fromId, toId, row, hrow, hadm, rfl⟩ := insertFailedTransaction_cases hplan
  refine h₄.keeps (fun _ _ => ⟨_, rfl⟩) (fun _ _ => keeps_ret fun _ _ => ⟨_, rfl⟩)
    fun e₅ tx₅ eff hr₅ hplan h₅ => ?_
  obtain ⟨last, u, hlast, hu, rfl⟩ := updateLedger_cases S hplan
  -- the row is the next link after the snapshot's ledger, and the ledger is moved to it
  obtain ⟨hlinked, hid, hcurrent, hsent⟩ := Linked.of_row hrow
    (show S.Admits row from hadm) h.wf rfl rfl (Service.length_hexHash _).le rfl
  have hstatus : row.status = .failed := (Transaction.of_eq hrow).2.2.2.2.2.2.2.1
  obtain rfl : last = row.currentHash := (varcharIn_eq hlast
    (Service.length_hexHash _).le).trans hcurrent.symm
  obtain rfl : u = row.id := Uuid.text_injective ((text_of_newUUID hu).trans hid.symm)
  refine keeps_stmt fun e₆ hr₆ => ⟨⟨tx₅, rfl, ?_⟩, fun others c r e' l' hx => ?_⟩
  · refine .failed (h₅.rely hr₆) hstatus hlinked ?_
    rw [hsent]
    exact Instant.le_trans hr₄.clock (Instant.le_trans hr₅.clock hr₆.clock)
  · cases r with
    | error => exact keeps_ret fun _ _ => ⟨_, rfl⟩
    | ok => exact keeps_audit (fun _ => rfl) fun _ _ => keeps_ret fun _ _ => ⟨_, rfl⟩

/-! ## Transfers that move money -/

/-- A completed transaction that is the transfer asked for is in the database. -/
def Moved (caller : Caller) (input : TransferInput) (txID : String) (db : Db) : Prop :=
  ∃ row ∈ db.transactions, row.id.text = txID ∧ row.status = .completed ∧
    Performed db caller input row

theorem Performed.extends {db db' : Db} {row : Transaction} (h : Performed db caller input row)
    (hext : db.Extends db') : Performed db' caller input row := by
  obtain ⟨a, ha, hfrom, howner⟩ := h.owner
  obtain ⟨a', ha', hstatic⟩ := hext.account ha
  obtain ⟨hid, huser, -⟩ := Prod.mk.inj hstatic |>.imp_right fun h => Prod.mk.inj h
  exact { h with owner := ⟨a', ha', by rw [hfrom, hid], by rw [huser, howner]⟩ }

theorem Moved.extends {db db' : Db} {txID : String} (h : Moved caller input txID db)
    (hext : db.Extends db') : Moved caller input txID db' :=
  let ⟨row, hmem, hid, hstatus, hperformed⟩ := h
  ⟨row, hext.transactions.subset hmem, hid, hstatus, hperformed.extends hext⟩

/-- A movement that is what the call was asked for has happened after its writes. -/
theorem Movement.moved {m : Movement} (hvalid : m.Valid svc rounding S)
    (hdescribes : m.Describes caller input) {db : Db} (hext : S.Extends db) :
    Moved caller input m.row.id.text (m.apply db) := by
  refine ⟨m.row, List.mem_append_right _ (List.mem_singleton_self _), rfl, hvalid.status, ?_⟩
  obtain ⟨hmem, -⟩ := Db.mem_of_account hvalid.source_mem
  obtain ⟨a', ha', hstatic⟩ := (hext.trans (.movement m db)).account hmem
  obtain ⟨hid, huser, -⟩ := Prod.mk.inj hstatic |>.imp_right fun h => Prod.mk.inj h
  exact ⟨⟨a', ha', by rw [hvalid.row_source, hid], by rw [huser, hdescribes.owner]⟩,
    hdescribes.row_source_number, hdescribes.row_target_number, hdescribes.amount,
    hdescribes.currency⟩

/-- What the business rules have established about the two locked accounts. -/
structure Checked (svc : Service) (rounding : Rounding) (caller : Caller)
    (input : TransferInput) (S : Db) (a b : Account) (dayRead sumRead : Instant)
    (spentToday : Int64) : Prop where
  source_mem : a ∈ S.accounts
  target_mem : b ∈ S.accounts
  source_number : a.accountNumber = input.fromAccountNumber
  target_number : b.accountNumber = input.toAccountNumber
  owner : a.userId.text = caller.clientID
  distinct : a.id ≠ b.id
  currency : a.currency = input.currency
  spent : spentToday.toInt =
    S.spent a.id (rounding.toMicros dayRead.startOfDay) (rounding.toMicros sumRead.ns)
  limit : ¬ a.dailyTransferLimit < spentToday + input.amount
  read_order : dayRead ≤ sumRead
  settled : ∀ t ∈ S.transactions, t.sentAt ≤ dayRead

theorem moveMoney_keeps (h : Stage S [] e tx) {a b : Account} {ua ub : User}
    {dayRead sumRead : Instant} {spentToday : Int64}
    (hc : Checked svc rounding caller input S a b dayRead sumRead spentToday)
    (hsum : sumRead ≤ e.clock) :
    Keeps rounding (TransferPromise svc rounding caller input)
      (fun r e l => ∀ txID, r = .ok txID → l = .done ∧ Moved caller input txID e.db)
      (svc.moveMoney caller input (.of a ua) (.of b ub)) e (.active tx) := by
  unfold Service.moveMoney
  refine h.keeps (fun _ _ => ⟨_, rfl⟩) (fun _ _ => keeps_error)
    fun e₁ tx₁ eff hr₁ hplan h₁ => ?_
  cases hplan
  replace h₁ : Stage S [] e₁ tx₁ := h₁
  refine keeps_random (fun _ => rfl) fun e₂ bytes hr₂ => ?_
  refine keeps_now (fun _ => rfl) fun e₃ hr₃ => ?_
  refine ((h₁.rely hr₂).rely hr₃).keeps (fun _ _ => ⟨_, rfl⟩)
    (fun _ _ => keeps_error) fun e₄ tx₄ eff hr₄ hplan h₄ => ?_
  -- the debit changes the source as the snapshot has it
  replace hplan : updateBalance (· - input.amount.toInt) a.id.text S = some eff := hplan
  obtain ⟨x, hx, hdebit, rfl⟩ := updateBalance_of_account hplan
    (h.wf.account_of_mem hc.source_mem)
  replace h₄ : Stage S [.setBalance a.id x hx] e₄ tx₄ := h₄
  refine h₄.keeps (fun _ _ => ⟨_, rfl⟩) (fun _ _ => keeps_error)
    fun e₅ tx₅ eff hr₅ hplan h₅ => ?_
  -- the credit changes the target, which the debit left as it was
  replace hplan : updateBalance (· + input.amount.toInt) b.id.text
    (S.apply (.setBalance a.id x hx)) = some eff := hplan
  obtain ⟨y, hy, hcredit, rfl⟩ := updateBalance_of_account hplan
    ((find_withBalance _ _ _ _ hc.distinct.symm).trans (h.wf.account_of_mem hc.target_mem))
  replace h₅ : Stage S [.setBalance a.id x hx, .setBalance b.id y hy] e₅ tx₅ := h₅
  refine h₅.keeps (fun _ _ => ⟨_, rfl⟩)
    (fun _ _ => keeps_audit (fun _ => rfl) fun _ _ => keeps_error)
    fun e₆ tx₆ eff hr₆ hplan h₆ => ?_
  obtain ⟨u, v, row, hu, hv, hrow, hadm, rfl⟩ := insertTransaction_cases hplan
  obtain rfl : a.id = u := by simpa [AccountRecord.of] using hu
  obtain rfl : b.id = v := by simpa [AccountRecord.of] using hv
  replace hadm : S.Admits row := hadm.congr rfl
    ((ids_setBalance b.id y hy _).trans (ids_setBalance a.id x hx S)).symm
  obtain ⟨hlinked, hid, hcurrent, hsent⟩ := Linked.of_row hrow hadm h.wf rfl rfl
    (Service.length_hexHash _).le rfl
  refine h₆.keeps (fun _ _ => ⟨_, rfl⟩) (fun _ _ => keeps_error)
    fun e₇ tx₇ eff hr₇ hplan h₇ => ?_
  obtain ⟨last, u, hlast, hu, rfl⟩ := updateLedger_cases S hplan
  obtain rfl : last = row.currentHash := (varcharIn_eq hlast
    (Service.length_hexHash _).le).trans hcurrent.symm
  obtain rfl : u = row.id := Uuid.text_injective ((text_of_newUUID hu).trans hid.symm)
  -- the writes are those of a movement that is valid in the snapshot
  let m : Movement := ⟨a, b, x, y, hx, hy, row, dayRead, sumRead, spentToday⟩
  replace h₇ : Stage S m.writes e₇ tx₇ := h₇
  obtain ⟨-, hfrom, hto, hfn, htn, hamount, hcur, hstatus, -, -, -, hkey, -⟩ :=
    Transaction.of_eq hrow
  have hvalid : m.Valid svc rounding S := {
    source_mem := h.wf.account_of_mem hc.source_mem
    target_mem := h.wf.account_of_mem hc.target_mem
    distinct := hc.distinct
    debit := by rw [hdebit, hamount]
    credit := by rw [hcredit, hamount]
    row_source := hfrom
    row_target := hto
    status := hstatus
    linked := hlinked
    spent := hc.spent
    limit := by rw [hamount]; exact hc.limit
    read_order := hc.read_order
    sent_order := by
      rw [hsent]
      exact Instant.le_trans hsum (Instant.le_trans hr₁.clock (Instant.le_trans hr₂.clock
        hr₃.clock))
    settled := fun t ht => hc.settled t (List.mem_filter.mp ht).1 }
  have hfits := h.wf.fits
  have hdescribes : m.Describes caller input := {
    owner := hc.owner
    source_number := hc.source_number
    target_number := hc.target_number
    row_source_number := (varcharIn_eq hfn (hfits a hc.source_mem).1).trans hc.source_number
    row_target_number := (varcharIn_eq htn (hfits b hc.target_mem).1).trans hc.target_number
    amount := hamount
    currency := varcharIn_eq hcur (hc.currency ▸ (hfits a hc.source_mem).2)
    key := hkey }
  refine keeps_stmt fun e₈ hr₈ => ⟨⟨tx₇, rfl, ?_⟩, fun others c r e' l' hx => ?_⟩
  · refine .moved (h₇.rely hr₈) hvalid ?_ hdescribes
    rw [hsent]
    exact Instant.le_trans hr₄.clock (Instant.le_trans hr₅.clock (Instant.le_trans hr₆.clock
      (Instant.le_trans hr₇.clock hr₈.clock)))
  obtain ⟨rfl, ⟨rfl, rfl⟩ | ⟨-, rfl⟩⟩ := exec_commit_cases hx
  · exact keeps_error
  cases r with
  | error => exact keeps_error
  | ok =>
    refine keeps_audit (fun _ => rfl) fun e₉ hr₉ => keeps_ret fun e₁₀ hr₁₀ txID htx => ?_
    obtain rfl := Except.ok.inj htx
    have hmoved : Moved caller input m.row.id.text (tx₇.commit e₈.db) := by
      rw [Tx.commit, h₇.writes]
      exact Movement.moved hvalid hdescribes (h₇.rely hr₈).known
    rw [show m.row.id.text = _ from hid] at hmoved
    exact ⟨rfl, (hmoved.extends hr₉.grows).extends hr₁₀.grows⟩

/-- A rejected transfer does not succeed. -/
theorem rejected_keeps (h : Stage S [] e tx) (fromAcc toAcc : AccountRecord)
    (action reason : String) (err : Err) :
    Keeps rounding (TransferPromise svc rounding caller input)
      (fun r e l => ∀ txID, r = .ok txID → l = .done ∧ Moved caller input txID e.db)
      (svc.failTransfer caller input fromAcc toAcc action reason err) e (.active tx) := by
  refine (failTransfer_keeps h fromAcc toAcc action reason err).mono (fun _ _ _ h => h) ?_
  rintro r e l ⟨err, rfl⟩ txID hr
  cases hr

theorem checkTransfer_keeps (h : Stage S [] e tx) {a b : Account} {ua ub : User}
    (ha : a ∈ S.accounts) (hb : b ∈ S.accounts)
    (hna : a.accountNumber = input.fromAccountNumber)
    (hnb : b.accountNumber = input.toAccountNumber) :
    Keeps rounding (TransferPromise svc rounding caller input)
      (fun r e l => ∀ txID, r = .ok txID → l = .done ∧ Moved caller input txID e.db)
      (svc.checkTransfer caller input (.of a ua) (.of b ub)) e (.active tx) := by
  unfold Service.checkTransfer
  split
  · exact rejected_keeps h _ _ _ _ _
  next howner =>
  split
  · exact rejected_keeps h _ _ _ _ _
  split
  · exact rejected_keeps h _ _ _ _ _
  next hdistinct =>
  split
  · exact rejected_keeps h _ _ _ _ _
  next hcurrency =>
  split
  · exact rejected_keeps h _ _ _ _ _
  next hfunds =>
  refine keeps_now (fun _ => rfl) fun e₁ hr₁ => keeps_now (fun _ => rfl) fun e₂ hr₂ => ?_
  have h₁ : Stage S [] e₁ tx := h.rely hr₁
  refine (h₁.rely hr₂).keeps (fun e' h' => ⟨tx, rfl, ⟨S, h', a, ha, rfl, hfunds, e₁.clock, e₂.clock,
      rfl, rfl, hr₂.clock, h₁.timely⟩⟩) (fun _ _ => keeps_error)
    fun e₃ tx₃ eff hr₃ hplan h₃ => ?_
  obtain rfl | ⟨u, spentToday, hu, rfl, hspent⟩ := sumCompletedTransfersSince_cases hplan
  · exact keeps_error
  obtain rfl : a.id = u := by simpa [AccountRecord.of] using hu
  replace h₃ : Stage S [] e₃ tx₃ := h₃
  show Keeps _ _ _ (if a.dailyTransferLimit < spentToday + input.amount then _ else _) _ _
  split
  · exact rejected_keeps h₃ _ _ _ _ _
  next hlimit =>
  refine moveMoney_keeps h₃ ⟨ha, hb, hna, hnb, ?_, ?_, ?_, hspent, hlimit, hr₂.clock, h₁.timely⟩
    hr₃.clock
  · simpa [AccountRecord.of] using howner
  · exact fun hid => hdistinct (congrArg Uuid.text hid)
  · exact not_not.mp (not_or.mp hcurrency).1

theorem transferTx_keeps :
    Keeps rounding (TransferPromise svc rounding caller input)
      (fun r e l => ∀ txID, r = .ok txID → l = .done ∧ Moved caller input txID e.db)
      (svc.transferTx caller input) e (.active (Tx.begin .serializable)) := by
  unfold Service.transferTx
  refine keeps_stmt fun e₁ hr₁ => ⟨⟨_, rfl⟩, fun others c r e' l' hx => ?_⟩
  obtain ⟨rfl, ⟨rfl, tx₁, rfl⟩ | ⟨eff, tx₁, hplan, rfl, rfl, h₁⟩⟩ := Stage.first hr₁.refl hx
  · exact keeps_error
  obtain rfl | ⟨a, ua, ha, hna, -, rfl⟩ := loadAccountForUpdateByNumber_cases hplan
  · exact rejected_keeps h₁ _ _ _ _ _
  replace h₁ : Stage e'.db [] e' tx₁ := h₁
  refine h₁.keeps (fun _ _ => ⟨_, rfl⟩) (fun _ _ => keeps_error)
    fun e₂ tx₂ eff hr₂ hplan h₂ => ?_
  obtain rfl | ⟨b, ub, hb, hnb, -, rfl⟩ := loadAccountForUpdateByNumber_cases hplan
  · exact rejected_keeps h₂ _ _ _ _ _
  · exact checkTransfer_keeps h₂ ha hb hna hnb

/-- The deferred rollback keeps a done transaction done. -/
theorem rollback_keeps {α : Type} {a : α} {l : Conn} {Q : α → Env → Conn → Prop}
    {G : Stmt → Env → Conn → Prop} (hG : ∀ e, G .rollback e l)
    (h : ∀ e' l', Rely e e' → (l = .done → l' = .done) → Q a e' l') :
    Keeps rounding G Q (stmt .rollback >>= fun _ => .ret a) e l := by
  refine keeps_stmt fun e₁ hr₁ => ⟨hG e₁, fun others c r e' l' hx => ?_⟩
  cases l with
  | active tx =>
    cases hx
    exact keeps_ret fun e₂ hr₂ => h e₂ _ (hr₁.trans hr₂) nofun
  | fresh =>
    cases hx
    exact keeps_ret fun e₂ hr₂ => h e₂ _ (hr₁.trans hr₂) nofun
  | done =>
    cases hx
    exact keeps_ret fun e₂ hr₂ => h e₂ _ (hr₁.trans hr₂) fun _ => rfl

theorem executeTransfer_keeps :
    Keeps rounding (TransferPromise svc rounding caller input)
      (TransferOutcome caller input) (svc.executeTransfer caller input) e .fresh := by
  unfold Service.executeTransfer
  refine keeps_stmt fun e₁ hr₁ => ⟨rfl, fun others c r e' l' hx => ?_⟩
  simp only [exec] at hx
  split at hx
  · cases hx
    exact keeps_error
  cases hx
  refine Keeps.bind (transferTx_keeps.mono (fun _ _ _ h => h) ?_)
  intro r e₂ l₂ hr₂
  refine rollback_keeps (fun _ => rfl) fun e₃ l₃ hr₃ hdone txID htx => ?_
  obtain ⟨hl, hmoved⟩ := hr₂ txID htx
  obtain ⟨row, hrow, hid, hstatus, hperformed⟩ := hmoved.extends hr₃.grows
  exact ⟨row, hrow, hid, hstatus, .inl ⟨hdone hl, hperformed⟩⟩

/-- **A transfer keeps its promises.** -/
theorem transfer_meets :
    Keeps rounding (TransferPromise svc rounding caller input)
      (TransferOutcome caller input) (svc.transfer caller input) e .fresh := by
  unfold Service.transfer
  refine Keeps.bind ?_
  unfold Service.findIdempotentTransaction
  split
  · exact keeps_ret fun e₁ _ => executeTransfer_keeps
  refine keeps_stmt fun e₁ hr₁ => ⟨rfl, fun others c r e' l' hx => ?_⟩
  simp only [exec] at hx
  split at hx
  · cases hx
    exact keeps_ret fun e₂ _ => keeps_audit (fun _ => rfl) fun _ _ => keeps_error
  split at hx
  · cases hx
    exact keeps_ret fun e₂ _ => keeps_audit (fun _ => rfl) fun _ _ => keeps_error
  next key hkey =>
  split at hx
  · cases hx
    exact keeps_ret fun e₂ _ => executeTransfer_keeps
  next t ht =>
  cases hx
  show Keeps _ _ _ (if t.status.text = "completed" then _ else _) _ _
  split
  · next hstatus =>
    refine keeps_ret fun e₂ hr₂ => ?_
    show Keeps _ _ _ (if t.id.text ≠ "" then _ else _) _ _
    rw [if_pos t.id.text_ne_empty]
    refine keeps_ret fun e₃ hr₃ txID htx => ?_
    have hmem : t ∈ e₁.db.transactions := List.mem_of_find?_eq_some ht
    have hkey' : t.idempotencyKey = key := by simpa using List.find?_some ht
    refine ⟨t, (hr₂.grows.trans hr₃.grows).transactions.subset hmem, Except.ok.inj htx, ?_,
      .inr ⟨rfl, hkey'.trans (textIn_eq hkey)⟩⟩
    revert hstatus
    cases t.status <;> decide
  · exact keeps_ret fun e₂ _ => keeps_audit (fun _ => rfl) fun _ _ => keeps_error

/-! ## New users -/

/-- The transaction of a new user that is about to commit. -/
inductive Opening (svc : Service) (tx : Tx schema) : Prop where
  | mk {db : Db} {u : User} {a : Account} (snapshot : tx.snapshot = some db)
      (writes : tx.writes = [.insertUser u, .insertAccount a]) (opened : Opened svc db u a)

/-- Under what the creation of a user issues its statements. -/
def CreatePromise (svc : Service) : Stmt → Env → Conn → Prop
  | .commit, _, l => ∃ tx, l = .active tx ∧ Opening svc tx
  | .query _, _, l => ∃ tx, l = .active tx
  | st, _, _ => st.marks = false

theorem createUserTx_keeps {userID email fullName : String} :
    Keeps rounding (CreatePromise svc) (fun _ _ _ => True)
      (svc.createUserTx userID email fullName) e (.active (Tx.begin .readCommitted)) := by
  unfold Service.createUserTx
  refine keeps_now (fun _ => rfl) fun e₁ hr₁ => ?_
  refine keeps_stmt fun e₂ hr₂ => ⟨⟨_, rfl⟩, fun others c r e' l' hx => ?_⟩
  rw [exec_query] at hx
  obtain ⟨rfl, ⟨_, -, rfl, rfl⟩ | ⟨_, eff, htx, -, hplan, rfl, rfl⟩ | ⟨htx, -⟩⟩ := inTx_cases hx
  · exact keeps_ret fun _ _ => trivial
  swap
  · cases htx
  obtain rfl := Conn.active.inj htx
  obtain ⟨u, hu, rfl⟩ := insertUser_cases hplan
  refine keeps_random (fun _ => rfl) fun e₃ b hr₃ => ?_
  refine keeps_stmt fun e₄ hr₄ => ⟨⟨_, rfl⟩, fun others c r e' l' hx => ?_⟩
  rw [exec_query] at hx
  obtain ⟨rfl, ⟨_, -, rfl, rfl⟩ | ⟨tx₁, eff, htx, -, hplan, rfl, rfl⟩ | ⟨htx, -⟩⟩ :=
    inTx_cases hx
  · exact keeps_ret fun _ _ => trivial
  swap
  · cases htx
  obtain rfl := Conn.active.inj htx
  -- the second statement reads the database as it is now, with the new user
  obtain ⟨a, howner, hnumber, hbalance, hlimit, hcurrency, hversion, hnew, rfl⟩ :=
    insertDefaultAccount_cases hplan
  refine keeps_stmt fun e₅ hr₅ => ⟨⟨_, rfl, .mk rfl rfl ?_⟩, fun others c r e' l' hx => ?_⟩
  · exact ⟨Db.account_eq_none_iff.mpr fun a' ha' => (hnew a' ha').1,
      fun a' ha' => (hnew a' ha').2, ⟨userID, hnumber⟩,
      Option.some.inj (howner.symm.trans hu), hbalance, hlimit, hcurrency, hversion⟩
  · cases r <;> exact keeps_ret fun _ _ => trivial

/-- **The creation of a user keeps its promises.** -/
theorem createUser_meets {input : CreateUserInput} :
    Keeps rounding (CreatePromise svc) (fun _ _ _ => True) (svc.createUser input) e .fresh := by
  unfold Service.createUser
  split
  · exact keeps_ret fun _ _ => trivial
  show Keeps _ _ _ (if trimSpace input.userID = "" ∨ _ then _ else _) _ _
  split
  · exact keeps_ret fun _ _ => trivial
  refine keeps_stmt fun e₁ hr₁ => ⟨rfl, fun others c r e' l' hx => ?_⟩
  simp only [exec] at hx
  split at hx
  · cases hx
    exact keeps_ret fun _ _ => trivial
  cases hx
  refine Keeps.bind (createUserTx_keeps.mono (fun _ _ _ h => h) ?_)
  intro r e₂ l₂ _
  exact rollback_keeps (fun _ => rfl) fun _ _ _ _ => trivial

end Executions

end Bank
