import MiniBanking.Bank.Transfer
import MiniBanking.Concurrency.Log

/-!
# Interleaved calls refine the abstract bank

The database of interleaved calls, with snapshots, row locks, failing statements and deferred
rollbacks, goes through the commits of the abstract bank and through nothing else: a
transaction's writes were worked out on its snapshot, and what it holds is still as the snapshot
has it.

## Main definitions

* `History`: the databases the abstract bank can have, with the time
* `Kept`: programs that keep promises under which commits are those of the service
* `ServicePromise`: the promises of the calls of the service

## Main results

* `Ready.commit`, `Opening.commit`: what a transaction worked out on its snapshot holds of the
  database it commits to
* `Kept.step`: a step commits a ready transaction or leaves the database as it is
* `Kept.history`: every reachable database is one the abstract bank can have
-/

namespace Bank

open Concurrency Go Postgres

/-! ## From the snapshot to the database -/

section Transport

variable {svc : Service} {rounding : Rounding} {S : Db} {ws : List Write} {e : Env}
  {tx : Tx schema}

/-- What the transaction writes is in the database as its snapshot has it. -/
theorem Stage.look (h : Stage S ws e tx) (hg : tx.Guarded e.db) {k : Key} {w : Write}
    (hw : w ∈ ws) (hk : k ∈ w.touches) : e.db.look k = S.look k :=
  hg S h.snapshot k (tx.covered w (h.writes ▸ hw) k hk)

theorem Db.Extends.account_ne_none {db db' : Db} (h : db.Extends db') {id : Uuid}
    (hid : db.account id ≠ none) : db'.account id ≠ none := by
  rw [Db.account_ne_none_iff] at hid ⊢
  obtain ⟨a, ha, rfl⟩ := List.mem_map.mp hid
  obtain ⟨a', ha', hstatic⟩ := h.account ha
  exact List.mem_map.mpr ⟨a', ha', (Prod.mk.inj hstatic).1⟩

theorem ne_of_not_taken {β : Type} [DecidableEq β] {f : Transaction → β} {b : β} {db S : Db}
    (h : Val.taken (db.transactions.any (f · = b)) = Val.taken (S.transactions.any (f · = b)))
    (hS : ∀ t ∈ S.transactions, f t ≠ b) : ∀ t ∈ db.transactions, f t ≠ b := by
  intro t ht hft
  have hany : db.transactions.any (f · = b) = true := List.any_eq_true.mpr ⟨t, ht, by simpa⟩
  rw [Val.taken.inj h] at hany
  obtain ⟨t', ht', hft'⟩ := List.any_eq_true.mp hany
  exact hS t' ht' (by simpa using hft')

/-- A row that is the next link in the snapshot is the next link in the database, once the
transaction writes it and the ledger. -/
theorem Stage.linked (h : Stage S ws e tx) (hg : tx.Guarded e.db) {row : Transaction}
    (hrow : Write.insertTransaction row ∈ ws) (hledger : .setLedger row.currentHash row.id ∈ ws)
    (hl : Linked svc rounding S row) : Linked svc rounding e.db row where
  admitted := by
    refine ⟨fun id hid => h.known.account_ne_none (hl.admitted.1 id hid),
      fun id hid => h.known.account_ne_none (hl.admitted.2.1 id hid), fun t ht => ?_⟩
    have hid := h.look hg (k := .transaction row.id) hrow (by simp [Write.touches])
    have hnonce := h.look hg (k := .nonce row.nonce) hrow (by simp [Write.touches])
    have hkey := h.look hg (k := .idempotencyKey row.idempotencyKey) hrow
      (by simp [Write.touches])
    exact ⟨ne_of_not_taken hid (fun t ht => (hl.admitted.2.2 t ht).1) t ht,
      ne_of_not_taken hnonce (fun t ht => (hl.admitted.2.2 t ht).2.1) t ht,
      ne_of_not_taken hkey (fun t ht => (hl.admitted.2.2 t ht).2.2) t ht⟩
  previous := by
    have hlook := h.look hg (k := .ledger) hledger (by simp [Write.touches])
    rw [hl.previous, Db.head, Db.head, Val.ledger.inj hlook]
  current := hl.current
  created := hl.created

/-- The completed transactions of an account are the same when its version is. -/
theorem movementsOf_eq {db : Db} (hS : S.Wf) (hdb : db.Wf) (hext : S.Extends db) {a : Account}
    (haS : a ∈ S.accounts) (ha : a ∈ db.accounts) :
    db.movementsOf a.id = S.movementsOf a.id := by
  have hstart : S.movementsOf a.id <+: db.movementsOf a.id := hext.transactions.filter _
  refine (hstart.eq_of_length ?_).symm
  rw [← hS.versions a haS, ← hdb.versions a ha]

theorem Db.spent_eq (db : Db) (id : Uuid) (since till : ℤ) :
    db.spent id since till = (((db.movementsOf id).filter fun t =>
      t.fromAccountId = some id ∧ since ≤ t.createdAt ∧ t.createdAt ≤ till).map
        (·.amount.toInt)).sum := by
  unfold Db.spent Db.movementsOf
  rw [List.filter_filter]
  congr 2
  refine List.filter_congr fun t _ => ?_
  by_cases hfrom : t.fromAccountId = some id <;> by_cases hstatus : t.status = .completed <;>
    simp [hfrom, hstatus]

/-- A movement that is valid in the snapshot is valid in the database. -/
theorem Stage.valid {m : Movement} (h : Stage S m.writes e tx) (hg : tx.Guarded e.db)
    (hwf : e.db.Wf) (hv : m.Valid svc rounding S) : m.Valid svc rounding e.db := by
  have hsource : e.db.account m.source.id = some m.source := by
    have hlook := h.look hg (k := .account m.source.id) (List.mem_cons_self) (by
      simp [Write.touches])
    rw [Val.account.inj hlook, hv.source_mem]
  have htarget : e.db.account m.target.id = some m.target := by
    have hlook := h.look hg (k := .account m.target.id)
      (List.mem_cons_of_mem _ List.mem_cons_self) (by simp [Write.touches])
    rw [Val.account.inj hlook, hv.target_mem]
  have hmovements : e.db.movementsOf m.source.id = S.movementsOf m.source.id :=
    movementsOf_eq h.wf hwf h.known (Db.mem_of_account hv.source_mem).1
      (Db.mem_of_account hsource).1
  exact { hv with
    source_mem := hsource
    target_mem := htarget
    linked := h.linked hg (by simp [Movement.writes]) (by simp [Movement.writes]) hv.linked
    spent := by rw [hv.spent, Db.spent_eq, Db.spent_eq, hmovements]
    settled := fun t ht => hv.settled t (hmovements ▸ ht) }

/-- **A ready transfer commits as the abstract bank does.** -/
theorem Ready.commit {caller : Caller} {input : TransferInput}
    (h : Ready svc rounding caller input e tx) (hg : tx.Guarded e.db) (hwf : e.db.Wf) :
    (∃ row, row.status = .failed ∧ row.sentAt ≤ e.clock ∧ Linked svc rounding e.db row ∧
      tx.commit e.db = e.db.append row) ∨
    ∃ m : Movement, m.row.sentAt ≤ e.clock ∧ m.Valid svc rounding e.db ∧
      m.Describes caller input ∧ tx.commit e.db = m.apply e.db := by
  cases h with
  | @failed S row stage status linked sent =>
    refine .inl ⟨row, status, sent, stage.linked hg (by simp) (by simp) linked, ?_⟩
    rw [Tx.commit, stage.writes]
    rfl
  | @moved S m stage valid sent describes =>
    refine .inr ⟨m, sent, stage.valid hg hwf valid, describes, ?_⟩
    rw [Tx.commit, stage.writes]
    rfl

/-- **A new user commits as the abstract bank does.** -/
theorem Opening.commit {db : Db} (h : Opening svc tx) (hg : tx.Guarded db) :
    ∃ u a, Opened svc db u a ∧
      tx.commit db = { db with users := db.users ++ [u], accounts := db.accounts ++ [a] } := by
  obtain ⟨hsnap, hwrites, hopened⟩ := h
  rename_i S u a
  have hlook : ∀ k ∈ [Key.account a.id, .accountNumber a.accountNumber],
      db.look k = S.look k := fun k hk => hg S hsnap k
    (tx.covered (.insertAccount a) (by simp [hwrites]) k hk)
  have hid := hlook (.account a.id) (by simp)
  have hnumber := hlook (.accountNumber a.accountNumber) (by simp)
  refine ⟨u, a, { hopened with id_new := ?_, number_new := ?_ }, ?_⟩
  · rw [Val.account.inj hid, hopened.id_new]
  · intro a' ha' hnum
    have hany : db.accounts.any (·.accountNumber = a.accountNumber) = true :=
      List.any_eq_true.mpr ⟨a', ha', by simpa⟩
    rw [Val.taken.inj hnumber] at hany
    obtain ⟨b, hb, hbn⟩ := List.any_eq_true.mp hany
    exact hopened.number_new b hb (by simpa using hbn)
  · rw [Tx.commit, hwrites]
    rfl

end Transport

/-! ## The abstract bank -/

/-- The databases the abstract bank can have, with the time. -/
inductive History (svc : Service) (rounding : Rounding) : Instant → Db → Prop where
  | empty (now : Instant) : History svc rounding now Db.empty
  | commit {now db db'} : History svc rounding now db → Commit svc rounding now db db' →
      History svc rounding now db'
  | wait {now now' db} : History svc rounding now db → now ≤ now' →
      History svc rounding now' db

section History

variable {svc : Service} {rounding : Rounding} {now : Instant} {db : Db}

theorem History.wf (h : History svc rounding now db) : db.Wf := by
  induction h with
  | empty => exact .empty
  | commit _ hc ih => exact hc.wf ih
  | wait _ _ ih => exact ih

/-- A commit adds no row from the future. -/
theorem Commit.timely {db' : Db} (h : Commit svc rounding now db db')
    (ht : ∀ t ∈ db.transactions, t.sentAt ≤ now) : ∀ t ∈ db'.transactions, t.sentAt ≤ now := by
  intro t hmem
  cases h with
  | opened => exact ht t hmem
  | failed row _ _ sent =>
    rcases List.mem_append.mp hmem with hmem | hmem
    · exact ht t hmem
    · exact List.mem_singleton.mp hmem ▸ sent
  | moved m _ sent =>
    rcases List.mem_append.mp hmem with hmem | hmem
    · exact ht t hmem
    · exact List.mem_singleton.mp hmem ▸ sent

theorem History.timely (h : History svc rounding now db) :
    ∀ t ∈ db.transactions, t.sentAt ≤ now := by
  induction h with
  | empty => exact fun _ ht => absurd ht List.not_mem_nil
  | commit _ hc ih => exact hc.timely ih
  | wait _ hle ih => exact fun t ht => Instant.le_trans (ih t ht) hle

end History

/-! ## Refinement -/

section Kept

variable {svc : Service} {rounding : Rounding} {Request Result : Type}
  {program : Request → Run Result}

/-- The statements a call has issued. -/
abbrev Log (rounding : Rounding) := List (Event (world rounding))

/-- Programs that keep promises under which every commit is one of the service's. -/
structure Kept (svc : Service) (rounding : Rounding) (program : Request → Run Result)
    (G : Request → Log rounding → Stmt → Env → Conn → Prop)
    (Q : Request → Log rounding → Result → Env → Conn → Prop) : Prop where
  meets : ∀ q e, (program q).Meets (W := world rounding) Rely (G q) (Q q) [] e .fresh
  commits : ∀ q log e l, G q log .commit e l → ∃ tx, l = .active tx ∧
    ((∃ caller input, Ready svc rounding caller input e tx) ∨ Opening svc tx)

variable {G : Request → Log rounding → Stmt → Env → Conn → Prop}
  {Q : Request → Log rounding → Result → Env → Conn → Prop}

/-- What a transaction that is about to commit commits, if it is not aborted. -/
theorem Kept.commit (hkept : Kept svc rounding program G Q) {q : Request} {e : Env}
    (log : Log rounding) {tx : Tx schema} (hG : G q log .commit e (.active tx))
    (hg : tx.Guarded e.db) (hwf : e.db.Wf) : Commit svc rounding e.clock e.db (tx.commit e.db) := by
  obtain ⟨_, htx, ⟨caller, input, hready⟩ | hopening⟩ := hkept.commits q log e _ hG
  · obtain rfl := Conn.active.inj htx
    obtain ⟨row, hstatus, hsent, hlinked, heq⟩ | ⟨m, hsent, hvalid, -, heq⟩ :=
      hready.commit hg hwf
    · exact heq ▸ .failed row hstatus hlinked hsent
    · exact heq ▸ .moved m hvalid hsent
  · obtain rfl := Conn.active.inj htx
    obtain ⟨u, a, hopened, heq⟩ := hopening.commit hg
    exact heq ▸ .opened u a hopened

theorem exec_rely (hkept : Kept svc rounding program G Q) {clock : Instant}
    {s : State (machine rounding program)} {i : ℕ} {q : Request} {st : Stmt}
    {k : Reply st → Run Result} {loc : Conn} {log : Log rounding} {c : Choice} {r : Reply st}
    {env : Env} {loc' : Conn}
    (hreach : Reachable (M := machine rounding program) (Env.initial clock) s)
    (hi : s.call i = some ⟨q, .call st k, loc, log⟩) (hself : Rely s.env s.env)
    (hG : G q log st s.env loc)
    (hx : exec rounding (s.others i) st c s.env loc = some (r, env, loc')) :
    Rely s.env env := by
  have hclock : env.clock = s.env.clock := exec_clock hx
  obtain hdb | ⟨rfl, -, tx, rfl, -, hdb⟩ := exec_db hx
  · exact ⟨hclock ▸ Instant.le_refl _, hdb ▸ .refl _, hdb ▸ hself.wf,
      by rw [hdb, hclock]; exact hself.timely⟩
  · have hg : tx.Guarded s.env.db :=
      ((transactional rounding program).safe hreach).guarded i _ tx hi rfl
    have hcommit := hkept.commit log hG hg hself.wf
    exact ⟨hclock ▸ Instant.le_refl _, hdb ▸ hcommit.extends, hdb ▸ hcommit.wf hself.wf,
      by rw [hdb, hclock]; exact hcommit.timely hself.timely⟩

theorem tick_rely {t : Instant} {e e' : Env} (hself : Rely e e)
    (h : (machine rounding program).tick t e = some e') : Rely e e' := by
  simp only [machine] at h
  split at h
  · next hle =>
    cases h
    exact ⟨hle, .refl _, hself.wf, fun t' ht' => Instant.le_trans (hself.timely t' ht') hle⟩
  · cases h

theorem Rely.initial (clock : Instant) : Rely (Env.initial clock) (Env.initial clock) :=
  ⟨Instant.le_refl _, .refl _, .empty, fun _ ht => absurd ht List.not_mem_nil⟩

/-- **Every call of every reachable state keeps its promises.** -/
theorem Kept.reachable (hkept : Kept svc rounding program G Q) {clock : Instant}
    {s : State (machine rounding program)}
    (h : Reachable (M := machine rounding program) (Env.initial clock) s) :
    Rely s.env s.env ∧
      ∀ i c, s.call i = some c → c.rest.Meets (W := world rounding) Rely (G c.request)
        (Q c.request) c.log s.env c.loc :=
  Reachable.meets (M := machine rounding program) (Rely.initial clock) (fun _ _ h => h.refl)
    (fun _ _ _ h h' => h.trans h')
    (fun _ _ _ _ _ _ _ _ _ _ _ hreach hi hself hG hx =>
      exec_rely hkept hreach hi hself hG hx)
    (fun _ _ _ hself h => tick_rely hself h) (fun q e _ => hkept.meets q e) h

/-- Every statement of a call was issued under its promise. -/
theorem Kept.issued_under (hkept : Kept svc rounding program G Q) {clock : Instant}
    {s : State (machine rounding program)}
    (h : Reachable (M := machine rounding program) (Env.initial clock) s) {i : ℕ}
    {c : Call (machine rounding program)} (hc : s.call i = some c) {before after : Log rounding}
    {ev : Event (world rounding)} (hlog : c.log = before ++ ev :: after) :
    ∃ loc, G c.request before ev.stmt ev.env loc :=
  @Reachable.issued_under (machine rounding program) Rely (Env.initial clock) G Q
    (fun h => hkept.reachable h) s h i c hc before after ev hlog

/-- **What a step does to the database.** It leaves it as it is, or a call commits its
transaction under its promise, which holds its keys as its snapshot has them. -/
theorem Kept.step (hkept : Kept svc rounding program G Q) {clock : Instant}
    {s t : State (machine rounding program)} {a : Act (machine rounding program)}
    (hreach : Reachable (M := machine rounding program) (Env.initial clock) s)
    (hn : next s a = some t) :
    t.env.db = s.env.db ∨ ∃ i choice q k tx log, a = .run i choice ∧
      s.call i = some ⟨q, .call Stmt.commit k, .active tx, log⟩ ∧
      G q log .commit s.env (.active tx) ∧ tx.Guarded s.env.db ∧ tx.aborted = false ∧
      t.env.clock = s.env.clock ∧ t.env.db = tx.commit s.env.db := by
  obtain ⟨i, q, rfl, -, rfl⟩ | ⟨i, choice, q, st, k, loc, log, r, env, loc', rfl, hi, hx, rfl⟩ |
    ⟨m, env, rfl, hm, rfl⟩ := next_cases hn
  · exact .inl rfl
  · have hclock : Env.clock env = s.env.clock := exec_clock hx
    obtain hdb | ⟨rfl, -, tx, rfl, ha, hdb⟩ := exec_db hx
    · exact .inl hdb
    · obtain ⟨hself, hkeeps⟩ := hkept.reachable hreach
      exact .inr ⟨i, choice, q, k, tx, log, rfl, hi, (hkeeps i _ hi s.env hself).1,
        ((transactional rounding program).safe hreach).guarded i _ tx hi rfl, ha,
        hclock, hdb⟩
  · exact .inl ((transactional rounding program).tick hm)

/-- **Refinement.** The database of every reachable state is one the abstract bank can have. -/
theorem Kept.history (hkept : Kept svc rounding program G Q) {clock : Instant}
    {s : State (machine rounding program)}
    (h : Reachable (M := machine rounding program) (Env.initial clock) s) :
    History svc rounding s.env.clock s.env.db := by
  refine h.induct (P := fun s : State (machine rounding program) =>
    History svc rounding s.env.clock s.env.db)
    (.empty clock) ?_
  intro s t a hreach ih hn
  obtain ⟨hself, -⟩ := hkept.reachable hreach
  have hle : s.env.clock ≤ t.env.clock := by
    obtain ⟨i, q, rfl, -, rfl⟩ | ⟨i, choice, q, st, k, loc, log, r, env, loc', rfl, hi, hx, rfl⟩ |
      ⟨m, env, rfl, hm, rfl⟩ := next_cases hn
    · exact Instant.le_refl _
    · exact exec_clock hx ▸ Instant.le_refl _
    · exact (tick_rely hself hm).clock
  obtain hdb | ⟨i, choice, q, k, tx, log, rfl, hi, hG, hg, -, hclock, hdb⟩ := hkept.step hreach hn
  · exact hdb ▸ ih.wait hle
  · exact hdb ▸ (ih.commit (hkept.commit log hG hg hself.wf)).wait hle

/-- Later databases extend earlier ones. -/
theorem Kept.extends (hkept : Kept svc rounding program G Q) {clock : Instant}
    {s t : State (machine rounding program)} {acts : List (Act (machine rounding program))}
    (hreach : Reachable (M := machine rounding program) (Env.initial clock) s)
    (h : Steps s acts t) : s.env.db.Extends t.env.db := by
  induction h with
  | nil => exact .refl _
  | @snoc acts a u v hs hn ih =>
    have hu := hreach.steps hs
    obtain hdb | ⟨i, choice, q, k, tx, log, -, -, hG, hg, -, -, hdb⟩ := hkept.step hu hn
    · exact hdb ▸ ih
    · exact hdb ▸ ih.trans (hkept.commit log hG hg (hkept.reachable hu).1.wf).extends

end Kept

/-! ## The service -/

section Service

variable (svc : Service) (rounding : Rounding)

/-- Under what a call of the service issues its statements. -/
def ServicePromise : Request → Stmt → Env → Conn → Prop
  | .transfer caller input => TransferPromise svc rounding caller input
  | .createUser _ => CreatePromise svc

/-- What a call of the service that returned has done. -/
def ServiceOutcome : Request → Result → Env → Conn → Prop
  | .transfer caller input, .transfer result, e, l => TransferOutcome caller input result e l
  | _, _, _, _ => True

/-- **The service keeps its promises.** -/
theorem service_kept :
    Kept svc rounding svc.program (fun q _ => ServicePromise svc rounding q)
      (fun q _ => ServiceOutcome q) where
  meets q e := by
    refine (?_ : Keeps rounding (ServicePromise svc rounding q) (ServiceOutcome q) _ e .fresh) []
    cases q with
    | transfer caller input =>
      refine Keeps.bind
        (transfer_meets.mono (fun _ _ _ h => h) ?_)
      intro r e' l h
      refine keeps_ret fun e'' hr txID htx => ?_
      obtain ⟨row, hrow, hid, hstatus, hcase⟩ := h txID htx
      exact ⟨row, hr.grows.transactions.subset hrow, hid, hstatus,
        hcase.imp_left fun h => ⟨h.1, h.2.extends hr.grows⟩⟩
    | createUser input =>
      refine Keeps.bind
        (createUser_meets.mono (fun _ _ _ h => h) ?_)
      exact fun _ _ _ _ => keeps_ret fun _ _ => trivial
  commits q log e l h := by
    cases q with
    | transfer caller input =>
      obtain ⟨tx, rfl, hready⟩ := h
      exact ⟨tx, rfl, .inl ⟨caller, input, hready⟩⟩
    | createUser input =>
      obtain ⟨tx, rfl, hopening⟩ := h
      exact ⟨tx, rfl, .inr hopening⟩

end Service

end Bank
