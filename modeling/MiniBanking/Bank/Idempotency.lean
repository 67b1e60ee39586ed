import MiniBanking.Bank.Refinement

/-!
# Idempotency keys

What a successful transfer says about the database, and what calls that share an idempotency key
can do to it together.

## Main definitions

* `MovesMoney`: a step of a transfer with a given key that changes the accounts
* `Loses`: a step in which the insert of a transfer fails

## Main results

* `transfer_success`: a transfer that succeeds has happened, or was answered with a completed
  transaction that had its key already
* `moves_once`: of the calls that share a key, one moves money at most once
* `loser_leaves_nothing`: a transfer whose insert fails might as well not have been called
-/

namespace Bank

open Concurrency Go Postgres

section

variable {svc : Service} {rounding : Rounding} {clock : Instant}

/-! ## Success -/

/-- **Success means that a transfer happened.** When a transfer has returned a transaction id,
the database holds a completed transaction with this id. If the call ran a transaction of its
own, it is the transfer that was asked for: the account debited belongs to the caller, and
numbers, amount and currency are those of the request. Otherwise it had the idempotency key of
the request already when the call looked the key up. -/
theorem transfer_success {s : State (serviceMachine svc rounding)}
    (h : Reachable (Env.initial clock) s) {i : ℕ} {c : Call (serviceMachine svc rounding)}
    (hi : s.call i = some c) {caller : Caller} {input : TransferInput}
    (hrequest : c.request = Request.transfer caller input) {txID : String}
    (hresult : c.rest.result = some (Result.transfer (.ok txID))) :
    ∃ row ∈ s.env.db.transactions, row.id.text = txID ∧ row.status = .completed ∧
      ((c.loc = Conn.done ∧ Performed s.env.db caller input row) ∨
        (c.loc = Conn.fresh ∧ row.idempotencyKey = input.idempotencyKey)) := by
  obtain ⟨hself, hkeeps⟩ := (service_kept svc rounding).reachable h
  have hkeep := hkeeps i c hi
  rw [Program.eq_ret_of_result hresult, hrequest] at hkeep
  exact hkeep s.env hself txID rfl

end

/-- A transaction id is returned by a transfer that succeeded. -/
theorem Result.eq_of_txID {r : Result} {txID : String} (h : r.txID = some txID) :
    r = .transfer (.ok txID) := by
  unfold Result.txID at h
  split at h
  · rw [Option.some.inj h]
  · cases h

/-- The sample payment succeeds, and is in the database. -/
theorem transfer_success_of_samplePaid : ∃ s : State (serviceMachine sampleService .cut),
    ∃ row ∈ s.env.db.transactions, row.id.text = "66666666-6666-4666-a666-666666666666" ∧
      row.status = .completed := by
  obtain ⟨s, hs, hview⟩ := samplePaid_runs
  simp only [Prod.mk.injEq, decide_eq_true_eq, State.request, State.result,
    Option.map_eq_some_iff, Option.bind_eq_some_iff] at hview
  obtain ⟨-, -, ⟨c, hc, hrequest⟩, r, ⟨c', hc', hr⟩, htx⟩ := hview
  obtain rfl := Option.some.inj (hc.symm.trans hc')
  obtain rfl := Result.eq_of_txID htx
  have hreach : Reachable (Env.initial sampleClock) s := ⟨_, hs⟩
  obtain ⟨row, hrow, hid, hstatus, -⟩ := transfer_success hreach hc hrequest hr
  exact ⟨s, row, hrow, hid, hstatus⟩

/-- One user pays another; then the other one uses the same key to pay back more. -/
def keyReused : List (Act (serviceMachine sampleService .cut)) :=
  samplePaid ++ sampleCall 3 (samplePay 2 1 999 "n2" "k") 1

theorem keyReused_runs : ∃ s, Steps sampleStart keyReused s ∧
    (decide (s.request 3 = some (samplePay 2 1 999 "n2" "k")), (s.result 3).bind Result.txID,
      s.env.db.transactions.map (·.amount)) =
    (true, some "66666666-6666-4666-a666-666666666666", [250]) :=
  steps_of_view (by decide +kernel)

/-- The call that reused the key succeeds, and no completed transaction is the transfer it asked
for. -/
theorem transfer_success_of_reused_key :
    ¬ ∀ (s : State (serviceMachine sampleService .cut)),
      Reachable (Env.initial sampleClock) s → ∀ i c (caller : Caller) (input : TransferInput) txID,
        s.call i = some c → c.request = Request.transfer caller input →
        c.rest.result = some (Result.transfer (.ok txID)) →
        ∃ row ∈ s.env.db.transactions, row.id.text = txID ∧ row.status = .completed ∧
          Performed s.env.db caller input row := by
  intro h
  obtain ⟨s, hs, hview⟩ := keyReused_runs
  simp only [Prod.mk.injEq, decide_eq_true_eq, State.request, State.result,
    Option.map_eq_some_iff, Option.bind_eq_some_iff] at hview
  obtain ⟨⟨c, hc, hrequest⟩, ⟨r, ⟨c', hc', hr⟩, htx⟩, hamounts⟩ := hview
  obtain rfl := Option.some.inj (hc.symm.trans hc')
  obtain rfl := Result.eq_of_txID htx
  obtain ⟨row, hrow, -, -, hperformed⟩ := h s ⟨_, hs⟩ 3 c _ _ _ hc hrequest hr
  have hamount : row.amount ∈ ([250] : List Int64) := hamounts ▸ List.mem_map_of_mem hrow
  rw [hperformed.amount] at hamount
  exact absurd hamount (by decide)

/-! ## Calls that share a key -/

section

variable {svc : Service} {rounding : Rounding} {clock : Instant}

/-- A step of a transfer with an idempotency key changes the accounts. -/
def MovesMoney (key : String) (s : State (serviceMachine svc rounding))
    (a : Act (serviceMachine svc rounding)) (t : State (serviceMachine svc rounding)) : Prop :=
  ∃ i choice c caller input, a = .run i choice ∧ s.call i = some c ∧
    c.request = Request.transfer caller input ∧ input.idempotencyKey = key ∧
    t.env.db.accounts ≠ s.env.db.accounts

/-- A step that moves money adds a row under its key, which was not there before. -/
theorem MovesMoney.row {key : String} {s t : State (serviceMachine svc rounding)}
    {a : Act (serviceMachine svc rounding)} (hreach : Reachable (Env.initial clock) s)
    (hn : next s a = some t) (h : MovesMoney key s a t) :
    ∃ row ∈ t.env.db.transactions, varcharIn 255 key = some row.idempotencyKey ∧
      ∀ t' ∈ s.env.db.transactions, t'.idempotencyKey ≠ row.idempotencyKey := by
  obtain ⟨i, choice, c, caller, input, rfl, hc, hq, rfl, hchanged⟩ := h
  have hkept := service_kept svc rounding
  obtain hdb | ⟨j, choice', q, k, tx, log, hact, hj, hG, hg, -, -, hdb⟩ := hkept.step hreach hn
  · exact absurd (congrArg Db.accounts hdb) hchanged
  cases hact
  obtain rfl := Option.some.inj (hc.symm.trans hj)
  obtain rfl : q = Request.transfer caller input := hq
  obtain ⟨_, htx, hready⟩ := hG
  obtain rfl := Conn.active.inj htx
  obtain ⟨row, -, -, -, heq⟩ | ⟨m, -, hvalid, hdescribes, heq⟩ :=
    hready.commit hg (hkept.reachable hreach).1.wf
  · exact absurd (by rw [hdb.trans heq]; rfl) hchanged
  · refine ⟨m.row, ?_, hdescribes.key, fun t' ht' => (hvalid.linked.admitted.2.2 t' ht').2.2⟩
    rw [hdb.trans heq, Movement.apply_transactions]
    exact List.mem_append_right _ (List.mem_singleton_self _)

/-- Of two steps that move money under one key, none is before the other. -/
theorem MovesMoney.not_lt {key : String} {acts : List (Act (serviceMachine svc rounding))}
    {m n : ℕ} {a a' : Act (serviceMachine svc rounding)}
    {u v u' v' : State (serviceMachine svc rounding)}
    (h : TakenAt ⟨Env.initial clock, ∅⟩ acts m a u v)
    (h' : TakenAt ⟨Env.initial clock, ∅⟩ acts n a' u' v') (hm : MovesMoney key u a v)
    (hm' : MovesMoney key u' a' v') : ¬ m < n := by
  intro hmn
  obtain ⟨bs, hsteps⟩ := h.steps h' hmn
  have hu : Reachable (Env.initial clock) u := ⟨_, h.before⟩
  obtain ⟨row, hrow, hkey, -⟩ := hm.row hu h.step
  obtain ⟨row', -, hkey', hnew⟩ := hm'.row ((hu.next h.step).steps hsteps) h'.step
  have hgrows := ((service_kept svc rounding).extends (hu.next h.step) hsteps).transactions
  exact hnew row (hgrows.subset hrow) (Option.some.inj (hkey.symm.trans hkey'))

/-! ## Losing the race -/

/-- The insert of transfer `i` fails in a step. -/
def Loses (i : ℕ) (choice : Choice) (s : State (serviceMachine svc rounding)) : Prop :=
  ∃ caller input q k loc log, s.call i = some ⟨Request.transfer caller input,
      .call (Stmt.query q) k, loc, log⟩ ∧
    ((∃ t, q = .insertTransaction t) ∨ ∃ t, q = .insertFailedTransaction t) ∧
    ∃ env loc', exec rounding (s.others i) (.query q) choice s.env loc =
      some (.error .failed, env, loc')

/-- A failed insert leaves the transaction dead. -/
theorem dead_of_failed_insert {q : Query}
    (hq : (∃ t, q = .insertTransaction t) ∨ ∃ t, q = .insertFailedTransaction t)
    {others : List Conn} {c : Choice} {e e' : Env} {tx : Tx schema} {l' : Conn}
    (h : exec rounding others (.query q) c e (.active tx) = some (.error .failed, e', l')) :
    l'.Dead := by
  rw [exec_query] at h
  obtain ⟨-, ⟨tx', -, -, rfl⟩ | ⟨tx', f, -, -, hplan, hreply, -⟩ | ⟨htx, -⟩⟩ := inTx_cases h
  · rfl
  · obtain ⟨t, rfl⟩ | ⟨t, rfl⟩ := hq
    · obtain ⟨_, _, _, -, -, -, -, rfl⟩ := insertTransaction_cases hplan
      cases hreply
    · obtain ⟨_, _, _, -, -, rfl⟩ := insertFailedTransaction_cases hplan
      cases hreply
  · cases htx

/-- A statement of a transfer changes the environment by committing, with which its transaction
is over. -/
theorem transfer_quiet {s : State (serviceMachine svc rounding)}
    (hreach : Reachable (Env.initial clock) s) {i : ℕ} {caller : Caller} {input : TransferInput}
    {st : Stmt} {k : Reply st → Run Result} {loc loc' : Conn} {choice : Choice} {r : Reply st}
    {env : Env} {log : Log rounding}
    (hi : s.call i = some ⟨Request.transfer caller input, .call st k, loc, log⟩)
    (hx : exec rounding (s.others i) st choice s.env loc = some (r, env, loc')) :
    env = s.env ∨ (loc' = .done ∧ ¬ loc.Dead) := by
  obtain ⟨hself, hkeeps⟩ := (service_kept svc rounding).reachable hreach
  have hG : TransferPromise svc rounding caller input st s.env loc := (hkeeps i _ hi _ hself).1
  obtain rfl | ⟨-, rfl, tx, rfl, ha, -⟩ | ⟨hmarks, -⟩ := exec_env hx
  · exact .inl rfl
  · exact .inr ⟨rfl, fun hdead => Bool.false_ne_true (ha.symm.trans hdead)⟩
  · exact absurd hG.marks (by rw [hmarks]; decide)

/-- The statements of a transfer whose insert fails leave the environment as it is, before the
insert because its transaction would be over, after it because its transaction is dead. -/
theorem Loses.quiet {acts : List (Act (serviceMachine svc rounding))} {i n : ℕ} {choice : Choice}
    {u v : State (serviceMachine svc rounding)}
    (h : TakenAt ⟨Env.initial clock, ∅⟩ acts n (.run i choice) u v) (hloses : Loses i choice u) :
    Quiet i ⟨Env.initial clock, ∅⟩ acts := by
  obtain ⟨caller, input, q, k, loc, log, hi, hq, env, loc', hx⟩ := hloses
  have hu : Reachable (Env.initial clock) u := ⟨_, h.before⟩
  -- the insert is issued in an open transaction, and leaves it dead
  obtain ⟨tx, rfl⟩ : ∃ tx, loc = .active tx := by
    obtain ⟨hself, hkeeps⟩ := (service_kept svc rounding).reachable hu
    have hG := (hkeeps i _ hi _ hself).1
    obtain ⟨t, rfl⟩ | ⟨t, rfl⟩ := hq <;> exact hG
  have hdead : loc'.Dead := dead_of_failed_insert hq hx
  obtain rfl : v = _ := Option.some.inj (h.step.symm.trans (next_run hi hx))
  intro m choice' u' v' h'
  obtain ⟨j, q', hact, -⟩ | ⟨j, choice'', q', st, k', l, log', r, env', l', hact, hj, hx', rfl⟩ |
    ⟨_, _, hact, -⟩ := next_cases h'.step
  · cases hact
  swap
  · cases hact
  cases hact
  have hu' : Reachable (Env.initial clock) u' := ⟨_, h'.before⟩
  rcases Nat.lt_trichotomy m n with hmn | rfl | hnm
  · obtain ⟨bs, hsteps⟩ := h'.steps h hmn
    obtain ⟨c, hc, hrequest, hdone⟩ := hsteps.loc (P := fun l : Conn => l' = .done → l = .done)
      (fun _ _ _ _ _ _ _ _ he hl hl' => exec_done he (hl hl')) (State.call_put_self _ _ _) id
    obtain rfl := Option.some.inj (hi.symm.trans hc)
    obtain rfl : q' = Request.transfer caller input := hrequest.symm
    obtain henv | ⟨hl', -⟩ := transfer_quiet hu' hj hx'
    · exact henv
    · cases hdone hl'
  · obtain ⟨-, rfl, heq⟩ := h.det h'
    rw [exec_query] at hx
    exact (congrArg State.env heq).symm.trans (inTx_cases hx).1
  · obtain ⟨bs, hsteps⟩ := h.steps h' hnm
    obtain ⟨c, hc, hrequest, hdead'⟩ := hsteps.loc (P := Conn.Dead)
      (fun _ _ _ _ _ _ _ _ he hl => exec_dead he hl) (State.call_put_self _ _ _) hdead
    obtain rfl := Option.some.inj (hj.symm.trans hc)
    obtain rfl : q' = Request.transfer caller input := hrequest
    obtain henv | ⟨-, halive⟩ := transfer_quiet hu' hj hx'
    · exact henv
    · exact absurd hdead' halive

/-- **No double execution.** In every run of interleaved calls, no two rows have one idempotency
key or one nonce; of the calls that share an idempotency key, at most one moves money, in one
step; and a transfer whose insert fails can be taken out of the run, which leaves the whole
environment and all other calls as they are. -/
theorem no_double_execution (svc : Service) (rounding : Rounding) (clock : Instant)
    (acts : List (Act (serviceMachine svc rounding))) (s : State (serviceMachine svc rounding))
    (h : Steps ⟨Env.initial clock, ∅⟩ acts s) :
    ((s.env.db.transactions.map (·.idempotencyKey)).Nodup ∧
      (s.env.db.transactions.map (·.nonce)).Nodup) ∧
    (∀ key m n a a' u v u' v', TakenAt ⟨Env.initial clock, ∅⟩ acts m a u v →
      TakenAt ⟨Env.initial clock, ∅⟩ acts n a' u' v' → MovesMoney key u a v →
      MovesMoney key u' a' v' → m = n) ∧
    ∀ i n choice u v, TakenAt ⟨Env.initial clock, ∅⟩ acts n (.run i choice) u v →
      Loses i choice u →
      ∃ s', Steps ⟨Env.initial clock, ∅⟩ (acts.filter fun a => !a.isOf i) s' ∧ s.Erased i s' := by
  have hwf := ((service_kept svc rounding).reachable ⟨acts, h⟩).1.wf
  refine ⟨⟨hwf.idempotency_keys, hwf.nonces⟩, ?_, ?_⟩
  · intro key m n a a' u v u' v' hm hn hmoves hmoves'
    exact Nat.le_antisymm (Nat.le_of_not_lt (MovesMoney.not_lt hn hm hmoves' hmoves))
      (Nat.le_of_not_lt (MovesMoney.not_lt hm hn hmoves hmoves'))
  · intro i n choice u v htaken hloses
    exact h.erase (fun _ _ _ _ _ _ _ hsub hx => exec_mono hsub hx) ⟨rfl, rfl, fun _ _ => rfl⟩
      (hloses.quiet htaken)

end

/-- Two payments under one key look the key up before either of them begins. -/
def keyRaced : List (Act (serviceMachine sampleService .cut)) :=
  sampleCall 0 (sampleCreate 1) 7 ++ sampleCall 1 (sampleCreate 2) 7 ++
    sampleCall 2 (samplePay 1 2 250 "n1" "k") 1 ++ sampleCall 3 (samplePay 2 1 999 "n2" "k") 1 ++
    (sampleCall 2 (samplePay 1 2 250 "n1" "k") 16).tail ++
    (sampleCall 3 (samplePay 2 1 999 "n2" "k") 14).tail

theorem keyRaced_runs : ∃ s, Steps sampleStart keyRaced s ∧
    ((s.result 3).map Result.txID, s.env.db.transactions.map (·.amount)) = (some none, [250]) :=
  steps_of_view (by decide +kernel)

/-- Of the two payments under one key, the one that began first moved money. -/
theorem no_double_execution_of_keyRaced : ∃ s, Steps sampleStart keyRaced s ∧
    s.env.db.transactions.map (·.amount) = [250] ∧
    ∀ m n a a' u v u' v', TakenAt sampleStart keyRaced m a u v →
      TakenAt sampleStart keyRaced n a' u' v' → MovesMoney "k" u a v → MovesMoney "k" u' a' v' →
      m = n := by
  obtain ⟨s, hs, hview⟩ := keyRaced_runs
  obtain ⟨-, honce, -⟩ := no_double_execution sampleService .cut sampleClock keyRaced s hs
  exact ⟨s, hs, (Prod.mk.inj hview).2, honce "k"⟩

end Bank
