import MiniBanking.Bank.Refinement

/-!
# Conservation of money

Every balance is the opening balance with what completed transactions brought and took, and the
sum of all balances changes only when a new user is given an account.

## Main definitions

* `Db.received`, `Db.sent`: what completed transactions brought to and took from an account
* `Db.total`: the money in the bank

## Main results

* `History.balanced`: every balance is accounted for
* `money_conservation`: the same for every reachable state of interleaved calls, with what each
  step does to the sum of all balances
-/

namespace Bank

open Concurrency Go Postgres

/-- The amounts of some transactions. -/
def amounts (ts : List Transaction) : ℤ := (ts.map (·.amount.toInt)).sum

/-- What completed transactions brought to an account. -/
def Db.received (db : Db) (id : Uuid) : ℤ :=
  amounts (db.transactions.filter fun t => t.status = .completed ∧ t.toAccountId = some id)

/-- What completed transactions took from an account. -/
def Db.sent (db : Db) (id : Uuid) : ℤ :=
  amounts (db.transactions.filter fun t => t.status = .completed ∧ t.fromAccountId = some id)

/-- The money in the bank. -/
def Db.total (db : Db) : ℤ := (db.accounts.map (·.balance.toInt)).sum

/-- The balance a new account is given. -/
def openingBalance : ℤ := 50000000

/-- The balance of every account is its opening balance with what completed transactions brought
and took. -/
def Db.Balanced (db : Db) : Prop :=
  ∀ a ∈ db.accounts, a.balance.toInt = openingBalance + db.received a.id - db.sent a.id

/-! ## Sums -/

@[simp] theorem amounts_nil : amounts [] = 0 := rfl

@[simp] theorem amounts_append (ts us : List Transaction) :
    amounts (ts ++ us) = amounts ts + amounts us := by
  simp [amounts]

@[simp] theorem amounts_singleton (t : Transaction) : amounts [t] = t.amount.toInt := by
  simp [amounts]

theorem amounts_filter_append (p : Transaction → Prop) [DecidablePred p]
    (ts : List Transaction) (row : Transaction) :
    amounts ((ts ++ [row]).filter p) =
      amounts (ts.filter p) + if p row then row.amount.toInt else 0 := by
  rw [List.filter_append, amounts_append, List.filter_singleton]
  by_cases h : p row <;> simp [h]

section Append

variable {db db' : Db} {row : Transaction} (id : Uuid)
  (h : db'.transactions = db.transactions ++ [row])

include h

theorem Db.received_append : db'.received id =
    db.received id + if row.status = .completed ∧ row.toAccountId = some id
      then row.amount.toInt else 0 := by
  unfold Db.received
  rw [h, amounts_filter_append]

theorem Db.sent_append : db'.sent id =
    db.sent id + if row.status = .completed ∧ row.fromAccountId = some id
      then row.amount.toInt else 0 := by
  unfold Db.sent
  rw [h, amounts_filter_append]

end Append

/-- A new balance of one account changes the sum of all balances by the difference. -/
theorem sum_withBalance {accounts : List Account} (hids : (accounts.map (·.id)).Nodup)
    {a : Account} (ha : accounts.find? (·.id = a.id) = some a) (balance : Int64)
    (check : 0 ≤ balance) :
    ((withBalance accounts a.id balance check).map (·.balance.toInt)).sum =
      (accounts.map (·.balance.toInt)).sum + (balance.toInt - a.balance.toInt) := by
  induction accounts with
  | nil => cases ha
  | cons b accounts ih =>
    rw [List.map_cons, List.nodup_cons] at hids
    by_cases hb : b.id = a.id
    · obtain rfl : b = a := by simpa [hb] using ha
      have hsame : withBalance accounts b.id balance check = accounts := by
        refine (List.map_congr_left fun c hc => ?_).trans (List.map_id _)
        have hne : c.id ≠ b.id := fun hcb => hids.1 (hcb ▸ List.mem_map_of_mem hc)
        rw [if_neg hne, id]
      rw [withBalance_cons, if_pos rfl, hsame, List.map_cons, List.sum_cons, List.map_cons,
        List.sum_cons]
      simp only [Account.setBalance]
      omega
    · rw [withBalance_cons, if_neg hb, List.map_cons, List.sum_cons, List.map_cons,
        List.sum_cons, ih hids.2 (by simpa [hb] using ha)]
      omega

/-! ## What commits do to balances -/

section Commits

variable {svc : Service} {rounding : Rounding} {now : Instant} {db db' : Db}

/-- No transaction names an account that does not exist. -/
theorem Db.Wf.unnamed (h : db.Wf) {id : Uuid} (hid : db.account id = none) :
    db.received id = 0 ∧ db.sent id = 0 := by
  constructor
  · rw [Db.received, List.filter_eq_nil_iff.mpr, amounts_nil]
    intro t ht hp
    exact h.named t ht id (.inr (by simpa using (decide_eq_true_iff.mp hp).2)) hid
  · rw [Db.sent, List.filter_eq_nil_iff.mpr, amounts_nil]
    intro t ht hp
    exact h.named t ht id (.inl (by simpa using (decide_eq_true_iff.mp hp).2)) hid

/-- A movement takes from one account what it brings to the other. -/
theorem Movement.Valid.balanced {m : Movement} (h : m.Valid svc rounding db) (hwf : db.Wf)
    (hb : db.Balanced) : (m.apply db).Balanced := by
  intro a' ha'
  rw [Db.received_append _ (m.apply_transactions db), Db.sent_append _ (m.apply_transactions db),
    h.row_source, h.row_target, h.status]
  simp only [Movement.apply, Db.append_accounts, mem_withBalance] at ha'
  obtain ⟨_, ⟨a, ha, rfl⟩, rfl⟩ := ha'
  have hold := hb a ha
  have hfind := hwf.account_of_mem ha
  by_cases hs : a.id = m.source.id
  · have ht : a.id ≠ m.target.id := fun ht => h.distinct (hs.symm.trans ht)
    obtain rfl : a = m.source := Option.some.inj (hfind.symm.trans (hs ▸ h.source_mem))
    have hdebit := h.debit
    simp only [if_true, ht, if_false, Account.setBalance, true_and,
      Option.some.injEq, h.distinct.symm]
    omega
  · by_cases ht : a.id = m.target.id
    · obtain rfl : a = m.target := Option.some.inj (hfind.symm.trans (ht ▸ h.target_mem))
      have hcredit := h.credit
      simp only [hs, if_false, if_true, Account.setBalance, true_and, Option.some.injEq,
        h.distinct]
      omega
    · simp only [hs, ht, if_false, true_and, Option.some.injEq, Ne.symm hs, Ne.symm ht]
      omega

theorem Commit.balanced (h : Commit svc rounding now db db') (hwf : db.Wf)
    (hb : db.Balanced) : db'.Balanced := by
  cases h with
  | opened u a h =>
    intro a' ha'
    rcases List.mem_append.mp ha' with ha' | ha'
    · exact hb a' ha'
    · obtain rfl := List.mem_singleton.mp ha'
      obtain ⟨hreceived, hsent⟩ := hwf.unnamed h.id_new
      show a'.balance.toInt = openingBalance + db.received a'.id - db.sent a'.id
      rw [hreceived, hsent, h.balance]
      decide
  | failed row status =>
    intro a ha
    rw [Db.received_append _ (db.append_transactions row),
      Db.sent_append _ (db.append_transactions row), status]
    simpa using hb a ha
  | moved m h => exact h.balanced hwf hb

/-- A movement leaves the sum of all balances as it is. -/
theorem Movement.Valid.total {m : Movement} (h : m.Valid svc rounding db) (hwf : db.Wf) :
    (m.apply db).total = db.total := by
  have hids : ((withBalance db.accounts m.source.id m.debited m.debited_check).map
      (·.id)).Nodup := by
    rw [map_withBalance _ _ _ _ _ fun _ => rfl]
    exact hwf.account_ids
  have htarget : (withBalance db.accounts m.source.id m.debited m.debited_check).find?
      (·.id = m.target.id) = some m.target :=
    (find_withBalance _ _ _ _ h.distinct.symm).trans h.target_mem
  have hdebit := h.debit
  have hcredit := h.credit
  simp only [Db.total, Movement.apply, Db.append_accounts]
  rw [sum_withBalance hids htarget, sum_withBalance hwf.account_ids h.source_mem]
  omega

end Commits

section History

variable {svc : Service} {rounding : Rounding} {now : Instant} {db : Db}

/-- **Every balance is accounted for.** -/
theorem History.balanced (h : History svc rounding now db) : db.Balanced := by
  induction h with
  | empty => exact fun _ ha => absurd ha List.not_mem_nil
  | commit h hc ih => exact hc.balanced h.wf ih
  | wait _ _ ih => exact ih

end History

theorem Account.balance_nonneg (a : Account) : 0 ≤ a.balance.toInt :=
  Int64.le_iff_toInt_le.mp a.balance_check

/-! ## Interleaved calls -/

/-- A user is created in a step, with one account that has the opening balance. -/
def Creates {svc : Service} {rounding : Rounding} (s : State (serviceMachine svc rounding))
    (a : Act (serviceMachine svc rounding)) (t : State (serviceMachine svc rounding)) : Prop :=
  ∃ i choice c input account, a = .run i choice ∧ s.call i = some c ∧
    c.request = Request.createUser input ∧
    t.env.db.accounts = s.env.db.accounts ++ [account] ∧
    account.balance.toInt = openingBalance

/-- **Money conservation.** In every state that interleaved transfers and creations of users can
reach, with any of them failing at any statement, every balance is the opening balance with what
completed transactions brought and took, no balance is negative, and the sum of all balances
changes only in a step that creates a user. -/
theorem money_conservation (svc : Service) (rounding : Rounding) (clock : Instant)
    (s : State (serviceMachine svc rounding)) (h : Reachable (Env.initial clock) s) :
    Db.Balanced s.env.db ∧ (∀ a ∈ s.env.db.accounts, 0 ≤ a.balance.toInt) ∧
      ∀ a t, next s a = some t →
        Db.total t.env.db = Db.total s.env.db ∨
          (Creates s a t ∧
            Db.total t.env.db = Db.total s.env.db + openingBalance) := by
  have hkept := service_kept svc rounding
  have hwf := (hkept.history h).wf
  refine ⟨(hkept.history h).balanced, fun a _ => a.balance_nonneg, fun a t hn => ?_⟩
  obtain hdb | ⟨i, choice, q, k, tx, log, rfl, hi, hG, hg, -, -, hdb⟩ := hkept.step h hn
  · exact .inl (congrArg Db.total hdb)
  cases q with
  | transfer caller input =>
    obtain ⟨_, htx, hready⟩ := hG
    obtain rfl := Conn.active.inj htx
    obtain ⟨row, -, -, -, heq⟩ | ⟨m, -, hvalid, -, heq⟩ := hready.commit hg hwf
    · exact .inl (by rw [hdb.trans heq]; rfl)
    · exact .inl ((congrArg Db.total (hdb.trans heq)).trans (hvalid.total hwf))
  | createUser input =>
    obtain ⟨_, htx, hopening⟩ := hG
    obtain rfl := Conn.active.inj htx
    obtain ⟨u, a, hopened, heq⟩ := hopening.commit hg
    have hbalance : a.balance.toInt = openingBalance := by
      rw [hopened.balance]
      decide
    refine .inr ⟨⟨i, choice, _, input, a, rfl, hi, rfl, ?_, hbalance⟩, ?_⟩
    · exact congrArg Db.accounts (hdb.trans heq)
    · rw [hdb.trans heq]
      simp [Db.total, hbalance]

/-- Every balance after the sample payment is accounted for. -/
theorem money_conservation_of_samplePaid : ∃ s : State (serviceMachine sampleService .cut),
    s.env.db.accounts.map (·.balance) = [49999750, 50000250] ∧ Db.Balanced s.env.db ∧
      ∀ a t, next s a = some t → Db.total t.env.db = Db.total s.env.db ∨
        (Creates s a t ∧ Db.total t.env.db = Db.total s.env.db + openingBalance) := by
  obtain ⟨s, hs, hview⟩ := samplePaid_runs
  obtain ⟨hbalanced, -, hstep⟩ := money_conservation sampleService .cut sampleClock s ⟨_, hs⟩
  exact ⟨s, (Prod.mk.inj hview).1, hbalanced, hstep⟩

end Bank
