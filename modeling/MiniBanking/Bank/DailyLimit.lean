import MiniBanking.Bank.Conservation
import Mathlib.Algebra.Order.BigOperators.Group.List
import Mathlib.Data.Finset.Card

/-!
# The daily limit

What an account sends in a UTC day stays within its limit, whatever midnight does between the
three clock readings of a transfer and however the time of its row is rounded. The sum that is
compared with the limit does not overflow, since all the money there can be fits into 64 bits.

## Main definitions

* `Db.sentOn`: what an account has sent in a day
* `Db.Limited`: the invariant behind the limit

## Main results

* `length_accounts_le`: there are no more accounts than account numbers
* `Db.Limited.spent_le`: what a limit check sums up is at most twice the limit
* `Db.Limited.no_overflow`: the sum of the limit check is exact
* `History.limited`: every database the abstract bank can have is within the limits
* `daily_limit`: the limit in every reachable state of interleaved calls, and the sum in every
  limit check
-/

namespace Bank

open Concurrency Go Postgres

/-- The UTC day of a time in microseconds. -/
def dayOfMicros (μ : ℤ) : ℤ := day (1000 * μ)

/-- What an account has sent in completed transactions of a day. -/
def Db.sentOn (db : Db) (id : Uuid) (d : ℤ) : ℤ :=
  amounts (db.transactions.filter fun t =>
    t.status = .completed ∧ t.fromAccountId = some id ∧ dayOfMicros t.createdAt = d)

/-- The daily limit of a new account. -/
def openingLimit : ℤ := 50000000

/-- Rows keep the rounded times, accounts have the limit and the number they were opened with, the
money in the bank is what was given to them, and no account has sent more than its limit in a
day. -/
structure Db.Limited (svc : Service) (rounding : Rounding) (db : Db) : Prop where
  created : ∀ t ∈ db.transactions, t.createdAt = rounding.toMicros t.sentAt.ns
  limits : ∀ a ∈ db.accounts, a.dailyTransferLimit.toInt = openingLimit
  numbers : ∀ a ∈ db.accounts, ∃ userID,
    varcharIn 30 (svc.accountNumberFromUser userID) = some a.accountNumber
  total : db.total = openingBalance * db.accounts.length
  daily : ∀ a ∈ db.accounts, ∀ d, db.sentOn a.id d ≤ openingLimit

/-! ## Sums of amounts -/

theorem Transaction.amount_pos (t : Transaction) : 0 < t.amount.toInt :=
  Int64.lt_iff_toInt_lt.mp t.amount_check

theorem amounts_nonneg (ts : List Transaction) : 0 ≤ amounts ts := by
  induction ts with
  | nil => exact le_refl 0
  | cons t ts ih =>
    have := t.amount_pos
    simp only [amounts, List.map_cons, List.sum_cons] at ih ⊢
    omega

/-- The transactions of one kind are of one of two others. -/
theorem amounts_filter_le {p q r : Transaction → Prop} [DecidablePred p] [DecidablePred q]
    [DecidablePred r] {ts : List Transaction} (h : ∀ t ∈ ts, p t → q t ∨ r t) :
    amounts (ts.filter p) ≤ amounts (ts.filter q) + amounts (ts.filter r) := by
  induction ts with
  | nil => exact le_refl 0
  | cons t ts ih =>
    have hpos := t.amount_pos
    have hrest := ih fun u hu => h u (List.mem_cons_of_mem _ hu)
    have ht := h t List.mem_cons_self
    simp only [amounts] at hrest ⊢
    by_cases hp : p t <;> by_cases hq : q t <;> by_cases hr : r t <;>
      simp [hp, hq, hr] at ht ⊢ <;> omega

/-- The transactions of one kind are of another. -/
theorem amounts_filter_le_of_imp {p q : Transaction → Prop} [DecidablePred p] [DecidablePred q]
    {ts : List Transaction} (h : ∀ t ∈ ts, p t → q t) :
    amounts (ts.filter p) ≤ amounts (ts.filter q) := by
  have hle : amounts (ts.filter p) ≤ amounts (ts.filter q) + amounts (ts.filter fun _ => False) :=
    amounts_filter_le fun t ht hp => .inl (h t ht hp)
  simpa using hle

/-! ## How many accounts there can be -/

theorem length_accounts_le {svc : Service} {accounts : List Account}
    (hnodup : (accounts.map (·.accountNumber)).Nodup)
    (hnumbers : ∀ a ∈ accounts, ∃ userID,
      varcharIn 30 (svc.accountNumberFromUser userID) = some a.accountNumber) :
    accounts.length ≤ 10000000000 := by
  have hsub : (accounts.map (·.accountNumber)).toFinset ⊆
      (Finset.range 10000000000).image fun k => (varcharIn 30 ("10" ++ padded 10 k)).getD "" := by
    intro n hn
    obtain ⟨a, ha, rfl⟩ := List.mem_map.mp (List.mem_toFinset.mp hn)
    obtain ⟨userID, hnumber⟩ := hnumbers a ha
    exact Finset.mem_image.mpr ⟨_, Finset.mem_range.mpr (Nat.mod_lt _ (by decide)),
      by rw [Service.accountNumberFromUser] at hnumber; exact congrArg (·.getD "") hnumber⟩
  calc accounts.length = (accounts.map (·.accountNumber)).toFinset.card := by
        rw [List.toFinset_card_of_nodup hnodup, List.length_map]
    _ ≤ (Finset.range 10000000000).card := (Finset.card_le_card hsub).trans Finset.card_image_le
    _ = 10000000000 := Finset.card_range _

/-- A balance is at most all the money in the bank. -/
theorem balance_le_total {db : Db} {a : Account} (ha : a ∈ db.accounts) :
    a.balance.toInt ≤ db.total := by
  refine List.single_le_sum ?_ _ (List.mem_map_of_mem ha)
  intro x hx
  obtain ⟨b, -, rfl⟩ := List.mem_map.mp hx
  exact b.balance_nonneg

/-! ## The limit check -/

section Check

variable {svc : Service} {rounding : Rounding} {db db' : Db} {now : Instant}

/-- Midnight is a whole number of microseconds. -/
theorem micros_midnight (d : ℤ) : rounding.toMicros (dayLength * d) = 86400000000 * d := by
  rw [show dayLength * d = 1000 * (86400000000 * d) by rw [dayLength, second]; ring,
    rounding.whole]

/-- Times from midnight on are kept in the same day or later. -/
theorem le_dayOfMicros {d ns : ℤ} (h : dayLength * d ≤ ns) :
    d ≤ dayOfMicros (rounding.toMicros ns) := by
  have hmono := rounding.mono h
  rw [micros_midnight] at hmono
  rw [dayOfMicros, le_day_iff, dayLength, second]
  omega

/-- Times up to midnight are kept before it or at it. -/
theorem dayOfMicros_le {d ns : ℤ} (h : ns ≤ dayLength * d) :
    dayOfMicros (rounding.toMicros ns) ≤ d := by
  have hmono := rounding.mono h
  rw [micros_midnight] at hmono
  by_contra hlt
  have := le_day_iff.mp (show d + 1 ≤ day (1000 * rounding.toMicros ns) by
    unfold dayOfMicros at hlt; omega)
  rw [dayLength, second] at this
  omega

/-- A row that was sent before the limit check is kept in the next day at the latest. -/
theorem Db.Limited.day_le (h : db.Limited svc rounding) {t : Transaction}
    (ht : t ∈ db.transactions) {dayRead : Instant} (hsent : t.sentAt ≤ dayRead) :
    dayOfMicros t.createdAt ≤ day dayRead.ns + 1 := by
  rw [h.created t ht]
  exact dayOfMicros_le (le_trans hsent dayRead.le_midnight)

/-- **What a limit check sums up** is what the account sent in at most two days. -/
theorem Db.Limited.spent_le (h : db.Limited svc rounding) {a : Account} (ha : a ∈ db.accounts)
    {dayRead sumRead : Instant}
    (hsettled : ∀ t ∈ db.movementsOf a.id, t.sentAt ≤ dayRead) :
    db.spent a.id (rounding.toMicros dayRead.startOfDay) (rounding.toMicros sumRead.ns) ≤
      2 * openingLimit := by
  have htoday := h.daily a ha (day dayRead.ns)
  have htomorrow := h.daily a ha (day dayRead.ns + 1)
  have hsum : db.spent a.id (rounding.toMicros dayRead.startOfDay)
      (rounding.toMicros sumRead.ns) ≤
      db.sentOn a.id (day dayRead.ns) + db.sentOn a.id (day dayRead.ns + 1) := by
    refine amounts_filter_le ?_
    rintro t ht ⟨hfrom, hstatus, hsince, -⟩
    have hle := h.day_le ht
      (hsettled t (List.mem_filter.mpr ⟨ht, by simp [hfrom, hstatus]⟩))
    have hge : day dayRead.ns ≤ dayOfMicros t.createdAt := by
      rw [Instant.startOfDay_eq, micros_midnight] at hsince
      rw [dayOfMicros, le_day_iff, dayLength, second]
      omega
    have hday : dayOfMicros t.createdAt = day dayRead.ns ∨
        dayOfMicros t.createdAt = day dayRead.ns + 1 := by omega
    exact hday.imp (fun h => ⟨hstatus, hfrom, h⟩) fun h => ⟨hstatus, hfrom, h⟩
  omega

/-- What the account already sent in the day of the limit check, or in a later one, is summed
up. -/
theorem Db.Limited.sentOn_le_spent (h : db.Limited svc rounding) {id : Uuid}
    {dayRead sumRead : Instant} (hread : dayRead ≤ sumRead)
    (hsettled : ∀ t ∈ db.movementsOf id, t.sentAt ≤ dayRead) {d : ℤ} (hd : day dayRead.ns ≤ d) :
    db.sentOn id d ≤
      db.spent id (rounding.toMicros dayRead.startOfDay) (rounding.toMicros sumRead.ns) := by
  refine amounts_filter_le_of_imp ?_
  rintro t ht ⟨hstatus, hfrom, rfl⟩
  have hsent : t.sentAt ≤ dayRead :=
    hsettled t (List.mem_filter.mpr ⟨ht, by simp [hfrom, hstatus]⟩)
  refine ⟨hfrom, hstatus, ?_, ?_⟩
  · rw [dayOfMicros, le_day_iff, dayLength, second] at hd
    rw [Instant.startOfDay_eq, micros_midnight]
    omega
  · rw [h.created t ht]
    exact rounding.mono (le_trans (show t.sentAt.ns ≤ dayRead.ns from hsent) hread)

theorem Db.spent_nonneg (db : Db) (id : Uuid) (since till : ℤ) : 0 ≤ db.spent id since till :=
  amounts_nonneg _

/-- **The sum of a limit check is exact**, since an amount that the account can pay is at most all
the money there can be. -/
theorem Db.Limited.no_overflow (h : db.Limited svc rounding) (hwf : db.Wf) {a : Account}
    (ha : a ∈ db.accounts) {dayRead sumRead : Instant}
    (hsettled : ∀ t ∈ db.movementsOf a.id, t.sentAt ≤ dayRead) {spentToday amount : Int64}
    (hspent : spentToday.toInt = db.spent a.id (rounding.toMicros dayRead.startOfDay)
      (rounding.toMicros sumRead.ns))
    (hfunds : amount.toInt ≤ a.balance.toInt) :
    (spentToday + amount).toInt = spentToday.toInt + amount.toInt := by
  have hle : db.spent a.id (rounding.toMicros dayRead.startOfDay)
    (rounding.toMicros sumRead.ns) ≤ 2 * openingLimit := h.spent_le ha hsettled
  have hnonneg := db.spent_nonneg a.id (rounding.toMicros dayRead.startOfDay)
    (rounding.toMicros sumRead.ns)
  have hbalance := balance_le_total ha
  have hcount := length_accounts_le hwf.account_numbers h.numbers
  have htotal := h.total
  have hmin := amount.le_toInt
  rw [openingLimit] at hle
  rw [openingBalance] at htotal
  rw [Int64.toInt_add]
  exact Int.bmod_eq_of_le (by omega) (by omega)

end Check

/-! ## What commits do to the limit -/

section Commits

variable {svc : Service} {rounding : Rounding} {now : Instant} {db db' : Db}

theorem Db.sentOn_append {row : Transaction} (id : Uuid) (d : ℤ)
    (h : db'.transactions = db.transactions ++ [row]) : db'.sentOn id d =
      db.sentOn id d + if row.status = .completed ∧ row.fromAccountId = some id ∧
        dayOfMicros row.createdAt = d then row.amount.toInt else 0 := by
  unfold Db.sentOn
  rw [h, amounts_filter_append]

/-- An account that does not exist has sent nothing. -/
theorem Db.Wf.sentOn_unnamed (h : db.Wf) {id : Uuid} (hid : db.account id = none) (d : ℤ) :
    db.sentOn id d = 0 := by
  rw [Db.sentOn, List.filter_eq_nil_iff.mpr, amounts_nil]
  intro t ht hp
  exact h.named t ht id (.inl (decide_eq_true_iff.mp hp).2.1) hid

/-- A movement stays within the limit of the day its row is kept in. -/
theorem Movement.Valid.daily {m : Movement} (h : m.Valid svc rounding db) (hwf : db.Wf)
    (hl : db.Limited svc rounding) :
    db.sentOn m.source.id (dayOfMicros m.row.createdAt) + m.row.amount.toInt ≤ openingLimit := by
  obtain ⟨hmem, -⟩ := Db.mem_of_account h.source_mem
  have hfunds : m.row.amount.toInt ≤ m.source.balance.toInt := by
    have hdebit := h.debit
    have hcheck := Int64.le_iff_toInt_le.mp m.debited_check
    rw [Int64.toInt_zero] at hcheck
    omega
  have hday : day m.dayRead.ns ≤ dayOfMicros m.row.createdAt := by
    rw [h.linked.created]
    exact le_dayOfMicros (le_trans m.dayRead.midnight_le
      (Instant.le_trans h.read_order h.sent_order))
  have hspent := hl.sentOn_le_spent h.read_order h.settled hday
  have hexact := hl.no_overflow hwf hmem h.settled h.spent hfunds
  have hlimit := h.limit
  rw [Int64.lt_iff_toInt_lt, hexact, hl.limits _ hmem, h.spent] at hlimit
  omega

/-- What a database with one more row and the same accounts, up to their balances, needs to stay
within the limits. -/
theorem Db.Limited.add (h : db.Limited svc rounding) {row : Transaction}
    (hcreated : row.createdAt = rounding.toMicros row.sentAt.ns)
    (htransactions : db'.transactions = db.transactions ++ [row])
    (hstatic : db'.accounts.map Account.static = db.accounts.map Account.static)
    (htotal : db'.total = db.total)
    (hdaily : ∀ a ∈ db.accounts, ∀ d, db'.sentOn a.id d ≤ openingLimit) :
    db'.Limited svc rounding := by
  have hold : ∀ a' ∈ db'.accounts, ∃ a ∈ db.accounts, a.static = a'.static := fun a' ha' =>
    List.mem_map.mp (hstatic ▸ List.mem_map_of_mem ha')
  refine ⟨fun t ht => ?_, fun a' ha' => ?_, fun a' ha' => ?_, ?_, fun a' ha' d => ?_⟩
  · rcases List.mem_append.mp (htransactions ▸ ht) with ht | ht
    · exact h.created t ht
    · rw [List.mem_singleton.mp ht, hcreated]
  · obtain ⟨a, ha, heq⟩ := hold a' ha'
    simp only [Account.static, Prod.mk.injEq] at heq
    exact heq.2.2.2.1 ▸ h.limits a ha
  · obtain ⟨a, ha, heq⟩ := hold a' ha'
    simp only [Account.static, Prod.mk.injEq] at heq
    exact heq.2.2.1 ▸ h.numbers a ha
  · have hlength := congrArg List.length hstatic
    rw [List.length_map, List.length_map] at hlength
    rw [htotal, hlength, h.total]
  · obtain ⟨a, ha, heq⟩ := hold a' ha'
    simp only [Account.static, Prod.mk.injEq] at heq
    exact heq.1 ▸ hdaily a ha d

/-- A commit stays within the limits. -/
theorem Commit.limited (h : Commit svc rounding now db db') (hwf : db.Wf)
    (hl : db.Limited svc rounding) : db'.Limited svc rounding := by
  cases h with
  | opened u a h =>
    refine ⟨hl.created, fun a' ha' => ?_, fun a' ha' => ?_, ?_, fun a' ha' d => ?_⟩
    · rcases List.mem_append.mp ha' with ha' | ha'
      · exact hl.limits a' ha'
      · rw [List.mem_singleton.mp ha', h.limit]
        decide
    · rcases List.mem_append.mp ha' with ha' | ha'
      · exact hl.numbers a' ha'
      · rw [List.mem_singleton.mp ha']
        exact h.number
    · have htotal := hl.total
      have hbalance : a.balance.toInt = openingBalance := by
        rw [h.balance]
        decide
      simp only [Db.total, List.map_append, List.sum_append, List.map_cons, List.map_nil,
        List.sum_cons, List.sum_nil, List.length_append, List.length_cons,
        List.length_nil] at htotal ⊢
      rw [htotal, hbalance]
      push_cast
      ring
    · rcases List.mem_append.mp ha' with ha' | ha'
      · exact hl.daily a' ha' d
      · obtain rfl := List.mem_singleton.mp ha'
        exact (hwf.sentOn_unnamed h.id_new d).trans_le (by decide)
  | failed row status linked =>
    refine hl.add linked.created (db.append_transactions row) rfl rfl fun a ha d => ?_
    rw [Db.sentOn_append _ _ (db.append_transactions row), status]
    simpa using hl.daily a ha d
  | moved m h =>
    refine hl.add h.linked.created (m.apply_transactions db) (m.static_apply db) (h.total hwf)
      fun a ha d => ?_
    rw [Db.sentOn_append _ _ (m.apply_transactions db), h.row_source]
    split
    · next hp =>
      obtain ⟨-, hid, rfl⟩ := hp
      rw [← Option.some.inj hid]
      exact h.daily hwf hl
    · rw [add_zero]
      exact hl.daily a ha d

end Commits

/-- **Every database the abstract bank can have is within the limits.** -/
theorem History.limited {svc : Service} {rounding : Rounding} {now : Instant} {db : Db}
    (h : History svc rounding now db) : db.Limited svc rounding := by
  induction h with
  | empty => constructor <;> simp [Db.empty, Db.total]
  | commit h hc ih => exact hc.limited h.wf ih
  | wait _ _ ih => exact ih

/-! ## Interleaved calls -/

/-- **Daily limit.** In every state that interleaved calls can reach, no account has sent more in
a UTC day than its limit; and when a transfer is given what its account has spent today, the sum
with the amount, in 64 bits, is the exact sum. -/
theorem daily_limit (svc : Service) (rounding : Rounding) (clock : Instant)
    (s : State (serviceMachine svc rounding)) (h : Reachable (Env.initial clock) s) :
    (∀ a ∈ s.env.db.accounts, ∀ d, Db.sentOn s.env.db a.id d ≤ a.dailyTransferLimit.toInt) ∧
    ∀ i caller input id since till k loc log choice spentToday env loc',
      s.call i = some ⟨Request.transfer caller input,
        .call (Stmt.query (.sumCompletedTransfersSince id since till)) k, loc, log⟩ →
      exec rounding (s.others i) (.query (.sumCompletedTransfersSince id since till)) choice
        s.env loc = some (.ok spentToday, env, loc') →
      (spentToday + input.amount).toInt = spentToday.toInt + input.amount.toInt := by
  have hkept := service_kept svc rounding
  have hlimited := (hkept.history h).limited
  refine ⟨fun a ha d => (hlimited.limits a ha).symm ▸ hlimited.daily a ha d, ?_⟩
  intro i caller input id since till k loc log choice spentToday env loc' hi hx
  -- the transaction reads a snapshot, which is a database the abstract bank can have
  obtain ⟨hself, hkeeps⟩ := hkept.reachable h
  obtain ⟨tx, rfl, ⟨S, hstage, a, ha, rfl, hfunds, dayRead, sumRead, rfl, rfl, hread, hsettled⟩⟩ :
    ∃ tx, loc = .active tx ∧ Summing input id since till s.env tx := (hkeeps i _ hi _ hself).1
  obtain ⟨now, hS⟩ := (transactional rounding svc.program).snapshot
    (P := fun db => ∃ now, History svc rounding now db)
    (fun _ hs => ⟨_, hkept.history hs⟩) h i _ tx S hi rfl hstage.snapshot
  obtain ⟨-, ⟨hr, -⟩ | ⟨eff, tx', hplan, hr, -⟩⟩ := hstage.exec hx
  · cases hr
  obtain rfl | ⟨u, spent, hu, rfl, hspent⟩ := sumCompletedTransfersSince_cases hplan
  · cases hr
  obtain rfl := Except.ok.inj hr
  obtain rfl : a.id = u := by simpa using hu
  exact hS.limited.no_overflow hS.wf ha (fun t ht => hsettled t (List.mem_filter.mp ht).1) hspent
    (Int.not_lt.mp fun hlt => hfunds (Int64.lt_iff_toInt_lt.mpr hlt))

/-- The limits after the sample payment. -/
theorem daily_limit_of_samplePaid : ∃ s : State (serviceMachine sampleService .cut),
    s.env.db.transactions.map (·.amount) = [250] ∧
    ∀ a ∈ s.env.db.accounts, ∀ d, Db.sentOn s.env.db a.id d ≤ a.dailyTransferLimit.toInt := by
  obtain ⟨s, hs, hview⟩ := samplePaid_runs
  exact ⟨s, congrArg (·.2.1) hview, (daily_limit sampleService .cut sampleClock s ⟨_, hs⟩).1⟩

end Bank
