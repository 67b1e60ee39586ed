import MiniBanking.Concurrency.Machine

/-!
# Postgres transactions with row locks

A transaction keeps what it wrote to itself until it commits. At `serializable` it reads the
database as it was at its first statement, at `readCommitted` as it is now; in both it sees its
own writes. What it locks for update or writes it holds to its end: a statement that needs a
row another transaction holds waits, and one that needs a row which changed since the snapshot
fails. A value of a unique column is locked like a row, so the second of two inserts of one
value waits for the first and then fails. After a failed statement the transaction is aborted.

## Main definitions

* `Schema`: a database seen as keys (rows, unique values) and writes
* `Tx`, `Tx.perform`, `Tx.commit`: a transaction, one statement, the commit
* `Tx.Guarded`: the rows a transaction holds are as its snapshot has them
* `Transactional`: a machine each of whose calls has at most one transaction open

## Main results

* `Schema.look_applyAll`: writes change only the keys they touch
* `Transactional.safe`: in every reachable state held keys are exclusive and unchanged since the
  holder's snapshot
* `Transactional.snapshot`: every snapshot is a database that was committed
-/

namespace Postgres

open Concurrency

/-- A database seen as the keys that can be locked and the writes of transactions. -/
structure Schema where
  /-- The committed database. -/
  Db : Type
  /-- What can be locked: a row, or a value of a unique column. -/
  Key : Type
  /-- What the database has at a key. -/
  Val : Type
  /-- A row version or a new row. -/
  Write : Type
  /-- The content of the database at a key. -/
  look : Db → Key → Val
  /-- The database after a write. -/
  apply : Db → Write → Db
  /-- The keys a write may change. -/
  touches : Write → List Key
  /-- A write changes nothing else. -/
  frame : ∀ db w k, k ∉ touches w → look (apply db w) k = look db k

variable {S : Schema} {α : Type}

/-- The database after a list of writes. -/
def Schema.applyAll (S : Schema) (db : S.Db) (ws : List S.Write) : S.Db := ws.foldl S.apply db

@[simp] theorem Schema.applyAll_nil (db : S.Db) : S.applyAll db [] = db := rfl

@[simp] theorem Schema.applyAll_cons (db : S.Db) (w : S.Write) (ws : List S.Write) :
    S.applyAll db (w :: ws) = S.applyAll (S.apply db w) ws := rfl

/-- Writes change only the keys they touch. -/
theorem Schema.look_applyAll {k : S.Key} {ws : List S.Write} (h : ∀ w ∈ ws, k ∉ S.touches w)
    (db : S.Db) : S.look (S.applyAll db ws) k = S.look db k := by
  induction ws generalizing db with
  | nil => rfl
  | cons w ws ih =>
    rw [Schema.applyAll_cons, ih fun v hv => h v (List.mem_cons_of_mem _ hv)]
    exact S.frame db w k (h w List.mem_cons_self)

/-! ## Transactions -/

/-- The isolation levels in use. -/
inductive Isolation where
  | readCommitted
  | serializable
  deriving DecidableEq

/-- A transaction in progress. Whatever it wrote, it holds. -/
structure Tx (S : Schema) where
  isolation : Isolation
  /-- The database its last statement read; at `serializable`, its first one. -/
  snapshot : Option S.Db
  writes : List S.Write
  held : List S.Key
  aborted : Bool
  covered : ∀ w ∈ writes, ∀ k ∈ S.touches w, k ∈ held

/-- What a statement does: the keys it locks, the rows it writes, what it replies. -/
structure Effect (S : Schema) (α : Type) where
  locks : List S.Key
  writes : List S.Write
  reply : α
  covered : ∀ w ∈ writes, ∀ k ∈ S.touches w, k ∈ locks

/-- A statement that only reads. -/
def Effect.read (reply : α) : Effect S α := ⟨[], [], reply, by simp⟩

/-- A statement that locks rows and reads them. -/
def Effect.lock (locks : List S.Key) (reply : α) : Effect S α := ⟨locks, [], reply, by simp⟩

/-- A statement that writes one row, under the locks it touches. -/
def Effect.write (w : S.Write) (reply : α) : Effect S α :=
  ⟨S.touches w, [w], reply, by simp⟩

namespace Tx

/-- `BEGIN`: the snapshot is taken by the first statement. -/
def begin (isolation : Isolation) : Tx S := ⟨isolation, none, [], [], false, by simp⟩

/-- The committed database a statement reads when `db` is the current one. -/
def base (tx : Tx S) (db : S.Db) : S.Db :=
  match tx.isolation, tx.snapshot with
  | .serializable, some s => s
  | _, _ => db

/-- What a statement sees: the base with the transaction's own writes. -/
def view (tx : Tx S) (db : S.Db) : S.Db := S.applyAll (tx.base db) tx.writes

/-- After a failed statement nothing is held and nothing will be written. -/
def abort (tx : Tx S) : Tx S := ⟨tx.isolation, tx.snapshot, [], [], true, by simp⟩

/-- The transaction after a statement with effect `f`. -/
def extend (tx : Tx S) (db : S.Db) (f : Effect S α) : Tx S where
  isolation := tx.isolation
  snapshot := some (tx.base db)
  writes := tx.writes ++ f.writes
  held := f.locks ++ tx.held
  aborted := false
  covered w hw k hk := by
    rcases List.mem_append.mp hw with hw | hw
    · exact List.mem_append_right _ (tx.covered w hw k hk)
    · exact List.mem_append_left _ (f.covered w hw k hk)

/-- The database after the commit. -/
def commit (tx : Tx S) (db : S.Db) : S.Db := S.applyAll db tx.writes

/-- The keys a transaction holds are in `db` as its snapshot has them. -/
def Guarded (db : S.Db) (tx : Tx S) : Prop :=
  ∀ s, tx.snapshot = some s → ∀ k ∈ tx.held, S.look db k = S.look s k

/-- No key is held by both. -/
def Exclusive (tx tx' : Tx S) : Prop := ∀ k ∈ tx.held, k ∉ tx'.held

section Perform

variable [DecidableEq S.Key] [DecidableEq S.Val]

/-- One statement while the transactions `others` are open: `none` while it waits for a key
another one holds. It fails (and the transaction with it) when `fail` says so, when a constraint
refuses it (`plan` is `none`), and when a key it needs is no longer as the snapshot has it. -/
def perform (others : List (Tx S)) (db : S.Db) (fail : Bool) (tx : Tx S)
    (plan : S.Db → Option (Effect S α)) : Option (Option α × Tx S) :=
  if tx.aborted || fail then some (none, tx.abort)
  else match plan (tx.view db) with
    | none => some (none, tx.abort)
    | some f =>
      if f.locks.any fun k => others.any fun other => decide (k ∈ other.held) then none
      else if f.locks.all fun k => decide (S.look db k = S.look (tx.base db) k) then
        some (some f.reply, tx.extend db f)
      else some (none, tx.abort)

variable {others : List (Tx S)} {db : S.Db} {fail : Bool} {tx tx' : Tx S}
  {plan : S.Db → Option (Effect S α)} {r : Option α}

/-- A statement fails and aborts the transaction, or it has its effect on free and unchanged
keys. -/
theorem perform_cases (h : perform others db fail tx plan = some (r, tx')) :
    (r = none ∧ tx' = tx.abort) ∨
    (∃ f, tx.aborted = false ∧ plan (tx.view db) = some f ∧ r = some f.reply ∧
      tx' = tx.extend db f ∧ (∀ k ∈ f.locks, ∀ other ∈ others, k ∉ other.held) ∧
      ∀ k ∈ f.locks, S.look db k = S.look (tx.base db) k) := by
  unfold perform at h
  split at h
  · cases h
    exact .inl ⟨rfl, rfl⟩
  next ha =>
  rw [Bool.or_eq_true, not_or, Bool.not_eq_true] at ha
  split at h
  · cases h
    exact .inl ⟨rfl, rfl⟩
  next f hf =>
  split at h
  · cases h
  next hfree =>
  split at h
  · next hsame =>
    cases h
    refine .inr ⟨f, ha.1, hf, rfl, rfl, ?_, by simpa using hsame⟩
    intro k hk other ho hheld
    exact hfree (List.any_eq_true.mpr ⟨k, hk, List.any_eq_true.mpr ⟨other, ho, by simpa⟩⟩)
  · cases h
    exact .inl ⟨rfl, rfl⟩

/-- At `readCommitted` no key is too old: a statement that does not fail is refused, waits, or has
its effect. -/
theorem perform_readCommitted (hiso : tx.isolation = .readCommitted) (ha : tx.aborted = false) :
    perform others db false tx plan =
      match plan (tx.view db) with
      | none => some (none, tx.abort)
      | some f =>
        if f.locks.any fun k => others.any fun other => decide (k ∈ other.held) then none
        else some (some f.reply, tx.extend db f) := by
  have hbase : tx.base db = db := by rw [base, hiso]
  simp [perform, ha, hbase]

/-- A statement that need not wait among `others` need not wait among fewer. -/
theorem perform_mono {others' : List (Tx S)} (hsub : others' ⊆ others)
    {x : Option α × Tx S} (h : perform others db fail tx plan = some x) :
    perform others' db fail tx plan = some x := by
  unfold perform at h ⊢
  split at h
  · next ha => rw [if_pos ha]; exact h
  next ha =>
  rw [if_neg ha]
  split at h
  · exact h
  next f hf =>
  split at h
  · cases h
  next hfree =>
  have hfree' : ¬ (f.locks.any fun k => others'.any fun other => decide (k ∈ other.held)) := by
    intro hx
    obtain ⟨k, hk, hx⟩ := List.any_eq_true.mp hx
    obtain ⟨o, ho, hx⟩ := List.any_eq_true.mp hx
    exact hfree (List.any_eq_true.mpr ⟨k, hk, List.any_eq_true.mpr ⟨o, hsub ho, hx⟩⟩)
  simpa [hfree'] using h

end Perform

/-! ## What statements and commits preserve -/

@[simp] theorem held_abort (tx : Tx S) : tx.abort.held = [] := rfl

@[simp] theorem writes_abort (tx : Tx S) : tx.abort.writes = [] := rfl

@[simp] theorem aborted_abort (tx : Tx S) : tx.abort.aborted = true := rfl

theorem Guarded.abort (db : S.Db) (tx : Tx S) : tx.abort.Guarded db := by
  intro s _ k hk
  simp at hk

theorem Guarded.begin (db : S.Db) (iso : Isolation) : (Tx.begin iso : Tx S).Guarded db := by
  intro s hs
  cases hs

theorem base_of_snapshot {tx : Tx S} {s : S.Db} (db : S.Db) (hiso : tx.isolation = .serializable)
    (hs : tx.snapshot = some s) : tx.base db = s := by
  simp [base, hiso, hs]

theorem base_of_none {tx : Tx S} (db : S.Db) (hs : tx.snapshot = none) : tx.base db = db := by
  simp [base, hs]

/-- What a statement reads of a held key is what the database has. -/
theorem Guarded.look_base {db : S.Db} {tx : Tx S} (h : tx.Guarded db) {k : S.Key}
    (hk : k ∈ tx.held) : S.look db k = S.look (tx.base db) k := by
  unfold base
  split
  · next s _ hs => exact h s hs k hk
  · rfl

theorem Guarded.extend {db : S.Db} {tx : Tx S} (h : tx.Guarded db) {f : Effect S α}
    (hf : ∀ k ∈ f.locks, S.look db k = S.look (tx.base db) k) : (tx.extend db f).Guarded db := by
  rintro s hs k hk
  cases hs
  rcases List.mem_append.mp hk with hk | hk
  · exact hf k hk
  · exact h.look_base hk

/-- A commit changes no key that another transaction holds. -/
theorem look_commit {tx : Tx S} {k : S.Key} (hk : k ∉ tx.held) (db : S.Db) :
    S.look (tx.commit db) k = S.look db k :=
  Schema.look_applyAll (fun w hw hmem => hk (tx.covered w hw k hmem)) db

theorem Guarded.commit {db : S.Db} {tx tx' : Tx S} (h : tx'.Guarded db)
    (hex : tx'.Exclusive tx) : tx'.Guarded (tx.commit db) := by
  intro s hs k hk
  rw [look_commit (hex k hk), h s hs k hk]

end Tx

/-! ## Transactions of interleaved calls -/

section Calls

variable [DecidableEq S.Key] [DecidableEq S.Val]

/-- What one statement of a call may do to the database and to the call's own transaction while
the transactions `others` are open. -/
inductive Tx.Step (others : List (Tx S)) :
    S.Db → Option (Tx S) → S.Db → Option (Tx S) → Prop where
  | keep db tx : Step others db tx db tx
  | begin db tx isolation : Step others db tx db (some (Tx.begin isolation))
  | perform {α : Type} {db tx tx' fail} {plan : S.Db → Option (Effect S α)} {r} :
      tx.perform others db fail plan = some (r, tx') → Step others db (some tx) db (some tx')
  | drop db tx : Step others db tx db none
  | commit db tx : Step others db (some tx) (tx.commit db) none

/-- A machine on a database, each of whose calls has at most one transaction open. -/
structure Transactional (M : Machine) (S : Schema) [DecidableEq S.Key] [DecidableEq S.Val] where
  db : M.Env → S.Db
  tx : M.Loc → Option (Tx S)
  start : tx M.start = none
  exec : ∀ {others st c e l r e' l'}, M.exec others st c e l = some (r, e', l') →
    Tx.Step (others.filterMap tx) (db e) (tx l) (db e') (tx l')
  tick : ∀ {t e e'}, M.tick t e = some e' → db e' = db e

variable {M : Machine}

/-- Every open transaction finds the keys it holds as its snapshot has them, and no key is held
twice. -/
structure Transactional.Safe (T : Transactional M S) (s : State M) : Prop where
  guarded : ∀ i c tx, s.call i = some c → T.tx c.loc = some tx → tx.Guarded (T.db s.env)
  exclusive : ∀ i j c c' tx tx', i ≠ j → s.call i = some c → s.call j = some c' →
    T.tx c.loc = some tx → T.tx c'.loc = some tx' → tx.Exclusive tx'

/-- A step of call `i` that leaves the database as it is and whose transaction, if it still has
one, holds only what it held and what nobody else holds. -/
theorem Transactional.Safe.put {T : Transactional M S} {s : State M} (h : T.Safe s) {i : ℕ}
    {c : Call M} {env : M.Env} (hdb : T.db env = T.db s.env)
    (hown : ∀ tx, T.tx c.loc = some tx → tx.Guarded (T.db s.env) ∧
      ∀ j c' tx', j ≠ i → s.call j = some c' → T.tx c'.loc = some tx' → tx.Exclusive tx') :
    T.Safe (({ s with env }).put i c) where
  guarded j c' tx hc ht := by
    rw [State.put_env, hdb]
    rw [State.call_put] at hc
    split at hc
    · cases hc
      exact (hown tx ht).1
    · exact h.guarded j c' tx hc ht
  exclusive j k c₁ c₂ tx tx' hjk hc₁ hc₂ ht₁ ht₂ := by
    rw [State.call_put] at hc₁ hc₂
    split at hc₁
    · next hji =>
      rw [if_neg fun hki => hjk (hji.trans hki.symm)] at hc₂
      cases hc₁
      exact (hown tx ht₁).2 k c₂ tx' (fun hki => hjk (hji.trans hki.symm)) hc₂ ht₂
    · split at hc₂
      · next hji hki =>
        cases hc₂
        intro key hkey hkey'
        exact (hown tx' ht₂).2 j c₁ tx hji hc₁ ht₁ key hkey' hkey
      · exact h.exclusive j k c₁ c₂ tx tx' hjk hc₁ hc₂ ht₁ ht₂

/-- **Locks work.** In every reachable state no key is held twice, and every open transaction
finds what it holds as its snapshot has it. -/
theorem Transactional.safe (T : Transactional M S) {e : M.Env} {s : State M}
    (h : Reachable e s) : T.Safe s := by
  refine h.induct (P := T.Safe) ⟨?_, ?_⟩ ?_
  · intro i c tx hc
    cases hc
  · intro i j c c' tx tx' _ hc
    cases hc
  intro s t a _ ih hn
  obtain ⟨i, q, rfl, -, rfl⟩ | ⟨i, choice, q, st, k, loc, log, r, env, loc', rfl, hi, he, rfl⟩ |
    ⟨m, env, rfl, hm, rfl⟩ := next_cases hn
  · refine ih.put rfl fun tx ht => ?_
    rw [show T.tx M.start = none from T.start] at ht
    cases ht
  · have hstep := T.exec he
    have hothers : ∀ j c tx, j ≠ i → s.call j = some c → T.tx c.loc = some tx →
        tx ∈ (s.others i).filterMap T.tx := fun j c tx hj hc ht =>
      List.mem_filterMap.mpr ⟨c.loc, State.mem_others.mpr ⟨j, c, hj, hc, rfl⟩, ht⟩
    generalize hd : T.db env = db' at hstep
    generalize ht' : T.tx loc' = otx' at hstep
    generalize ht : T.tx loc = otx at hstep
    generalize hdb : T.db s.env = db at hstep
    cases hstep with
    | keep =>
      refine ih.put (hd.trans hdb.symm) fun tx htx => ?_
      have hown : T.tx loc = some tx := ht.trans (ht'.symm.trans htx)
      exact ⟨ih.guarded i _ tx hi hown,
        fun j c' tx' hj hc' htx' => ih.exclusive i j _ c' tx tx' hj.symm hi hc' hown htx'⟩
    | begin _ _ iso =>
      refine ih.put (hd.trans hdb.symm) fun tx htx => ?_
      cases ht'.symm.trans htx
      exact ⟨Tx.Guarded.begin _ _, fun _ _ _ _ _ _ key hkey => absurd hkey List.not_mem_nil⟩
    | @perform _ _ tx₀ tx₁ fail plan r hp =>
      refine ih.put (hd.trans hdb.symm) fun tx htx => ?_
      cases ht'.symm.trans htx
      rw [hdb]
      obtain ⟨-, rfl⟩ | ⟨f, -, -, -, rfl, hfree, hsame⟩ := Tx.perform_cases hp
      · exact ⟨Tx.Guarded.abort _ _, fun _ _ _ _ _ _ key hkey => absurd hkey List.not_mem_nil⟩
      · refine ⟨(hdb ▸ ih.guarded i _ tx₀ hi ht).extend hsame, ?_⟩
        intro j c' tx' hj hc' htx' key hkey
        rcases List.mem_append.mp hkey with hkey | hkey
        · exact hfree key hkey tx' (hothers j c' tx' hj hc' htx')
        · exact ih.exclusive i j _ c' tx₀ tx' hj.symm hi hc' ht htx' key hkey
    | drop =>
      refine ih.put (hd.trans hdb.symm) fun tx htx => ?_
      cases ht'.symm.trans htx
    | commit _ tx₀ =>
      constructor
      · intro j c' tx hc' htx
        rw [State.call_put] at hc'
        split at hc'
        · cases hc'
          cases ht'.symm.trans htx
        · next hj =>
          rw [State.put_env, hd, ← hdb]
          exact (ih.guarded j c' tx hc' htx).commit
            (ih.exclusive j i c' _ tx tx₀ hj hc' hi htx ht)
      · intro j l c₁ c₂ tx tx' hjl hc₁ hc₂ ht₁ ht₂
        rw [State.call_put] at hc₁ hc₂
        split at hc₁
        · cases hc₁
          cases ht'.symm.trans ht₁
        split at hc₂
        · cases hc₂
          cases ht'.symm.trans ht₂
        exact ih.exclusive j l c₁ c₂ tx tx' hjl hc₁ hc₂ ht₁ ht₂
  · have hdb := T.tick hm
    exact ⟨fun i c tx hc ht => hdb ▸ ih.guarded i c tx hc ht, ih.exclusive⟩

/-- **Snapshots are committed databases.** What holds of the database in every reachable state
holds of the snapshot of every transaction. -/
theorem Transactional.snapshot (T : Transactional M S) {e : M.Env} {P : S.Db → Prop}
    (hP : ∀ s, Reachable e s → P (T.db s.env)) {s : State M} (h : Reachable e s) :
    ∀ i c tx db, s.call i = some c → T.tx c.loc = some tx → tx.snapshot = some db → P db := by
  refine h.induct (P := fun s => ∀ i c tx db, s.call i = some c → T.tx c.loc = some tx →
    tx.snapshot = some db → P db) ?_ ?_
  · intro i c tx db hc
    cases hc
  intro s t a hs ih hn j c tx db hj htx hsnap
  obtain ⟨i, q, rfl, -, rfl⟩ | ⟨i, choice, q, st, k, loc, log, r, env, loc', rfl, hi, he, rfl⟩ |
    ⟨m, env, rfl, -, rfl⟩ := next_cases hn
  · rw [State.call_put] at hj
    split at hj
    · cases hj
      rw [show T.tx M.start = none from T.start] at htx
      cases htx
    · exact ih j c tx db hj htx hsnap
  · rw [State.call_put] at hj
    split at hj
    swap
    · exact ih j c tx db hj htx hsnap
    cases hj
    have hstep := T.exec he
    generalize T.db env = db' at hstep
    generalize ht : T.tx loc = otx at hstep
    rw [show T.tx loc' = some tx from htx] at hstep
    generalize hdb : T.db s.env = db₀ at hstep
    cases hstep with
    | keep => exact ih i _ tx db hi ht hsnap
    | begin => cases hsnap
    | @perform _ _ tx₀ tx₁ fail plan r hp =>
      have hold : ∀ d, tx₀.snapshot = some d → P d := fun d hd => ih i _ tx₀ d hi ht hd
      obtain ⟨-, rfl⟩ | ⟨f, -, -, -, rfl, -⟩ := Tx.perform_cases hp
      · exact hold db hsnap
      · cases hsnap
        unfold Tx.base
        split
        · next d _ hd => exact hold d hd
        · exact hdb ▸ hP s hs
  · exact ih j c tx db hj htx hsnap

end Calls

end Postgres
