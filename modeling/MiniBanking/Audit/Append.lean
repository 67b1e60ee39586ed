import MiniBanking.Audit.Tamper
import MiniBanking.Concurrency.Trace
import MiniBanking.Postgres.Columns

/-!
# Appending to a hash chain

A service appends an event in a transaction of its own: it takes an advisory lock, reads the hash
of the last row, and inserts a row with the next number of a sequence, which a failed transaction
does not give back. The lock is held to the end of the transaction.

## Main definitions

* `Journal`: how the events of a service become rows
* `Journal.insertAudit`, `appendMachine`: the transaction, and any number of them, interleaved
* `Journal.ReadsBack`: an event whose fields are read back as they were hashed

## Main results

* `append_stage`: every transaction is at a stage
* `chain_kept`: if every event is read back, the log is a chain in every reachable state
* `verify_appended`: the replay then finds every row in order
-/

namespace Audit

open Concurrency Postgres

/-! ## The transaction -/

/-- How the events of a service become rows of its log. -/
structure Journal (E R : Type) where
  table : Table R
  /-- What is hashed of an event. -/
  fields : E → List String
  /-- An event that is not recorded. -/
  ignores : E → Bool := fun _ => false
  /-- The row of an event, if the columns take it. -/
  row : E → (prevHash hash : String) → ℤ → Uuid → Option R
  /-- The columns of the chain keep what they are given. -/
  read_row : ∀ {e prevHash hash n id r}, row e prevHash hash n id = some r →
    prevHash.toList.length ≤ 64 → hash.toList.length ≤ 64 →
    (table.read r).seq = n ∧ (table.read r).prevHash = prevHash ∧ (table.read r).hash = hash
  /-- No hash that is read is longer than a hash. -/
  length_hash : ∀ r, (table.read r).hash.toList.length ≤ 64

namespace Journal

/-- The statements of the transaction. -/
inductive Stmt (E : Type) where
  /-- `BEGIN` and `SELECT pg_advisory_xact_lock(key)` -/
  | lock
  /-- `SELECT hash FROM log ORDER BY seq DESC LIMIT 1` -/
  | readHead
  | insert (e : E) (prevHash hash : String)
  | commit
  | rollback

/-- The replies to the statements. -/
abbrev Reply {E : Type} : Stmt E → Type
  | .lock => Except Unit Unit
  | .readHead => Except Unit (Option String)
  | .insert _ _ _ => Except Unit Unit
  | .commit => Except Unit Unit
  | .rollback => Unit

/-- The statements with their replies. -/
abbrev signature (E : Type) : Signature := ⟨Stmt E, Reply⟩

/-- The log and the sequence of its numbers. -/
structure Env (R : Type) where
  rows : List R
  nextSeq : ℤ

/-- A transaction: whether it holds the lock, and what it has inserted. -/
structure Tx (R : Type) where
  locked : Bool := false
  pending : List R := []

/-- What decides a statement's outcome. -/
structure Choice where
  /-- The statement fails. -/
  fail : Bool := false
  /-- The commit reports a failure after it took effect. -/
  lost : Bool := false
  /-- The numbers that other transactions have drawn and lost. -/
  skip : ℕ := 0
  id : Uuid := Vector.replicate 16 0

variable {E R : Type}

/-- The meaning of the statements. -/
def exec (J : Journal E R) (others : List (Tx R)) : (s : Stmt E) → Choice → Env R → Tx R →
    Option (Reply s × Env R × Tx R)
  | .lock, c, e, tx =>
    if c.fail then some (.error (), e, tx)
    else if others.any (·.locked) then none
    else some (.ok (), e, { tx with locked := true })
  | .readHead, c, e, tx =>
    some (if c.fail then .error () else .ok (lastHash (J.table.rows (e.rows ++ tx.pending))), e, tx)
  | .insert ev prevHash hash, c, e, tx =>
    let seq := e.nextSeq + c.skip
    if c.fail then some (.error (), e, tx)
    else match J.row ev prevHash hash seq c.id with
      | none => some (.error (), { e with nextSeq := seq + 1 }, tx)
      | some r =>
        -- the primary key
        if (J.table.rows e.rows).any (·.id = c.id.text) then
          some (.error (), { e with nextSeq := seq + 1 }, tx)
        else some (.ok (), { e with nextSeq := seq + 1 }, { tx with pending := tx.pending ++ [r] })
  | .commit, c, e, tx =>
    if c.fail then some (.error (), e, {})
    else some (if c.lost then .error () else .ok (), { e with rows := e.rows ++ tx.pending }, {})
  | .rollback, _, e, _ => some ((), e, {})

end Journal

open Journal

variable {E R : Type}

/-- `InsertAudit` -/
def Journal.insertAudit (J : Journal E R) (H : String → List String → String) (e : E) :
    Program (signature E) (Except Unit Unit) :=
  let stmt (s : Stmt E) : Program (signature E) (Reply s) := issue (S := signature E) s
  if J.ignores e then .ret (.ok ())
  else Program.deferred (do
    let .ok _ ← stmt .lock
      | return .error ()
    let .ok last ← stmt .readHead
      | return .error ()
    let prevHash := headHash last
    let .ok _ ← stmt (.insert e prevHash (H prevHash (J.fields e)))
      | return .error ()
    stmt .commit) (stmt .rollback)

/-- The world of the transactions. -/
abbrev appendWorld (J : Journal E R) : World where
  S := signature E
  Env := Env R
  Loc := Tx R
  Choice := Choice
  exec := exec J

/-- A statement that was executed. -/
abbrev Journal.event (J : Journal E R) (s : Stmt E) (e : Env R) (r : Reply s) :
    Event (appendWorld J) := ⟨s, e, r⟩

/-- Any number of transactions on a log, interleaved. -/
abbrev appendMachine (J : Journal E R) (H : String → List String → String) : Machine where
  toWorld := appendWorld J
  Tick := Empty
  Request := E
  Result := Except Unit Unit
  program := J.insertAudit H
  start := {}
  tick t := t.elim

/-- A log with no transactions on it. -/
abbrev logWith (J : Journal E R) (H : String → List String → String) (rows : List R)
    (nextSeq : ℤ) : State (appendMachine J H) :=
  State.mk (M := appendMachine J H) (Env.mk rows nextSeq) ∅

/-- The fields of an event are read back as they were hashed. -/
def Journal.ReadsBack (J : Journal E R) (e : E) : Prop :=
  ∀ {prevHash hash n id r}, J.row e prevHash hash n id = some r →
    (J.table.read r).fields = J.fields e

section Chain

variable {J : Journal E R} {H : String → List String → String}

/-- How far a transaction has come. -/
inductive AppendStage (J : Journal E R) (H : String → List String → String) (e : E) :
    List (Event (appendWorld J)) → Program (signature E) (Except Unit Unit) → Prop where
  | start {k} : AppendStage J H e [] (.call .lock k)
  | locked {e₁ k} : AppendStage J H e [⟨Stmt.lock, e₁, Except.ok ()⟩] (.call .readHead k)
  | read {e₁ e₂ last k} : AppendStage J H e
    [⟨Stmt.lock, e₁, Except.ok ()⟩, ⟨Stmt.readHead, e₂, Except.ok last⟩]
      (.call (.insert e (headHash last) (H (headHash last) (J.fields e))) k)
  | inserted {e₁ e₂ last e₃ k} : AppendStage J H e
    [⟨Stmt.lock, e₁, Except.ok ()⟩, ⟨Stmt.readHead, e₂, Except.ok last⟩,
      ⟨Stmt.insert e (headHash last) (H (headHash last) (J.fields e)), e₃, Except.ok ()⟩]
      (.call .commit k)
  | ending {log k} (h : ∀ e₁ tail, log = ⟨Stmt.lock, e₁, Except.ok ()⟩ :: tail → 0 < tail.length) :
    AppendStage J H e log (.call .rollback k)
  | over {log a} : AppendStage J H e log (.ret a)

/-- **Every transaction is at a stage.** -/
theorem append_stage {e : E} {log : List (Event (appendWorld J))}
    {rest : Program (signature E) (Except Unit Unit)} (h : (J.insertAudit H e).Leads log rest) :
    AppendStage J H e log rest := by
  -- once the transaction has failed or committed, it is rolled back
  have hend : ∀ {a : Except Unit Unit} {log log' : List (Event (appendWorld J))},
      (∀ e₁ tail, log = ⟨Stmt.lock, e₁, Except.ok ()⟩ :: tail → 0 < tail.length) →
      (Program.call (S := signature E) (Stmt.rollback : Stmt E) fun _ => .ret a).Leads log' rest →
      AppendStage J H e log rest := by
    intro a log log' hlog h
    rcases Program.leads_call.mp h with ⟨rfl, rfl⟩ | ⟨-, -, tail, rfl, h⟩
    · exact .ending hlog
    · obtain ⟨-, rfl⟩ := Program.leads_ret.mp h
      exact .over
  have hlong : ∀ {ev ev' : Event (appendWorld J)} {log : List (Event (appendWorld J))} {e₁ tail},
      ev :: ev' :: log = ⟨Stmt.lock, e₁, Except.ok ()⟩ :: tail → 0 < tail.length := fun heq => by
    rw [← (List.cons.inj heq).2]
    exact Nat.succ_pos _
  unfold Journal.insertAudit at h
  split at h
  · obtain ⟨-, rfl⟩ := Program.leads_ret.mp h
    exact .over
  rcases Program.leads_issue.mp h with ⟨rfl, rfl⟩ | ⟨e₁, r, log, rfl, h₁⟩
  · exact .start
  rcases r with _ | ⟨⟨⟩⟩
  · exact hend (fun _ _ heq => by cases (List.cons.inj heq).1) h₁
  rcases Program.leads_issue.mp h₁ with ⟨rfl, rfl⟩ | ⟨e₂, r, log, rfl, h₂⟩
  · exact .locked
  rcases r with _ | last
  · exact hend (fun _ _ => hlong) h₂
  rcases Program.leads_issue.mp h₂ with ⟨rfl, rfl⟩ | ⟨e₃, r, log, rfl, h₃⟩
  · exact .read
  rcases r with _ | ⟨⟨⟩⟩
  · exact hend (fun _ _ => hlong) h₃
  rcases Program.leads_issue.mp h₃ with ⟨rfl, rfl⟩ | ⟨e₄, r, log, rfl, h₄⟩
  · exact .inserted
  · exact hend (fun _ _ => hlong) h₄

/-- The rows are a chain, with numbers below the next one. -/
structure Chain (H : String → List String → String) (rows : List Row) (nextSeq : ℤ) : Prop where
  ordered : Ordered rows
  bound : ∀ r ∈ rows, r.seq < nextSeq
  linked : Linked genesis rows
  hashed : ∀ r ∈ rows, r.hash ≠ "" ∧ r.hash = H r.prevHash r.fields

/-- The row follows a chain. -/
structure Follows (H : String → List String → String) (rows : List Row) (nextSeq : ℤ) (row : Row) :
    Prop where
  after : ∀ r ∈ rows, r.seq < row.seq
  bound : row.seq < nextSeq
  prevHash : row.prevHash = headHash (lastHash rows)
  hashed : row.hash ≠ "" ∧ row.hash = H row.prevHash row.fields

theorem Chain.snoc {rows : List Row} {nextSeq : ℤ} {row : Row} (h : Chain H rows nextSeq)
    (hrow : Follows H rows nextSeq row) : Chain H (rows ++ [row]) nextSeq where
  ordered := h.ordered.snoc hrow.after
  bound r hr := by
    rcases List.mem_append.mp hr with hr | hr
    · exact h.bound r hr
    · rw [List.mem_singleton.mp hr]
      exact hrow.bound
  linked := by
    refine h.linked.snoc ?_
    rw [hrow.prevHash, lastHash_eq h.ordered, headHash_eq fun r hr => (h.hashed r hr).1]
  hashed r hr := by
    rcases List.mem_append.mp hr with hr | hr
    · exact h.hashed r hr
    · rw [List.mem_singleton.mp hr]
      exact hrow.hashed

theorem Chain.mono {rows : List Row} {m n : ℤ} (h : Chain H rows m) (hmn : m ≤ n) :
    Chain H rows n :=
  ⟨h.ordered, fun r hr => lt_of_lt_of_le (h.bound r hr) hmn, h.linked, h.hashed⟩

theorem Follows.mono {rows : List Row} {m n : ℤ} {row : Row} (h : Follows H rows m row)
    (hmn : m ≤ n) : Follows H rows n row :=
  ⟨h.after, lt_of_lt_of_le h.bound hmn, h.prevHash, h.hashed⟩

/-- **The replay finds every row of a chain in order.** -/
theorem Chain.verify {rows : List Row} {nextSeq : ℤ} (h : Chain H rows nextSeq) :
    verify H rows = { ok := true, checked := rows.length } :=
  verify_linked h.ordered h.linked h.hashed

/-- What holds of the log and of the transactions on it. -/
structure Kept (J : Journal E R) (H : String → List String → String)
    (s : State (appendMachine J H)) : Prop where
  chain : Chain H (J.table.rows s.env.rows) s.env.nextSeq
  /-- The lock is exclusive. -/
  single : ∀ i j c c', i ≠ j → s.call i = some c → s.call j = some c' → c.loc.locked = true →
    c'.loc.locked = false
  /-- A transaction begins with nothing. -/
  begun : ∀ i c, s.call i = some c → c.log = [] → c.loc = {}
  /-- Until its row is inserted, a transaction holds the lock that it has taken. -/
  held : ∀ i c e tail, s.call i = some c → c.log = ⟨Stmt.lock, e, Except.ok ()⟩ :: tail →
    tail.length ≤ 1 → c.loc.locked = true ∧ c.loc.pending = []
  /-- The head of the log is the one that the holder of the lock has read. -/
  fresh : ∀ i c e last, s.call i = some c → c.loc.locked = true →
    ⟨Stmt.readHead, e, Except.ok last⟩ ∈ c.log → last = lastHash (J.table.rows s.env.rows)
  /-- What is inserted follows the log. -/
  pending : ∀ i c, s.call i = some c → c.loc.pending = [] ∨ ∃ r, c.loc.pending = [r] ∧
    c.loc.locked = true ∧ Follows H (J.table.rows s.env.rows) s.env.nextSeq (J.table.read r)

variable {s : State (appendMachine J H)} {i : ℕ} {c : Call (appendMachine J H)}

/-- A step of a call that appends nothing. -/
theorem Kept.put (h : Kept J H s) {env : Env R} (hrows : env.rows = s.env.rows)
    (hseq : s.env.nextSeq ≤ env.nextSeq)
    (hsingle : c.loc.locked = true → ∀ j c', j ≠ i → s.call j = some c' → c'.loc.locked = false)
    (hbegun : c.log = [] → c.loc = {})
    (hheld : ∀ e tail, c.log = ⟨Stmt.lock, e, Except.ok ()⟩ :: tail → tail.length ≤ 1 →
      c.loc.locked = true ∧ c.loc.pending = [])
    (hfresh : c.loc.locked = true → ∀ e last, ⟨Stmt.readHead, e, Except.ok last⟩ ∈ c.log →
      last = lastHash (J.table.rows s.env.rows))
    (hpending : c.loc.pending = [] ∨ ∃ r, c.loc.pending = [r] ∧ c.loc.locked = true ∧
      Follows H (J.table.rows s.env.rows) env.nextSeq (J.table.read r)) :
    Kept J H (({ s with env }).put i c) where
  chain := by
    rw [State.put_env, hrows]
    exact h.chain.mono hseq
  single j k c₁ c₂ hjk hc₁ hc₂ hlocked := by
    rw [State.call_put] at hc₁ hc₂
    split at hc₁
    · next hji =>
      cases hc₁
      rw [if_neg fun hki => hjk (hji.trans hki.symm)] at hc₂
      exact hsingle hlocked k c₂ (fun hki => hjk (hji.trans hki.symm)) hc₂
    · next hji =>
      split at hc₂
      · cases hc₂
        -- two holders of the lock would exclude each other
        by_contra hlocked'
        rw [Bool.not_eq_false] at hlocked'
        have := hsingle hlocked' j c₁ hji hc₁
        rw [hlocked] at this
        cases this
      · exact h.single j k c₁ c₂ hjk hc₁ hc₂ hlocked
  begun j c' hc' hlog := by
    rw [State.call_put] at hc'
    split at hc'
    · cases hc'
      exact hbegun hlog
    · exact h.begun j c' hc' hlog
  held j c' e tail hc' hlog hlen := by
    rw [State.call_put] at hc'
    split at hc'
    · cases hc'
      exact hheld e tail hlog hlen
    · exact h.held j c' e tail hc' hlog hlen
  fresh j c' e last hc' hlocked hev := by
    rw [State.put_env, hrows]
    rw [State.call_put] at hc'
    split at hc'
    · cases hc'
      exact hfresh hlocked e last hev
    · exact h.fresh j c' e last hc' hlocked hev
  pending j c' hc' := by
    rw [State.put_env, hrows]
    rw [State.call_put] at hc'
    split at hc'
    · cases hc'
      exact hpending
    · rcases h.pending j c' hc' with hnil | ⟨r, hr, hlocked, hfollows⟩
      · exact .inl hnil
      · exact .inr ⟨r, hr, hlocked, hfollows.mono hseq⟩

/-- A commit appends what was inserted. -/
theorem Kept.commit (h : Kept J H s) {c₀ : Call (appendMachine J H)} (hi : s.call i = some c₀)
    (hloc : c.loc = {}) (hlog : ∀ e tail, c.log = ⟨Stmt.lock, e, Except.ok ()⟩ :: tail →
      1 < tail.length) :
    Kept J H (({ s with env := { s.env with rows := s.env.rows ++ c₀.loc.pending } }).put i c) := by
  have hput : ∀ rows, rows = s.env.rows →
      Kept J H (({ s with env := { s.env with rows } }).put i c) := by
    rintro rows rfl
    refine h.put rfl (le_refl _) ?_ (fun _ => hloc) ?_ ?_ ?_
    · simp [hloc]
    · intro e tail h hlen
      exact absurd (hlog e tail h) (by omega)
    · simp [hloc]
    · simp [hloc]
  rcases h.pending i c₀ hi with hnil | ⟨r, hr, hlocked, hfollows⟩
  · exact hput _ (by rw [hnil, List.append_nil])
  -- nobody else holds the lock, so nobody else has read the log
  have hother : ∀ j c', j ≠ i → s.call j = some c' → c'.loc.locked = false :=
    fun j c' hj hc' => h.single i j c₀ c' hj.symm hi hc' hlocked
  have hrest := hput s.env.rows rfl
  rw [hr]
  constructor
  · have hrows : J.table.rows (s.env.rows ++ [r]) = J.table.rows s.env.rows ++ [J.table.read r] :=
      List.map_append
    show Chain H (J.table.rows (s.env.rows ++ [r])) s.env.nextSeq
    rw [hrows]
    exact h.chain.snoc hfollows
  · exact hrest.single
  · exact hrest.begun
  · exact hrest.held
  · intro j c' e last hc' hlocked'
    rw [State.call_put] at hc'
    split at hc'
    · cases hc'
      simp [hloc] at hlocked'
    · next hj =>
      rw [hother j c' hj hc'] at hlocked'
      cases hlocked'
  · intro j c' hc'
    rw [State.call_put] at hc'
    split at hc'
    · cases hc'
      exact .inl (by rw [hloc])
    · next hj =>
      rcases h.pending j c' hc' with hnil | ⟨r', -, hlocked', -⟩
      · exact .inl hnil
      · rw [hother j c' hj hc'] at hlocked'
        cases hlocked'

/-- A row that is inserted under the lock, after the head was read, follows the log. -/
theorem Kept.follows (h : Kept J H s) (hlen : ∀ prev fields, (H prev fields).toList.length = 64)
    {e : E} (hback : J.ReadsBack e) {last : Option String}
    (hlast : last = lastHash (J.table.rows s.env.rows)) {skip : ℕ} {id : Uuid} {r : R}
    (hr : J.row e (headHash last) (H (headHash last) (J.fields e)) (s.env.nextSeq + skip) id =
      some r) :
    Follows H (J.table.rows s.env.rows) (s.env.nextSeq + skip + 1) (J.table.read r) := by
  have hhead : (headHash last).toList.length ≤ 64 := by
    cases hlast' : last with
    | none => decide
    | some hash =>
      rw [headHash]
      split
      · decide
      · -- the last hash is one of the table
        rw [hlast, lastHash_eq h.chain.ordered, Table.rows, List.getLast?_map, Option.map_map,
          Option.map_eq_some_iff] at hlast'
        obtain ⟨r', -, rfl⟩ := hlast'
        exact J.length_hash r'
  obtain ⟨hseq, hprev, hhash⟩ := J.read_row hr hhead (hlen _ _).le
  constructor
  · intro r' hr'
    have := h.chain.bound r' hr'
    omega
  · omega
  · rw [hprev, hlast]
  · rw [hhash, hprev, hback hr]
    refine ⟨fun hnil => ?_, rfl⟩
    have := hlen (headHash last) (J.fields e)
    rw [hnil] at this
    cases this

/-- A step that changes neither the log nor the transaction. -/
theorem Kept.stay (h : Kept J H s) {q : E} {st : Stmt E}
    {k : Reply st → Program (signature E) (Except Unit Unit)} {loc : Tx R}
    {log : List (Event (appendWorld J))} (hi : s.call i = some ⟨q, .call st k, loc, log⟩)
    {env : Env R} (hrows : env.rows = s.env.rows) (hseq : s.env.nextSeq ≤ env.nextSeq)
    {r : Reply st} (hheld : ∀ e tail, log ++ [J.event st s.env r] =
      J.event .lock e (.ok ()) :: tail → tail.length ≤ 1 → loc.locked = true ∧ loc.pending = [])
    (hfresh : ∀ e last, J.event st s.env r = J.event .readHead e (.ok last) →
      last = lastHash (J.table.rows s.env.rows)) :
    Kept J H (({ s with env }).put i ⟨q, k r, loc, log ++ [J.event st s.env r]⟩) := by
  refine h.put hrows hseq ?_ (fun hnil => absurd hnil (by simp)) hheld ?_ ?_
  · exact fun hlocked j c' hj hc' => h.single i j _ c' hj.symm hi hc' hlocked
  · intro hlocked e last hmem
    rcases List.mem_append.mp hmem with hmem | hmem
    · exact h.fresh i _ e last hi hlocked hmem
    · exact hfresh e last (List.mem_singleton.mp hmem).symm
  · rcases h.pending i _ hi with hnil | ⟨r', hr', hlocked, hfollows⟩
    · exact .inl hnil
    · exact .inr ⟨r', hr', hlocked, hfollows.mono hseq⟩

/-- **The log stays a chain** if every event is read back. -/
theorem chain_kept (hlen : ∀ prev fields, (H prev fields).toList.length = 64) {e₀ : Env R}
    (h₀ : Chain H (J.table.rows e₀.rows) e₀.nextSeq) {s : State (appendMachine J H)}
    (hs : Reachable e₀ s) (hback : ∀ i c, s.call i = some c → J.ReadsBack c.request) :
    Kept J H s := by
  revert hback
  refine hs.induct (P := fun s => (∀ i c, s.call i = some c → J.ReadsBack c.request) → Kept J H s)
    ?_ ?_
  · intro _
    exact ⟨h₀, nofun, nofun, nofun, nofun, nofun⟩
  intro s t a hs ih hn hback
  obtain ⟨i, q, rfl, hi, rfl⟩ | ⟨i, choice, q, st, k, loc, log, r, env, loc', rfl, hi, hx, rfl⟩ |
    ⟨m, -⟩ := next_cases hn
  · -- a new transaction
    have hs' : ∀ j c, s.call j = some c → J.ReadsBack c.request := by
      intro j c hc
      refine hback j c ?_
      rw [State.call_put_of_ne _ _ ?_, hc]
      rintro rfl
      rw [hi] at hc
      cases hc
    exact (ih hs').put rfl (le_refl _) nofun (fun _ => rfl) nofun nofun (.inl rfl)
  swap
  · exact m.elim
  have hq : J.ReadsBack q := hback i _ (State.call_put_self _ _ _)
  have hs' : ∀ j c, s.call j = some c → J.ReadsBack c.request := by
    intro j c hc
    by_cases hj : j = i
    · subst hj
      rw [hi] at hc
      cases hc
      exact hq
    · exact hback j c (by rw [State.call_put_of_ne _ _ hj]; exact hc)
  have hkept := ih hs'
  have hstage : AppendStage J H q log (.call st k) := append_stage (hs.leads hi)
  cases hstage with
  | start =>
    have hloc : loc = {} := hkept.begun i _ hi rfl
    simp only [exec] at hx
    split at hx
    · cases hx
      refine hkept.stay hi rfl (le_refl _) ?_ ?_
      · intro e tail heq
        cases (List.cons.inj heq).1
      · intro e last heq
        cases heq
    split at hx
    · cases hx
    · next hfree =>
      cases hx
      refine hkept.put rfl (le_refl _) ?_ nofun (fun e tail _ _ => ⟨rfl, by rw [hloc]⟩) ?_ ?_
      · intro _ j c' hj hc'
        by_contra hlocked
        rw [Bool.not_eq_false] at hlocked
        exact hfree (List.any_eq_true.mpr
          ⟨_, State.mem_others.mpr ⟨j, c', hj, hc', rfl⟩, hlocked⟩)
      · intro _ e last hmem
        cases List.mem_singleton.mp hmem
      · exact .inl (by rw [hloc])
  | locked =>
    have hheld := hkept.held i _ _ _ hi rfl (Nat.zero_le _)
    simp only [exec] at hx
    cases hx
    refine hkept.stay hi rfl (le_refl _) (fun _ _ _ _ => hheld) ?_
    intro e last heq
    have hreply := eq_of_heq (Event.mk.inj heq).2.2
    split at hreply
    · cases hreply
    · rw [hheld.2, List.append_nil] at hreply
      exact (Except.ok.inj hreply).symm
  | @read e₁ e₂ last k =>
    have hheld := hkept.held i _ _ _ hi rfl (le_refl _)
    have hlast := hkept.fresh i _ e₂ last hi hheld.1
      (List.mem_cons_of_mem _ (List.mem_singleton_self _))
    -- a transaction that inserts nothing
    have hstay : ∀ {env : Env R} {r : Except Unit Unit}, env.rows = s.env.rows →
        s.env.nextSeq ≤ env.nextSeq → Kept J H (({ s with env }).put i ⟨q, k r, loc,
          [J.event .lock e₁ (.ok ()), J.event .readHead e₂ (.ok last)] ++
            [J.event (.insert q (headHash last) (H (headHash last) (J.fields q))) s.env r]⟩) := by
      intro env r hrows hseq
      refine hkept.stay hi hrows hseq ?_ ?_
      · intro e tail heq hlen
        rw [← (List.cons.inj heq).2] at hlen
        simp at hlen
      · intro e last heq
        cases heq
    have hseq : s.env.nextSeq ≤ s.env.nextSeq + choice.skip + 1 := by omega
    simp only [exec] at hx
    split at hx
    · cases hx
      exact hstay rfl (le_refl _)
    split at hx
    · cases hx
      exact hstay rfl hseq
    next row hrow =>
    split at hx
    · cases hx
      exact hstay rfl hseq
    · cases hx
      refine hkept.put rfl hseq ?_ (fun hnil => absurd hnil (by simp)) ?_ ?_ ?_
      · exact fun hlocked j c' hj hc' => hkept.single i j _ c' hj.symm hi hc' hlocked
      · intro e tail heq hlen
        rw [← (List.cons.inj heq).2] at hlen
        simp at hlen
      · intro hlocked e last' hmem
        rcases List.mem_append.mp hmem with hmem | hmem
        · exact hkept.fresh i _ e last' hi hlocked hmem
        · cases List.mem_singleton.mp hmem
      · have hpending : loc.pending = [] := hheld.2
        exact .inr ⟨row, by rw [hpending]; rfl, hheld.1, hkept.follows hlen hq hlast hrow⟩
  | inserted =>
    have hlong : ∀ {ev ev' ev'' : Event (appendWorld J)} (r : Except Unit Unit) e tail,
        [ev, ev', ev''] ++ [J.event .commit s.env r] = J.event .lock e (.ok ()) :: tail →
          1 < tail.length := fun r e tail heq => by
      rw [← (List.cons.inj heq).2]
      simp
    simp only [exec] at hx
    split at hx
    · cases hx
      refine hkept.put rfl (le_refl _) nofun (fun _ => rfl) ?_ nofun (.inl rfl)
      intro e tail heq hlen
      exact absurd (hlong _ _ _ heq) (by omega)
    · cases hx
      exact hkept.commit hi rfl (hlong _)
  | ending hlog =>
    simp only [exec] at hx
    cases hx
    refine hkept.put rfl (le_refl _) nofun (fun _ => rfl) ?_ nofun (.inl rfl)
    intro e tail heq hlen
    cases log with
    | nil => cases (List.cons.inj heq).1
    | cons ev log =>
      obtain ⟨rfl, hlog'⟩ := List.cons.inj heq
      have := hlog e log rfl
      rw [← hlog', List.append_eq, List.length_append, List.length_singleton] at hlen
      omega

/-- **The replay finds every row** that was appended, if every event is read back. -/
theorem verify_appended (hlen : ∀ prev fields, (H prev fields).toList.length = 64) {n : ℤ}
    {acts : List (Act (appendMachine J H))} {s : State (appendMachine J H)}
    (hs : Steps (logWith J H [] n) acts s) (hback : ∀ i e, .spawn i e ∈ acts → J.ReadsBack e) :
    verify H (J.table.rows s.env.rows) = { ok := true, checked := s.env.rows.length } := by
  have hnil : Chain H (J.table.rows (Env.mk [] n).rows) (Env.mk ([] : List R) n).nextSeq :=
    ⟨List.Pairwise.nil, fun r hr => absurd hr List.not_mem_nil, trivial,
      fun r hr => absurd hr List.not_mem_nil⟩
  have hreach : Reachable (M := appendMachine J H) (Env.mk [] n) s := ⟨acts, hs⟩
  have hkept : Kept J H s := chain_kept hlen hnil hreach fun i c hc =>
    hback i c.request (hs.spawned hc)
  rw [hkept.chain.verify, Table.rows, List.length_map]

end Chain

end Audit
