import MiniBanking.Concurrency.Log

/-!
# The statements of a finished program

The list of the statements a call has issued determines the path its program took: a program that
is over is determined by that list alone, so that a result can be read back statement by
statement, without the other calls.

## Main definitions

* `Program.Leads`: a program issues the statements of a list and goes on as another program
* `Program.Returns`: a program issues the statements of a list and then returns a result

## Main results

* `Reachable.leads`: the program of every call leads, by its statements, to what is left of it
* `Program.returns_bind`: a sequence of programs returns if the parts do, one after the other
* `Reachable.log_exec`: every statement of every call was executed
* `Reachable.log_ordered`: the environments of a call's statements are in order
-/

namespace Concurrency

/-! ## Paths of a program -/

section Leads

variable {W : World} {α β : Type}

/-- The program issues the statements of the list, with these replies, and goes on as the last
program. -/
inductive Program.Leads : Program W.S α → List (Event W) → Program W.S α → Prop
  | nil (p : Program W.S α) : Leads p [] p
  | cons {s : W.S.Stmt} {k : W.S.Reply s → Program W.S α} {e : W.Env} {r : W.S.Reply s}
      {log : List (Event W)} {q : Program W.S α} (h : Leads (k r) log q) :
      Leads (.call s k) (⟨s, e, r⟩ :: log) q

theorem Program.Leads.snoc {p : Program W.S α} {log : List (Event W)} {s : W.S.Stmt}
    {k : W.S.Reply s → Program W.S α} (h : p.Leads log (.call s k)) (e : W.Env)
    (r : W.S.Reply s) : p.Leads (log ++ [⟨s, e, r⟩]) (k r) := by
  generalize hq : Program.call s k = q at h
  induction h with
  | nil p =>
    subst hq
    exact .cons (.nil _)
  | cons h ih => exact .cons (ih hq)

theorem Program.leads_ret {a : α} {log : List (Event W)} {q : Program W.S α} :
    (Program.ret a : Program W.S α).Leads log q ↔ log = [] ∧ q = .ret a := by
  constructor
  · intro h
    cases h
    exact ⟨rfl, rfl⟩
  · rintro ⟨rfl, rfl⟩
    exact .nil _

/-- A program that issues a statement has not come so far, or goes on with the reply. -/
theorem Program.leads_call {s : W.S.Stmt} {k : W.S.Reply s → Program W.S α}
    {log : List (Event W)} {q : Program W.S α} : (Program.call s k).Leads log q ↔
      log = [] ∧ q = .call s k ∨ ∃ e r tail, log = ⟨s, e, r⟩ :: tail ∧ (k r).Leads tail q := by
  constructor
  · intro h
    cases h with
    | nil => exact .inl ⟨rfl, rfl⟩
    | cons h => exact .inr ⟨_, _, _, rfl, h⟩
  · rintro (⟨rfl, rfl⟩ | ⟨e, r, tail, rfl, h⟩)
    · exact .nil _
    · exact .cons h

/-- A statement that is issued first. -/
theorem Program.leads_issue {s : W.S.Stmt} {f : W.S.Reply s → Program W.S α}
    {log : List (Event W)} {q : Program W.S α} : (issue s >>= f).Leads log q ↔
      log = [] ∧ q = .call s f ∨ ∃ e r tail, log = ⟨s, e, r⟩ :: tail ∧ (f r).Leads tail q :=
  Program.leads_call

/-- The program issues the statements of the list, with these replies, and then returns. -/
def Program.Returns (p : Program W.S α) (log : List (Event W)) (a : α) : Prop :=
  p.Leads log (.ret a)

@[simp] theorem Program.returns_ret {a b : α} {log : List (Event W)} :
    (Program.ret a : Program W.S α).Returns log b ↔ log = [] ∧ a = b := by
  constructor
  · intro h
    cases h
    exact ⟨rfl, rfl⟩
  · rintro ⟨rfl, rfl⟩
    exact .nil _

@[simp] theorem Program.returns_call {s : W.S.Stmt} {k : W.S.Reply s → Program W.S α} {a : α}
    {log : List (Event W)} : (Program.call s k).Returns log a ↔
      ∃ e r tail, log = ⟨s, e, r⟩ :: tail ∧ (k r).Returns tail a := by
  constructor
  · intro h
    cases h with
    | cons h => exact ⟨_, _, _, rfl, h⟩
  · rintro ⟨e, r, tail, rfl, h⟩
    exact .cons h

/-- A statement that is issued first. -/
theorem Program.returns_issue {s : W.S.Stmt} {f : W.S.Reply s → Program W.S α} {a : α}
    {log : List (Event W)} : (issue s >>= f).Returns log a ↔
      ∃ e r tail, log = ⟨s, e, r⟩ :: tail ∧ (f r).Returns tail a := Program.returns_call

theorem Program.returns_bind {p : Program W.S α} {f : α → Program W.S β} {log : List (Event W)}
    {b : β} : (p >>= f).Returns log b ↔
      ∃ before a after, log = before ++ after ∧ p.Returns before a ∧ (f a).Returns after b := by
  induction p generalizing log with
  | ret a =>
    constructor
    · intro h
      exact ⟨[], a, log, rfl, .nil _, h⟩
    · rintro ⟨before, a', after, rfl, h, h'⟩
      obtain ⟨rfl, rfl⟩ := Program.returns_ret.mp h
      exact h'
  | call s k ih =>
    rw [Program.call_bind, Program.returns_call]
    constructor
    · rintro ⟨e, r, tail, rfl, h⟩
      obtain ⟨before, a, after, rfl, h, h'⟩ := (ih r).mp h
      exact ⟨_ :: before, a, after, rfl, .cons h, h'⟩
    · rintro ⟨before, a, after, rfl, h, h'⟩
      cases h with
      | @cons _ _ e r tail _ h =>
        exact ⟨e, r, tail ++ after, rfl, (ih r).mpr ⟨tail, a, after, rfl, h, h'⟩⟩

end Leads

/-! ## Calls of a run -/

section Run

variable {M : Machine} {e₀ : M.Env}

/-- **The path of a call.** In every reachable state the program of a call leads, by the statements
it has issued, to what is left of it. -/
theorem Reachable.leads {s : State M} (h : Reachable e₀ s) {i : ℕ} {c : Call M}
    (hc : s.call i = some c) : (M.program c.request).Leads c.log c.rest := by
  revert i c
  refine h.induct (P := fun s => ∀ {i c}, s.call i = some c →
    (M.program c.request).Leads c.log c.rest) ?_ ?_
  · intro i c hc
    cases hc
  intro s t a _ ih hn i c hc
  obtain ⟨j, q, rfl, -, rfl⟩ | ⟨j, choice, q, st, k, loc, log, r, env, loc', rfl, hj, -, rfl⟩ |
    ⟨m, env, rfl, -, rfl⟩ := next_cases hn
  · rw [State.call_put] at hc
    split at hc
    · cases hc
      exact .nil _
    · exact ih hc
  · rw [State.call_put] at hc
    split at hc
    · cases hc
      exact (ih hj).snoc _ _
    · exact ih hc
  · exact ih hc

/-- A call was started with its request. -/
theorem Steps.spawned {acts : List (Act M)} {s : State M} (h : Steps ⟨e₀, ∅⟩ acts s) {i : ℕ}
    {c : Call M} (hc : s.call i = some c) : .spawn i c.request ∈ acts := by
  induction h generalizing c with
  | nil => cases hc
  | @snoc acts a s t _ hn ih =>
    rw [List.mem_append, List.mem_singleton]
    obtain ⟨j, q, rfl, -, rfl⟩ | ⟨j, choice, q, st, k, loc, log, r, env, loc', rfl, hj, -, rfl⟩ |
      ⟨m, env, rfl, -, rfl⟩ := next_cases hn
    · rw [State.call_put] at hc
      split at hc
      · next hij =>
        cases hc
        exact .inr (by rw [hij])
      · exact .inl (ih hc)
    · rw [State.call_put] at hc
      split at hc
      · next hij =>
        cases hc
        subst hij
        have hq := ih hj
        exact .inl hq
      · exact .inl (ih hc)
    · exact .inl (ih hc)

/-- A call that is over returned along its statements. -/
theorem Reachable.returns {s : State M} (h : Reachable e₀ s) {i : ℕ} {c : Call M}
    (hc : s.call i = some c) {a : M.Result} (ha : c.rest.result = some a) :
    (M.program c.request).Returns c.log a := by
  have hleads := h.leads hc
  rwa [Program.eq_ret_of_result ha] at hleads

/-- Every statement of every call was executed in its environment. -/
theorem Reachable.log_exec {s : State M} (h : Reachable e₀ s) {i : ℕ} {ev : Event M.toWorld}
    (hev : s.Issued i ev) : ∃ others choice loc env loc',
      M.exec others ev.stmt choice ev.env loc = some (ev.reply, env, loc') := by
  refine h.induct (P := fun s => s.Issued i ev → ∃ others choice loc env loc',
    M.exec others ev.stmt choice ev.env loc = some (ev.reply, env, loc')) ?_ ?_ hev
  · rintro ⟨c, hc, -⟩
    cases hc
  intro s t a _ ih hn hev
  obtain hev | ⟨choice, loc, loc', -, henv, hx⟩ := Issued.of_next hn hev
  · exact ih hev
  · exact ⟨s.others i, choice, loc, t.env, loc', by rw [henv]; exact hx⟩

/-- **The environments of a call's statements are in order**, for every order that statements and
moves of the environment respect, and the last state comes after them. -/
theorem Reachable.log_ordered {R : M.Env → M.Env → Prop}
    (htrans : ∀ a b c, R a b → R b c → R a c)
    (hexec : ∀ others st c e l r e' l', M.exec others st c e l = some (r, e', l') → R e e')
    (htick : ∀ m e e', M.tick m e = some e' → R e e') {s : State M} (h : Reachable e₀ s) {i : ℕ}
    {c : Call M} (hc : s.call i = some c) :
    c.log.Pairwise (fun ev ev' => R ev.env ev'.env) ∧ ∀ ev ∈ c.log, R ev.env s.env := by
  revert i c
  refine h.induct (P := fun s => ∀ {i c}, s.call i = some c →
    c.log.Pairwise (fun ev ev' => R ev.env ev'.env) ∧ ∀ ev ∈ c.log, R ev.env s.env) ?_ ?_
  · intro i c hc
    cases hc
  intro s t a _ ih hn i c hc
  obtain ⟨j, q, rfl, -, rfl⟩ | ⟨j, choice, q, st, k, loc, log, r, env, loc', rfl, hj, he, rfl⟩ |
    ⟨m, env, rfl, hm, rfl⟩ := next_cases hn
  · rw [State.call_put] at hc
    split at hc
    · cases hc
      simp
    · exact ih hc
  · have hstep := hexec _ _ _ _ _ _ _ _ he
    rw [State.call_put] at hc
    split at hc
    · cases hc
      obtain ⟨hpair, hbefore⟩ := ih hj
      refine ⟨List.pairwise_append.mpr ⟨hpair, List.pairwise_singleton _ _, ?_⟩, ?_⟩
      · intro ev hev ev' hev'
        rw [List.mem_singleton.mp hev']
        exact hbefore ev hev
      · intro ev hev
        rcases List.mem_append.mp hev with hev | hev
        · exact htrans _ _ _ (hbefore ev hev) hstep
        · rw [List.mem_singleton.mp hev]
          exact hstep
    · obtain ⟨hpair, hbefore⟩ := ih hc
      exact ⟨hpair, fun ev hev => htrans _ _ _ (hbefore ev hev) hstep⟩
  · obtain ⟨hpair, hbefore⟩ := ih hc
    exact ⟨hpair, fun ev hev => htrans _ _ _ (hbefore ev hev) (htick _ _ _ hm)⟩

end Run

end Concurrency
