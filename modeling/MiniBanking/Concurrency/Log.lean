import MiniBanking.Concurrency.Machine

/-!
# What the calls of a run have issued

Every call keeps the list of its statements with the environments they were executed in and the
replies. A fact that a program establishes by its first statements is a fact about the start of
that list, which the later statements do not change.

## Main definitions

* `Program.Issues`: every statement a program may issue is of a kind
* `Program.MayIssue`: a program may issue a statement
* `State.Issued`: a call has issued a statement

## Main results

* `Program.Meets.prefixed`: a program that continues a list of statements only extends it
* `Issued.of_next`: what a step adds to the statements issued
* `Reachable.issued_under`: every statement of every call was issued under its request's promise
-/

namespace Concurrency

/-! ## Programs that issue statements of one kind -/

section Issues

variable {W : World} {α β : Type} {P : W.S.Stmt → Prop}

/-- Every statement the program may issue, whatever the replies to the earlier ones, is in
`P`. -/
def Program.Issues {S : Signature} {α : Type} (P : S.Stmt → Prop) : Program S α → Prop
  | .ret _ => True
  | .call s k => P s ∧ ∀ r, Program.Issues P (k r)

theorem Program.Issues.bind {S : Signature} {P : S.Stmt → Prop} {p : Program S α}
    {f : α → Program S β} (h : p.Issues P) (hf : ∀ a, (f a).Issues P) : (p >>= f).Issues P := by
  induction p with
  | ret a => exact hf a
  | call s k ih => exact ⟨h.1, fun r => ih r (h.2 r)⟩

theorem Program.Issues.ite {S : Signature} {P : S.Stmt → Prop} {c : Prop} [Decidable c]
    {p q : Program S α} (hp : c → p.Issues P) (hq : ¬ c → q.Issues P) :
    (if c then p else q).Issues P := by
  split
  · next h => exact hp h
  · next h => exact hq h

/-- The program issues the statement, after some replies to the earlier ones. -/
inductive Program.MayIssue {S : Signature} {α : Type} : Program S α → S.Stmt → Prop
  | here (s : S.Stmt) (k : S.Reply s → Program S α) : MayIssue (.call s k) s
  | later {s st : S.Stmt} {k : S.Reply s → Program S α} (r : S.Reply s) (h : MayIssue (k r) st) :
      MayIssue (.call s k) st

theorem Program.Issues.of_mayIssue {S : Signature} {P : S.Stmt → Prop} {p : Program S α}
    (h : p.Issues P) {st : S.Stmt} (hst : p.MayIssue st) : P st := by
  induction hst with
  | here => exact h.1
  | later r _ ih => exact ih (h.2 r)

theorem Program.MayIssue.bind {S : Signature} {p : Program S α} {st : S.Stmt}
    (h : p.MayIssue st) (f : α → Program S β) : (p >>= f).MayIssue st := by
  induction h with
  | here => exact .here _ _
  | later r _ ih => exact .later r ih

/-- Statements of one kind are a promise that no environment can break. -/
theorem Program.Issues.meets {Rely : W.Env → W.Env → Prop} {p : Program W.S α} (h : p.Issues P)
    (log : List (Event W)) (e : W.Env) (l : W.Loc) :
    p.Meets Rely (fun _ s _ _ => P s) (fun _ _ _ _ => True) log e l := by
  induction p generalizing log e l with
  | ret a => exact fun _ _ => trivial
  | call s k ih =>
    exact fun e' _ => ⟨h.1, fun _ _ r _ _ _ => ih r (h.2 r) _ _ _⟩

end Issues

/-! ## The statements of one call -/

section Prefix

variable {W : World} {Rely : W.Env → W.Env → Prop} {α : Type}
  {G : List (Event W) → W.S.Stmt → W.Env → W.Loc → Prop}
  {Q : List (Event W) → α → W.Env → W.Loc → Prop}

/-- What was issued before a program starts stays at the start of the list. -/
theorem Program.Meets.prefixed {p : Program W.S α} {log : List (Event W)} {e : W.Env} {l : W.Loc}
    (h : p.Meets Rely G Q log e l) {start : List (Event W)} (hstart : start <+: log) :
    p.Meets Rely (fun log s e l => start <+: log ∧ G log s e l)
      (fun log a e l => start <+: log ∧ Q log a e l) log e l := by
  induction p generalizing log e l with
  | ret a => exact fun e' hr => ⟨hstart, h e' hr⟩
  | call s k ih =>
    intro e' hr
    obtain ⟨hs, hk⟩ := h e' hr
    exact ⟨⟨hstart, hs⟩, fun others c r e'' l' he =>
      ih r (hk others c r e'' l' he) (hstart.trans (List.prefix_append _ _))⟩

end Prefix

/-! ## The statements of a run -/

section Run

variable {M : Machine}

/-- Call `i` has issued a statement, with this reply. -/
def State.Issued (s : State M) (i : ℕ) (ev : Event M.toWorld) : Prop :=
  ∃ c, s.call i = some c ∧ ev ∈ c.log

/-- A step issues at most one statement, in the environment it finds. -/
theorem Issued.of_next {s t : State M} {a : Act M} (hn : next s a = some t) {i : ℕ}
    {ev : Event M.toWorld} (h : t.Issued i ev) :
    s.Issued i ev ∨ ∃ choice loc loc', a = .run i choice ∧ ev.env = s.env ∧
      M.exec (s.others i) ev.stmt choice s.env loc = some (ev.reply, t.env, loc') := by
  obtain ⟨c, hc, hev⟩ := h
  obtain ⟨j, q, rfl, -, rfl⟩ | ⟨j, choice, q, st, k, loc, log, r, env, loc', rfl, hj, he, rfl⟩ |
    ⟨m, env, rfl, -, rfl⟩ := next_cases hn
  · rw [State.call_put] at hc
    split at hc
    · cases hc
      cases hev
    · exact .inl ⟨c, hc, hev⟩
  · rw [State.call_put] at hc
    split at hc
    · next hij =>
      subst hij
      cases hc
      rcases List.mem_append.mp hev with hev | hev
      · exact .inl ⟨_, hj, hev⟩
      · obtain rfl := List.mem_singleton.mp hev
        exact .inr ⟨choice, loc, loc', rfl, rfl, he⟩
    · exact .inl ⟨c, hc, hev⟩
  · exact .inl ⟨c, hc, hev⟩

/-- A step keeps every call, with its request, and at most extends its list of statements. -/
theorem State.call_next {s t : State M} {a : Act M} (hn : next s a = some t) {i : ℕ}
    {c : Call M} (hc : s.call i = some c) :
    ∃ c', t.call i = some c' ∧ c'.request = c.request ∧ c.log <+: c'.log := by
  obtain ⟨j, q, rfl, hj, rfl⟩ | ⟨j, choice, q, st, k, loc, log, r, env, loc', rfl, hj, -, rfl⟩ |
    ⟨m, env, rfl, -, rfl⟩ := next_cases hn
  · have hij : i ≠ j := by
      rintro rfl
      rw [hj] at hc
      cases hc
    exact ⟨c, by rw [State.call_put_of_ne _ _ hij, hc], rfl, List.prefix_rfl⟩
  · by_cases hij : i = j
    · subst hij
      obtain rfl := Option.some.inj (hj.symm.trans hc)
      exact ⟨_, State.call_put_self _ _ _, rfl, List.prefix_append _ _⟩
    · exact ⟨c, by rw [State.call_put_of_ne _ _ hij]; exact hc, rfl, List.prefix_rfl⟩
  · exact ⟨c, hc, rfl, List.prefix_rfl⟩

/-- **Every statement was issued under a promise.** If in every reachable state what is left of
every call meets its specification, then each statement of a call was issued under the promise
of its request, given the statements before it. -/
theorem Reachable.issued_under {Rely : M.Env → M.Env → Prop} {e₀ : M.Env}
    {G : M.Request → List (Event M.toWorld) → M.S.Stmt → M.Env → M.Loc → Prop}
    {Q : M.Request → List (Event M.toWorld) → M.Result → M.Env → M.Loc → Prop}
    (hmeets : ∀ {s : State M}, Reachable e₀ s → Rely s.env s.env ∧ ∀ i c, s.call i = some c →
      c.rest.Meets Rely (G c.request) (Q c.request) c.log s.env c.loc)
    {s : State M} (h : Reachable e₀ s) {i : ℕ} {c : Call M} (hc : s.call i = some c)
    {before after : List (Event M.toWorld)} {ev : Event M.toWorld}
    (hlog : c.log = before ++ ev :: after) : ∃ loc, G c.request before ev.stmt ev.env loc := by
  revert i c before after ev
  refine h.induct (P := fun s => ∀ {i c}, s.call i = some c → ∀ {before after ev},
    c.log = before ++ ev :: after → ∃ loc, G c.request before ev.stmt ev.env loc) ?_ ?_
  · intro i c hc
    cases hc
  intro s t a hreach ih hn i c hc before after ev hlog
  obtain ⟨j, q, rfl, -, rfl⟩ | ⟨j, choice, q, st, k, loc, log, r, env, loc', rfl, hj, -, rfl⟩ |
    ⟨m, env, rfl, -, rfl⟩ := next_cases hn
  · rw [State.call_put] at hc
    split at hc
    · cases hc
      simp at hlog
    · exact ih hc hlog
  · rw [State.call_put] at hc
    split at hc
    · cases hc
      -- the statement is the one this step issues, or an earlier one
      rcases List.eq_nil_or_concat after with rfl | ⟨after, last, rfl⟩
      · obtain ⟨rfl, hev⟩ := List.append_inj' hlog rfl
        cases hev
        obtain ⟨hself, hkeeps⟩ := hmeets hreach
        exact ⟨loc, (hkeeps j _ hj s.env hself).1⟩
      · rw [List.concat_eq_append, ← List.cons_append, ← List.append_assoc] at hlog
        exact ih hj (List.append_inj' hlog rfl).1
    · exact ih hc hlog
  · exact ih hc hlog

end Run

end Concurrency
