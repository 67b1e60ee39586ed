import MiniBanking.Concurrency.Machine

/-!
# A call that runs while the others stand still

The statements of one call, one after the other, need no machine to be run: the calls that stand
still only matter by their local states.

## Main definitions

* `Program.solo`: a program with the choices of its statements
* `Act.all`: the labels of these statements
* `Program.Wp`: the weakest precondition of a program that runs alone

## Main results

* `runAll_solo`: what the machine does when only one call acts
* `Program.Wp.sound`: a program that returns has reached its postcondition
* `Program.Wp.total`: it does return if no statement has to wait
-/

namespace Concurrency

variable {W : World} {M : Machine} {α β : Type}

/-- The program goes on for as many statements as there are choices, beside calls with the local
states `others`. -/
def Program.solo (others : List W.Loc) :
    Program W.S α → List W.Choice → W.Env → W.Loc → Option (Program W.S α × W.Env × W.Loc)
  | p, [], e, l => some (p, e, l)
  | .ret _, _ :: _, _, _ => none
  | .call s k, c :: cs, e, l =>
    (W.exec others s c e l).bind fun (r, e', l') => (k r).solo others cs e' l'

@[simp] theorem Program.solo_nil (others : List W.Loc) (p : Program W.S α) (e : W.Env)
    (l : W.Loc) : p.solo others [] e l = some (p, e, l) := by
  cases p <;> rfl

@[simp] theorem Program.solo_ret (others : List W.Loc) (a : α) (c : W.Choice)
    (cs : List W.Choice) (e : W.Env) (l : W.Loc) :
    (Program.ret a : Program W.S α).solo others (c :: cs) e l = none := rfl

theorem Program.solo_call (others : List W.Loc) (s : W.S.Stmt)
    (k : W.S.Reply s → Program W.S α) (c : W.Choice) (cs : List W.Choice) (e : W.Env)
    (l : W.Loc) : (Program.call s k).solo others (c :: cs) e l =
      (W.exec others s c e l).bind fun (r, e', l') => (k r).solo others cs e' l' := rfl

theorem Program.solo_issue (others : List W.Loc) (s : W.S.Stmt)
    (f : W.S.Reply s → Program W.S α) (c : W.Choice) (cs : List W.Choice) (e : W.Env)
    (l : W.Loc) : (issue s >>= f).solo others (c :: cs) e l =
      (W.exec others s c e l).bind fun (r, e', l') => (f r).solo others cs e' l' := rfl

/-- The statements of call `i`, with their choices. -/
def Act.all (i : ℕ) (choices : List M.Choice) : List (Act M) := choices.map (.run i)

/-- A call does not count among the others, whatever it does. -/
theorem State.others_put (s : State M) (i : ℕ) (c : Call M) :
    (s.put i c).others i = s.others i := by
  have hgone : ∀ l : List (Sigma fun _ : ℕ => Call M),
      (l.kerase i).filter (fun c => decide (c.1 ≠ i)) = l.filter fun c => decide (c.1 ≠ i) := by
    intro l
    induction l with
    | nil => rfl
    | cons x l ih =>
      by_cases hx : i = x.1
      · rw [List.kerase_cons_eq hx, List.filter_cons_of_neg (by simp [hx])]
      · rw [List.kerase_cons_ne hx, List.filter_cons, List.filter_cons, ih]
  rw [State.others, State.put, AList.entries_insert, List.filter_cons_of_neg (by simp), hgone,
    State.others]

theorem runAll_cons (s : State M) (a : Act M) (acts : List (Act M)) :
    runAll s (a :: acts) = (next s a).bind fun t => runAll t acts := rfl

theorem runAll_append (s : State M) (acts acts' : List (Act M)) :
    runAll s (acts ++ acts') = (runAll s acts).bind fun t => runAll t acts' :=
  List.foldlM_append

/-- **Only one call acts.** The machine can take its statements exactly if the program can be run
beside the others, and then the two agree about the environment and the call. -/
theorem runAll_solo {s : State M} {i : ℕ} {q : M.Request} {p : Program M.S M.Result} {l : M.Loc}
    {log : List (Event M.toWorld)} (hi : s.call i = some ⟨q, p, l, log⟩)
    (choices : List M.Choice) :
    (runAll s (Act.all i choices)).map (fun t => (t.env, (t.call i).map fun c => (c.rest, c.loc))) =
      (p.solo (s.others i) choices s.env l).map fun (p', e', l') => (e', some (p', l')) := by
  induction choices generalizing s p l log with
  | nil => simp [Act.all, runAll, hi]
  | cons c choices ih =>
    rw [Act.all, List.map_cons, runAll_cons]
    cases p with
    | ret a => simp [next, hi]
    | call st k =>
      rw [Program.solo_call]
      cases hx : M.exec (s.others i) st c s.env l with
      | none => simp [next, hi, hx]
      | some x =>
        obtain ⟨r, e', l'⟩ := x
        rw [next_run hi hx, Option.bind_some, Option.bind_some]
        have hrest := ih (State.call_put_self { s with env := e' } i
          ⟨q, k r, l', log ++ [⟨st, s.env, r⟩]⟩)
        rw [State.others_put] at hrest
        exact hrest

/-! ## Weakest preconditions -/

section Wp

variable {others : List W.Loc} {H : W.Choice → Prop} {T : Prop} {Q : α → W.Env → W.Loc → Prop}
  {R : β → W.Env → W.Loc → Prop} {p : Program W.S α} {e e' : W.Env} {l l' : W.Loc}

/-- The program reaches the postcondition `Q` whenever it returns, if all choices meet `H`; and if
`T` holds, then none of its statements has to wait. -/
def Program.Wp (others : List W.Loc) (H : W.Choice → Prop) (T : Prop)
    (Q : α → W.Env → W.Loc → Prop) : Program W.S α → W.Env → W.Loc → Prop
  | .ret a, e, l => Q a e l
  | .call s k, e, l => ∀ c, H c → (T → W.exec others s c e l ≠ none) ∧
      ∀ r e' l', W.exec others s c e l = some (r, e', l') → (k r).Wp others H T Q e' l'

theorem Program.Wp.mono {Q' : α → W.Env → W.Loc → Prop} (h : p.Wp others H T Q e l)
    (hQ : ∀ a e l, Q a e l → Q' a e l) : p.Wp others H T Q' e l := by
  induction p generalizing e l with
  | ret a => exact hQ a e l h
  | call s k ih =>
    intro c hc
    exact ⟨(h c hc).1, fun r e' l' hx => ih r ((h c hc).2 r e' l' hx)⟩

/-- The rule for sequences. -/
theorem Program.Wp.bind {f : α → Program W.S β}
    (h : p.Wp others H T (fun a e l => (f a).Wp others H T R e l) e l) :
    (p >>= f).Wp others H T R e l := by
  induction p generalizing e l with
  | ret a => exact h
  | call s k ih =>
    intro c hc
    exact ⟨(h c hc).1, fun r e' l' hx => ih r ((h c hc).2 r e' l' hx)⟩

/-- **A program that returns has reached its postcondition.** -/
theorem Program.Wp.sound (h : p.Wp others H T Q e l) {choices : List W.Choice}
    (hH : ∀ c ∈ choices, H c) {a : α} (hx : p.solo others choices e l = some (.ret a, e', l')) :
    Q a e' l' := by
  induction choices generalizing p e l with
  | nil =>
    rw [Program.solo_nil] at hx
    cases hx
    exact h
  | cons c choices ih =>
    cases p with
    | ret b => cases hx
    | call s k =>
      rw [Program.solo_call] at hx
      obtain ⟨⟨r, e₁, l₁⟩, hfirst, hrest⟩ := Option.bind_eq_some_iff.mp hx
      exact ih ((h c (hH c List.mem_cons_self)).2 r e₁ l₁ hfirst)
        (fun c hc => hH c (List.mem_cons_of_mem _ hc)) hrest

/-- **A program none of whose statements has to wait returns.** -/
theorem Program.Wp.total (h : p.Wp others H T Q e l) (hT : T) {choices : ℕ → W.Choice}
    (hH : ∀ n, H (choices n)) :
    ∃ n a e' l', p.solo others ((List.range n).map choices) e l = some (.ret a, e', l') := by
  induction p generalizing e l choices with
  | ret a => exact ⟨0, a, e, l, rfl⟩
  | call s k ih =>
    obtain ⟨hgo, hnext⟩ := h (choices 0) (hH 0)
    obtain ⟨⟨r, e₁, l₁⟩, hx⟩ := Option.ne_none_iff_exists'.mp (hgo hT)
    obtain ⟨n, a, e₂, l₂, hrest⟩ := ih r (hnext r e₁ l₁ hx) fun n => hH (n + 1)
    refine ⟨n + 1, a, e₂, l₂, ?_⟩
    rw [List.range_succ_eq_map, List.map_cons, List.map_map, Program.solo_call, hx]
    exact hrest

end Wp

end Concurrency
