import MiniBanking.Concurrency.Program
import Mathlib.Data.List.AList
import Mathlib.Data.List.Induction

/-!
# Interleaved calls on a shared environment

A machine runs any number of calls. Each call is a program with a local state; a step of the
machine starts a call, lets one call issue its next statement, or lets the environment move on
its own (a clock). Everything that is not determined (which call acts, what a random source or
a remote service answers, whether a statement fails) is in the label of the step, so `next` is
a function and a run is a list of labels.

## Main definitions

* `World`: the statements' meaning on the environment and on the issuing call's local state
* `Machine`: programs in a world
* `State`, `Act`, `next`: the calls in progress, the labels, one step
* `Steps`, `Reachable`: runs and the states they reach
* `Program.Meets`: a program keeps its promises whatever the other calls do in between
* `TakenAt`: a step of a run, by its number
* `stepsPass`: a test of all steps of a run
* `State.Erased`: a state with one call taken out

## Main results

* `Reachable.induct`: the invariant rule
* `Steps.loc`: what every statement preserves about a call's local state
* `Reachable.meets`: if every program meets its specification against the rely, then every call
  of every reachable state does
* `Steps.erase`: a call whose steps never touch the environment can be taken out of a run
-/

namespace Concurrency

/-- The meaning of statements. -/
structure World where
  /-- The statements. -/
  S : Signature
  /-- What all calls share. -/
  Env : Type
  /-- What a call keeps between its statements. -/
  Loc : Type
  /-- What decides a statement's outcome besides the two states. -/
  Choice : Type
  /-- One statement of a call with local state `l`, while the other calls have the local states
  `others`; `none` while it cannot proceed. -/
  exec : (others : List Loc) → (s : S.Stmt) → Choice → (e : Env) → (l : Loc) →
    Option (S.Reply s × Env × Loc)

/-- A statement that was executed: in which environment, and its reply. -/
structure Event (W : World) where
  stmt : W.S.Stmt
  env : W.Env
  reply : W.S.Reply stmt

/-- Programs in a world. -/
structure Machine extends World where
  /-- The moves of the environment on its own. -/
  Tick : Type
  /-- What starts a call. -/
  Request : Type
  /-- What a call returns. -/
  Result : Type
  /-- The program a request runs. -/
  program : Request → Program S Result
  /-- The local state a call starts with. -/
  start : Loc
  /-- A move of the environment. -/
  tick : Tick → Env → Option Env

variable (M : Machine)

/-- A call in progress: what was requested, what is left to run, its local state, and its
statements so far. -/
structure Call where
  request : M.Request
  rest : Program M.S M.Result
  loc : M.Loc
  log : List (Event M.toWorld)

/-- The environment and the calls, by call id. -/
structure State where
  env : M.Env
  calls : AList fun _ : ℕ => Call M

/-- The label of a step. -/
inductive Act where
  | spawn (i : ℕ) (request : M.Request)
  | run (i : ℕ) (choice : M.Choice)
  | tick (t : M.Tick)

variable {M}

namespace State

/-- The call with id `i`. -/
def call (s : State M) (i : ℕ) : Option (Call M) := s.calls.lookup i

/-- What call `i` was asked for. -/
def request (s : State M) (i : ℕ) : Option M.Request := (s.call i).map (·.request)

/-- What call `i` returned. -/
def result (s : State M) (i : ℕ) : Option M.Result := (s.call i).bind (·.rest.result)

/-- The local states of the calls other than `i`. -/
def others (s : State M) (i : ℕ) : List M.Loc :=
  (s.calls.entries.filter fun c => c.1 ≠ i).map fun c => c.2.loc

/-- The state with call `i` replaced by `c`. -/
def put (s : State M) (i : ℕ) (c : Call M) : State M := { s with calls := s.calls.insert i c }

@[simp] theorem put_env (s : State M) (i : ℕ) (c : Call M) : (s.put i c).env = s.env := rfl

theorem call_put (s : State M) (i j : ℕ) (c : Call M) :
    (s.put i c).call j = if j = i then some c else s.call j := by
  unfold call put
  split
  · next h => subst h; exact AList.lookup_insert _
  · next h => exact AList.lookup_insert_ne h

@[simp] theorem call_put_self (s : State M) (i : ℕ) (c : Call M) :
    (s.put i c).call i = some c := by simp [call_put]

theorem call_put_of_ne (s : State M) {i j : ℕ} (c : Call M) (h : j ≠ i) :
    (s.put i c).call j = s.call j := by simp [call_put, h]

theorem mem_others {s : State M} {i : ℕ} {l : M.Loc} :
    l ∈ s.others i ↔ ∃ j c, j ≠ i ∧ s.call j = some c ∧ c.loc = l := by
  simp only [others, List.mem_map, List.mem_filter, decide_eq_true_eq, call]
  constructor
  · rintro ⟨⟨j, c⟩, ⟨hmem, hne⟩, rfl⟩
    exact ⟨j, c, hne, AList.mem_lookup_iff.mpr hmem, rfl⟩
  · rintro ⟨j, c, hne, hc, rfl⟩
    exact ⟨⟨j, c⟩, ⟨AList.mem_lookup_iff.mp hc, hne⟩, rfl⟩

end State

/-- One step of the machine. -/
def next (s : State M) : Act M → Option (State M)
  | .spawn i request =>
    match s.call i with
    | some _ => none
    | none => some (s.put i ⟨request, M.program request, M.start, []⟩)
  | .run i choice =>
    match s.call i with
    | some ⟨request, .call st k, loc, log⟩ =>
      match M.exec (s.others i) st choice s.env loc with
      | some (r, env, loc') =>
        some (({ s with env }).put i ⟨request, k r, loc', log ++ [Event.mk st s.env r]⟩)
      | none => none
    | _ => none
  | .tick t =>
    match M.tick t s.env with
    | some env => some { s with env }
    | none => none

/-- The steps `acts` lead from `s` to the last state. -/
inductive Steps (s : State M) : List (Act M) → State M → Prop where
  | nil : Steps s [] s
  | snoc {acts a t u} : Steps s acts t → next t a = some u → Steps s (acts ++ [a]) u

/-- The states the machine reaches from an environment `e` with no calls. -/
def Reachable (e : M.Env) (s : State M) : Prop := ∃ acts, Steps ⟨e, ∅⟩ acts s

/-- `runAll s acts`: the state after `acts`, when every one of them can be taken. -/
def runAll (s : State M) (acts : List (Act M)) : Option (State M) := acts.foldlM next s

/-! ## What a step does -/

/-- A step starts a call, runs one statement of a call, or moves the environment. -/
theorem next_cases {s t : State M} {a : Act M} (h : next s a = some t) :
    (∃ i request, a = .spawn i request ∧ s.call i = none ∧
      t = s.put i ⟨request, M.program request, M.start, []⟩) ∨
    (∃ i choice request st k loc log r env loc', a = .run i choice ∧
      s.call i = some ⟨request, .call st k, loc, log⟩ ∧
      M.exec (s.others i) st choice s.env loc = some (r, env, loc') ∧
      t = ({ s with env }).put i ⟨request, k r, loc', log ++ [Event.mk st s.env r]⟩) ∨
    (∃ m env, a = .tick m ∧ M.tick m s.env = some env ∧ t = { s with env }) := by
  cases a with
  | spawn i request =>
    simp only [next] at h
    split at h
    · cases h
    · next hc => exact .inl ⟨i, request, rfl, hc, (Option.some.inj h).symm⟩
  | run i choice =>
    simp only [next] at h
    split at h
    · next request st k loc log hc =>
      split at h
      · next r env loc' he =>
        exact .inr (.inl ⟨i, choice, request, st, k, loc, log, r, env, loc', rfl, hc, he,
          (Option.some.inj h).symm⟩)
      · cases h
    · cases h
  | tick m =>
    simp only [next] at h
    split at h
    · next env he => exact .inr (.inr ⟨m, env, rfl, he, (Option.some.inj h).symm⟩)
    · cases h

theorem next_run {s : State M} {i : ℕ} {q : M.Request} {st : M.S.Stmt}
    {k : M.S.Reply st → Program M.S M.Result} {l l' : M.Loc} {log : List (Event M.toWorld)}
    {choice : M.Choice} {r : M.S.Reply st} {env : M.Env}
    (hi : s.call i = some ⟨q, .call st k, l, log⟩)
    (hx : M.exec (s.others i) st choice s.env l = some (r, env, l')) :
    next s (.run i choice) =
      some (({ s with env }).put i ⟨q, k r, l', log ++ [Event.mk st s.env r]⟩) := by
  simp only [next, hi, hx]

theorem Steps.append {s t u : State M} {as bs : List (Act M)} (h₁ : Steps s as t)
    (h₂ : Steps t bs u) : Steps s (as ++ bs) u := by
  induction h₂ with
  | nil => simpa using h₁
  | snoc _ hn ih => simpa [List.append_assoc] using ih.snoc hn

theorem Steps.single {s t : State M} {a : Act M} (h : next s a = some t) : Steps s [a] t :=
  Steps.nil.snoc h

theorem Steps.of_append {s t : State M} {as bs : List (Act M)} (h : Steps s (as ++ bs) t) :
    ∃ u, Steps s as u ∧ Steps u bs t := by
  induction bs using List.reverseRecOn generalizing t with
  | nil => exact ⟨t, by simpa using h, .nil⟩
  | append_singleton bs b ih =>
    rw [← List.append_assoc] at h
    generalize hacts : as ++ bs ++ [b] = acts at h
    cases h with
    | nil => simp at hacts
    | snoc hs hn =>
      obtain ⟨rfl, hb⟩ := List.append_inj' hacts rfl
      cases hb
      obtain ⟨u, hu, hub⟩ := ih hs
      exact ⟨u, hu, hub.snoc hn⟩

theorem Steps.det {s t u : State M} {acts : List (Act M)} (h : Steps s acts t)
    (h' : Steps s acts u) : t = u := by
  induction h generalizing u with
  | nil =>
    generalize hacts : ([] : List (Act M)) = acts at h'
    cases h' with
    | nil => rfl
    | snoc => simp at hacts
  | @snoc acts a v w hs hn ih =>
    generalize hacts : acts ++ [a] = acts' at h'
    cases h' with
    | nil => simp at hacts
    | snoc hs' hn' =>
      obtain ⟨rfl, ha⟩ := List.append_inj' hacts rfl
      cases ha
      obtain rfl := ih hs'
      exact Option.some.inj (hn.symm.trans hn')

theorem steps_of_runAll {s t : State M} {acts : List (Act M)} (h : runAll s acts = some t) :
    Steps s acts t := by
  induction acts generalizing s with
  | nil => cases h; exact .nil
  | cons a acts ih =>
    simp only [runAll, List.foldlM_cons, Option.bind_eq_bind, Option.bind_eq_some_iff] at h
    obtain ⟨u, hu, h⟩ := h
    exact (Steps.single hu).append (ih h)

theorem reachable_of_runAll {e : M.Env} {t : State M} {acts : List (Act M)}
    (h : runAll ⟨e, ∅⟩ acts = some t) : Reachable e t := ⟨acts, steps_of_runAll h⟩

/-- A run that can be observed. -/
theorem steps_of_view {s : State M} {acts : List (Act M)} {β : Type} {view : State M → β} {b : β}
    (h : (runAll s acts).map view = some b) : ∃ t, Steps s acts t ∧ view t = b :=
  let ⟨t, ht, hb⟩ := Option.map_eq_some_iff.mp h
  ⟨t, steps_of_runAll ht, hb⟩

theorem Reachable.steps {e : M.Env} {s t : State M} {acts : List (Act M)} (h : Reachable e s)
    (hs : Steps s acts t) : Reachable e t :=
  let ⟨bs, hb⟩ := h
  ⟨bs ++ acts, hb.append hs⟩

theorem Reachable.next {e : M.Env} {s t : State M} {a : Act M} (h : Reachable e s)
    (hn : next s a = some t) : Reachable e t := h.steps (Steps.single hn)

/-- **The invariant rule.** What holds with no calls and is kept by every step holds in every
reachable state. -/
theorem Reachable.induct {e : M.Env} {P : State M → Prop} (init : P ⟨e, ∅⟩)
    (step : ∀ s t a, Reachable e s → P s → Concurrency.next s a = some t → P t) {s : State M}
    (h : Reachable e s) : P s := by
  obtain ⟨acts, h⟩ := h
  induction h with
  | nil => exact init
  | snoc hs hn ih => exact step _ _ _ ⟨_, hs⟩ ih hn

/-! ## The steps of a run -/

/-- In the run `acts` from `s`, step number `n` has the label `a` and leads from `u` to `v`. -/
structure TakenAt (s : State M) (acts : List (Act M)) (n : ℕ) (a : Act M) (u v : State M) :
    Prop where
  act : acts[n]? = some a
  before : Steps s (acts.take n) u
  step : Concurrency.next u a = some v

/-- `test` accepts every step of the run, with the state before it. -/
def stepsPass (test : State M → Act M → Bool) (s : State M) (acts : List (Act M)) : Bool :=
  (List.range acts.length).all fun n =>
    ((runAll s (acts.take n)).bind fun u => acts[n]?.map (test u)).getD false

section TakenAt

variable {s u v u' v' : State M} {acts : List (Act M)} {m n : ℕ} {a a' : Act M}

theorem TakenAt.snoc (h : TakenAt s acts n a u v) (b : Act M) :
    TakenAt s (acts ++ [b]) n a u v := by
  have hn := (List.getElem?_eq_some_iff.mp h.act).1
  exact ⟨by rw [List.getElem?_append_left hn, h.act],
    by rw [List.take_append_of_le_length (Nat.le_of_lt hn)]; exact h.before, h.step⟩

theorem TakenAt.last (h : Steps s acts u) (hn : Concurrency.next u a = some v) :
    TakenAt s (acts ++ [a]) acts.length a u v :=
  ⟨by simp, by simpa using h, hn⟩

theorem TakenAt.after (h : TakenAt s acts n a u v) : Steps s (acts.take (n + 1)) v := by
  rw [List.take_add_one, h.act]
  exact h.before.snoc h.step

/-- A step leads to the later ones. -/
theorem TakenAt.steps (h : TakenAt s acts n a u v) (h' : TakenAt s acts m a' u' v')
    (hnm : n < m) : ∃ bs, Steps v bs u' := by
  have hsplit : acts.take m = acts.take (n + 1) ++ (acts.take m).drop (n + 1) := by
    have h := (List.take_append_drop (n + 1) (acts.take m)).symm
    rwa [List.take_take, Nat.min_eq_left hnm] at h
  have hbefore := h'.before
  rw [hsplit] at hbefore
  obtain ⟨w, hw, hsteps⟩ := hbefore.of_append
  obtain rfl := hw.det h.after
  exact ⟨_, hsteps⟩

/-- A run has one step at each number. -/
theorem TakenAt.det (h : TakenAt s acts n a u v) (h' : TakenAt s acts n a' u' v') :
    a = a' ∧ u = u' ∧ v = v' := by
  obtain rfl : a = a' := Option.some.inj (h.act.symm.trans h'.act)
  obtain rfl := h.before.det h'.before
  exact ⟨rfl, rfl, Option.some.inj (h.step.symm.trans h'.step)⟩

/-- A test of all steps of a run is a test of each. -/
theorem TakenAt.passes {test : State M → Act M → Bool} (h : TakenAt s acts n a u v)
    (hpass : stepsPass test s acts = true) : test u a = true := by
  have hlt := (List.getElem?_eq_some_iff.mp h.act).1
  have hn := List.all_eq_true.mp hpass n (List.mem_range.mpr hlt)
  cases hrun : runAll s (acts.take n) with
  | none => simp [hrun] at hn
  | some u' =>
    obtain rfl := h.before.det (steps_of_runAll hrun)
    simpa [hrun, h.act] using hn

end TakenAt

/-- What a call keeps between its statements stays within what every statement preserves. -/
theorem Steps.loc {P : M.Loc → Prop}
    (hP : ∀ others st c e l r e' l', M.exec others st c e l = some (r, e', l') → P l → P l')
    {s t : State M} {acts : List (Act M)} (h : Steps s acts t) {i : ℕ} {c : Call M}
    (hc : s.call i = some c) (hl : P c.loc) :
    ∃ c', t.call i = some c' ∧ c'.request = c.request ∧ P c'.loc := by
  induction h with
  | nil => exact ⟨c, hc, rfl, hl⟩
  | @snoc acts a u v _ hn ih =>
    obtain ⟨c', hc', hq, hl'⟩ := ih
    obtain ⟨j, q, rfl, hj, rfl⟩ | ⟨j, choice, q, st, k, loc, log, r, env, loc', rfl, hj, he, rfl⟩ |
      ⟨m, env, rfl, -, rfl⟩ := next_cases hn
    · by_cases hij : i = j
      · rw [hij, hj] at hc'
        cases hc'
      · exact ⟨c', by rw [State.call_put_of_ne _ _ hij, hc'], hq, hl'⟩
    · by_cases hij : i = j
      · subst hij
        obtain rfl := Option.some.inj (hj.symm.trans hc')
        exact ⟨_, State.call_put_self _ _ _, hq, hP _ _ _ _ _ _ _ _ he hl'⟩
      · exact ⟨c', by rw [State.call_put_of_ne _ _ hij]; exact hc', hq, hl'⟩
    · exact ⟨c', hc', hq, hl'⟩

/-! ## Rely and guarantee -/

section Rely

variable {W : World} (Rely : W.Env → W.Env → Prop)

/-- The program, after the statements `log`, keeps its promises: whatever the other calls do to
the environment within `Rely`, each statement it issues is issued under `G`, and it ends under
`Q`. Both may speak of the statements the call has issued so far. -/
def Program.Meets {α : Type} (G : List (Event W) → W.S.Stmt → W.Env → W.Loc → Prop)
    (Q : List (Event W) → α → W.Env → W.Loc → Prop) :
    Program W.S α → List (Event W) → W.Env → W.Loc → Prop
  | .ret a, log, e, l => ∀ e', Rely e e' → Q log a e' l
  | .call s k, log, e, l => ∀ e', Rely e e' → G log s e' l ∧
      ∀ others c r e'' l', W.exec others s c e' l = some (r, e'', l') →
        Program.Meets G Q (k r) (log ++ [Event.mk s e' r]) e'' l'

variable {Rely} {α β : Type} {G : List (Event W) → W.S.Stmt → W.Env → W.Loc → Prop}
  {Q : List (Event W) → α → W.Env → W.Loc → Prop}

theorem Program.Meets.rely (htrans : ∀ a b c, Rely a b → Rely b c → Rely a c)
    {p : Program W.S α} {log : List (Event W)} {e e' : W.Env} {l : W.Loc}
    (h : p.Meets Rely G Q log e l) (hr : Rely e e') : p.Meets Rely G Q log e' l := by
  cases p with
  | ret a => exact fun e'' hr' => h e'' (htrans _ _ _ hr hr')
  | call s k => exact fun e'' hr' => h e'' (htrans _ _ _ hr hr')

/-- A program with a stronger specification has the weaker one. -/
theorem Program.Meets.mono {G' : List (Event W) → W.S.Stmt → W.Env → W.Loc → Prop}
    {Q' : List (Event W) → α → W.Env → W.Loc → Prop} {p : Program W.S α}
    {log : List (Event W)} {e : W.Env} {l : W.Loc} (h : p.Meets Rely G Q log e l)
    (hG : ∀ log s e l, G log s e l → G' log s e l)
    (hQ : ∀ log a e l, Q log a e l → Q' log a e l) : p.Meets Rely G' Q' log e l := by
  induction p generalizing log e l with
  | ret a => exact fun e' hr => hQ _ _ _ _ (h e' hr)
  | call s k ih =>
    intro e' hr
    obtain ⟨hs, hk⟩ := h e' hr
    exact ⟨hG _ _ _ _ hs, fun others c r e'' l' he => ih r (hk others c r e'' l' he)⟩

theorem Program.Meets.of_rely (hrefl : ∀ a b, Rely a b → Rely b b) {p : Program W.S α}
    {log : List (Event W)} {e : W.Env} {l : W.Loc}
    (h : ∀ e', Rely e e' → p.Meets Rely G Q log e' l) : p.Meets Rely G Q log e l := by
  cases p with
  | ret a => exact fun e' hr => h e' hr e' (hrefl _ _ hr)
  | call s k => exact fun e' hr => h e' hr e' (hrefl _ _ hr)

/-- Sequencing: the second program starts where the first one ends. -/
theorem Program.Meets.bind (hrefl : ∀ a b, Rely a b → Rely b b)
    {Q' : List (Event W) → β → W.Env → W.Loc → Prop} {p : Program W.S α}
    {f : α → Program W.S β} {log : List (Event W)} {e : W.Env} {l : W.Loc}
    (h : p.Meets Rely G (fun log a e l => (f a).Meets Rely G Q' log e l) log e l) :
    (p >>= f).Meets Rely G Q' log e l := by
  induction p generalizing log e l with
  | ret a => exact .of_rely hrefl h
  | call s k ih =>
    intro e' hr
    obtain ⟨hs, hk⟩ := h e' hr
    exact ⟨hs, fun others c r e'' l' he => ih r (hk others c r e'' l' he)⟩

/-- **Rely-guarantee soundness.** Suppose every move of the environment stays within the rely,
and so does every statement that is issued under its request's guarantee. If every request's
program meets its specification from the start, then in every reachable state what is left of
every call meets the specification of its request. -/
theorem Reachable.meets {Rely : M.Env → M.Env → Prop} {e₀ : M.Env} (hinit : Rely e₀ e₀)
    (hrefl : ∀ a b, Rely a b → Rely b b) (htrans : ∀ a b c, Rely a b → Rely b c → Rely a c)
    {G : M.Request → List (Event M.toWorld) → M.S.Stmt → M.Env → M.Loc → Prop}
    {Q : M.Request → List (Event M.toWorld) → M.Result → M.Env → M.Loc → Prop}
    (hexec : ∀ s i q st k loc log c r env loc', Reachable e₀ s →
      s.call i = some ⟨q, .call st k, loc, log⟩ → Rely s.env s.env → G q log st s.env loc →
      M.exec (s.others i) st c s.env loc = some (r, env, loc') → Rely s.env env)
    (htick : ∀ t e e', Rely e e → M.tick t e = some e' → Rely e e')
    (hstart : ∀ q e, Rely e e → (M.program q).Meets Rely (G q) (Q q) [] e M.start)
    {s : State M} (h : Reachable e₀ s) :
    Rely s.env s.env ∧ ∀ i c, s.call i = some c →
      c.rest.Meets Rely (G c.request) (Q c.request) c.log s.env c.loc := by
  refine h.induct (P := fun s => Rely s.env s.env ∧ ∀ i c, s.call i = some c →
    c.rest.Meets Rely (G c.request) (Q c.request) c.log s.env c.loc) ⟨hinit, ?_⟩ ?_
  · intro i c hc
    cases hc
  rintro s t a hreach ⟨hself, ih⟩ hn
  obtain ⟨i, q, rfl, -, rfl⟩ | ⟨i, choice, q, st, k, loc, log, r, env, loc', rfl, hi, he, rfl⟩ |
    ⟨m, env, rfl, hm, rfl⟩ := next_cases hn
  · refine ⟨hself, fun j c hj => ?_⟩
    rw [State.call_put] at hj
    split at hj
    · cases hj
      exact hstart q _ hself
    · exact ih j c hj
  · obtain ⟨hG, hk⟩ := ih i _ hi s.env hself
    have hrely : Rely s.env env := hexec _ _ _ _ _ _ _ _ _ _ _ hreach hi hself hG he
    refine ⟨hrefl _ _ hrely, fun j c hj => ?_⟩
    rw [State.call_put] at hj
    split at hj
    · cases hj
      exact hk _ _ _ _ _ he
    · exact (ih j c hj).rely htrans hrely
  · have hrely : Rely s.env env := htick _ _ _ hself hm
    exact ⟨hrefl _ _ hrely, fun j c hj => (ih j c hj).rely htrans hrely⟩

end Rely

/-! ## Taking a call out of a run -/

section Erase

/-- `t` is `s` without call `i`. -/
structure State.Erased (i : ℕ) (s t : State M) : Prop where
  env : t.env = s.env
  gone : t.call i = none
  same : ∀ j, j ≠ i → t.call j = s.call j

/-- The label is about call `i`. -/
def Act.isOf (i : ℕ) : Act M → Bool
  | .spawn j _ => j = i
  | .run j _ => j = i
  | .tick _ => false

/-- Along the run, the statements of call `i` leave the environment as it is. -/
def Quiet (i : ℕ) (s : State M) (acts : List (Act M)) : Prop :=
  ∀ n choice u v, TakenAt s acts n (.run i choice) u v → v.env = u.env

theorem Quiet.of_snoc {i : ℕ} {s : State M} {acts : List (Act M)} {a : Act M}
    (h : Quiet i s (acts ++ [a])) : Quiet i s acts :=
  fun n choice u v ht => h n choice u v (ht.snoc a)

theorem State.Erased.others {i j : ℕ} {s t : State M} (h : s.Erased i t) :
    t.others j ⊆ s.others j := by
  intro l hl
  obtain ⟨k, c, hk, hc, rfl⟩ := State.mem_others.mp hl
  by_cases hki : k = i
  · subst hki
    rw [h.gone] at hc
    cases hc
  · exact State.mem_others.mpr ⟨k, c, hk, (h.same k hki) ▸ hc, rfl⟩

theorem State.Erased.put {i j : ℕ} {s t : State M} (h : s.Erased i t) (hj : j ≠ i) (c : Call M) :
    (s.put j c).Erased i (t.put j c) where
  env := h.env
  gone := by rw [State.call_put_of_ne _ _ hj.symm, h.gone]
  same k hk := by rw [State.call_put, State.call_put, h.same k hk]

theorem State.Erased.put_self {i : ℕ} {s t : State M} (h : s.Erased i t) (c : Call M) :
    (s.put i c).Erased i t where
  env := h.env
  gone := h.gone
  same k hk := by rw [State.call_put_of_ne _ _ hk, h.same k hk]

/-- A step of another call, or of the environment, can be taken without call `i`. -/
theorem State.Erased.next
    (hmono : ∀ others others' st c e l x, others' ⊆ others → M.exec others st c e l = some x →
      M.exec others' st c e l = some x)
    {i : ℕ} {s s' t : State M} {a : Act M} (h : s.Erased i s') (ha : a.isOf i = false)
    (hn : Concurrency.next s a = some t) :
    ∃ t', Concurrency.next s' a = some t' ∧ t.Erased i t' := by
  obtain ⟨j, q, rfl, hj, rfl⟩ | ⟨j, choice, q, st, k, loc, log, r, env, loc', rfl, hj, he, rfl⟩ |
    ⟨m, env, rfl, hm, rfl⟩ := next_cases hn
  · have hne : j ≠ i := by simpa [Act.isOf] using ha
    refine ⟨s'.put j ⟨q, M.program q, M.start, []⟩, ?_, h.put hne _⟩
    simp [Concurrency.next, h.same j hne, hj]
  · have hne : j ≠ i := by simpa [Act.isOf] using ha
    have he' := hmono _ _ _ _ _ _ _ (h.others (j := j)) he
    refine ⟨({ s' with env }).put j ⟨q, k r, loc', log ++ [Event.mk st s.env r]⟩, ?_, ?_⟩
    · simp [Concurrency.next, h.same j hne, hj, h.env, he']
    · exact State.Erased.put (s := { s with env }) (t := { s' with env })
        ⟨rfl, h.gone, h.same⟩ hne _
  · refine ⟨{ s' with env }, ?_, ⟨rfl, h.gone, h.same⟩⟩
    simp [Concurrency.next, h.env, hm]

/-- **A call that never touches the environment might as well not have been made.** Taking out
its steps leaves a run, with the same environment and the same other calls throughout. -/
theorem Steps.erase
    (hmono : ∀ others others' st c e l x, others' ⊆ others → M.exec others st c e l = some x →
      M.exec others' st c e l = some x)
    {i : ℕ} {s s' t : State M} {acts : List (Act M)} (hs : Steps s acts t) (he : s.Erased i s')
    (hq : Quiet i s acts) :
    ∃ t', Steps s' (acts.filter fun a => !a.isOf i) t' ∧ t.Erased i t' := by
  induction hs with
  | nil => exact ⟨s', .nil, he⟩
  | @snoc acts a u v hs hn ih =>
    obtain ⟨u', hu', heu⟩ := ih hq.of_snoc
    by_cases ha : a.isOf i
    · refine ⟨u', by simpa [List.filter_append, ha] using hu', ?_⟩
      obtain ⟨j, q, rfl, -, rfl⟩ | ⟨j, choice, q, st, k, loc, log, r, env, loc', rfl, -, -, rfl⟩ |
        ⟨m, env, rfl, -, -⟩ := next_cases hn
      · obtain rfl : j = i := by simpa [Act.isOf] using ha
        exact heu.put_self _
      · obtain rfl : j = i := by simpa [Act.isOf] using ha
        have henv : env = u.env := hq _ choice u _ (.last hs hn)
        exact State.Erased.put_self (s := { u with env })
          ⟨heu.env.trans henv.symm, heu.gone, heu.same⟩ _
      · simp [Act.isOf] at ha
    · rw [Bool.not_eq_true] at ha
      obtain ⟨v', hv', hev⟩ := heu.next hmono ha hn
      exact ⟨v', by simpa [List.filter_append, ha] using hu'.snoc hv', hev⟩

end Erase

end Concurrency
