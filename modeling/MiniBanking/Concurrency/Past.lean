import MiniBanking.Concurrency.Trace

/-!
# Earlier states of a run

A statement was executed in the environment of an earlier state of the run, and what holds of that
state is known of the present one as far as runs keep it.

## Main definitions

* `Leads`: a run leads from a state to another one

## Main results

* `Leads.call`: a run keeps every call and extends its list of statements
* `Reachable.issued_from`: every statement of every call was executed in the environment of a
  reachable state, from which a run leads to the present one
* `Leads.issued_since`: a call that is started later finds only later environments
-/

namespace Concurrency

variable {M : Machine} {e₀ : M.Env}

/-- A run leads from `s` to `t`. -/
def Leads (s t : State M) : Prop := ∃ acts, Steps s acts t

theorem Leads.refl (s : State M) : Leads s s := ⟨[], .nil⟩

theorem Leads.next {s t u : State M} {a : Act M} (h : Leads s t)
    (hn : Concurrency.next t a = some u) : Leads s u :=
  let ⟨acts, hs⟩ := h
  ⟨acts ++ [a], hs.snoc hn⟩

/-- A run keeps every call, with its request, and at most extends its list of statements. -/
theorem Leads.call {s t : State M} (h : Leads s t) {i : ℕ} {c : Call M} (hc : s.call i = some c) :
    ∃ c', t.call i = some c' ∧ c'.request = c.request ∧ c.log <+: c'.log := by
  obtain ⟨acts, hs⟩ := h
  induction hs with
  | nil => exact ⟨c, hc, rfl, List.prefix_rfl⟩
  | snoc _ hn ih =>
    obtain ⟨c', hc', hq', hlog'⟩ := ih
    obtain ⟨c'', hc'', hq'', hlog''⟩ := State.call_next hn hc'
    exact ⟨c'', hc'', hq''.trans hq', hlog'.trans hlog''⟩

/-- What was issued stays issued. -/
theorem Leads.issued {s t : State M} (h : Leads s t) {i : ℕ} {ev : Event M.toWorld}
    (hev : s.Issued i ev) : t.Issued i ev := by
  obtain ⟨c, hc, hmem⟩ := hev
  obtain ⟨c', hc', -, hlog⟩ := h.call hc
  exact ⟨c', hc', hlog.subset hmem⟩

/-- **Every statement was executed in a state of the run.** -/
theorem Reachable.issued_from {s : State M} (h : Reachable e₀ s) {i : ℕ} {ev : Event M.toWorld}
    (hev : s.Issued i ev) : ∃ u, Reachable e₀ u ∧ Leads u s ∧ u.env = ev.env := by
  refine h.induct (P := fun s => s.Issued i ev →
    ∃ u, Reachable e₀ u ∧ Leads u s ∧ u.env = ev.env) ?_ ?_ hev
  · rintro ⟨c, hc, -⟩
    cases hc
  intro s t a hreach ih hn hev
  obtain hev | ⟨choice, loc, loc', -, henv, -⟩ := Issued.of_next hn hev
  · obtain ⟨u, hu, hleads, henv⟩ := ih hev
    exact ⟨u, hu, hleads.next hn, henv⟩
  · exact ⟨s, hreach, (Leads.refl s).next hn, henv.symm⟩

/-- **A call that is started later** finds only later environments. -/
theorem Leads.issued_since {s t : State M} (h : Leads s t) {i : ℕ} (hnew : s.call i = none)
    {ev : Event M.toWorld} (hev : t.Issued i ev) : ∃ u, Leads s u ∧ u.env = ev.env := by
  obtain ⟨acts, hs⟩ := h
  induction hs with
  | nil =>
    obtain ⟨c, hc, -⟩ := hev
    rw [hnew] at hc
    cases hc
  | @snoc acts a t u hs hn ih =>
    obtain hev | ⟨choice, loc, loc', -, henv, -⟩ := Issued.of_next hn hev
    · exact ih hev
    · exact ⟨t, ⟨acts, hs⟩, henv.symm⟩

end Concurrency
