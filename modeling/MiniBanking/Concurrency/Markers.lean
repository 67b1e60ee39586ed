import MiniBanking.Concurrency.Log

/-!
# Stores of expiring keys

Calls that must happen once mark a key in a store that all of them share, and go on only if the
key was not there. Keys expire, so two calls mark one key only if the later one comes after the
expiry that the earlier one has set.

## Main definitions

* `Markers`: a store of expiring keys in the environment of a world, and the statements that mark

## Main results

* `Markers.kept`: a store keeps every marking
* `Markers.apart`: of two markings of one key, one comes after the expiry of the other
-/

namespace Concurrency

/-- A store of expiring keys in the environment of a world. An event may mark a key for a time to
live: the store has no such key that has not expired, and has it afterwards. -/
structure Markers (W : World) where
  /-- The keys. -/
  Key : Type
  /-- The keys in the store, with the times they expire. -/
  entries : W.Env → List (Key × ℤ)
  clock : W.Env → ℤ
  marks : Event W → Key → ℤ → Prop
  grows : ∀ {others st c e l r e' l'}, W.exec others st c e l = some (r, e', l') →
    entries e ⊆ entries e'
  absent : ∀ {others st c e l r e' l' key ttl}, W.exec others st c e l = some (r, e', l') →
    marks ⟨st, e, r⟩ key ttl → ∀ expires, (key, expires) ∈ entries e → expires ≤ clock e
  present : ∀ {others st c e l r e' l' key ttl}, W.exec others st c e l = some (r, e', l') →
    marks ⟨st, e, r⟩ key ttl → (key, clock e + ttl) ∈ entries e'

namespace Markers

variable {M : Machine} (K : Markers M.toWorld) {e₀ : M.Env}

theorem entries_next (htick : ∀ m e e', M.tick m e = some e' → K.entries e ⊆ K.entries e')
    {s t : State M} {a : Act M} (hn : next s a = some t) : K.entries s.env ⊆ K.entries t.env := by
  obtain ⟨j, q, rfl, -, rfl⟩ | ⟨j, choice, q, st, k, loc, log, r, env, loc', rfl, -, he, rfl⟩ |
    ⟨m, env, rfl, hm, rfl⟩ := next_cases hn
  · exact List.Subset.refl _
  · exact K.grows he
  · exact htick m _ _ hm

/-- A marking is an old one, or this step finds the key absent and leaves it in the store. -/
theorem marks_next {s t : State M} {a : Act M} (hn : next s a = some t) {i : ℕ}
    {ev : Event M.toWorld} {key : K.Key} {ttl : ℤ} (h : t.Issued i ev) (hm : K.marks ev key ttl) :
    s.Issued i ev ∨ ∃ choice, a = .run i choice ∧
      (∀ expires, (key, expires) ∈ K.entries s.env → expires ≤ K.clock ev.env) ∧
      (key, K.clock ev.env + ttl) ∈ K.entries t.env := by
  obtain h | ⟨choice, loc, loc', ha, henv, hx⟩ := Issued.of_next hn h
  · exact .inl h
  · rw [← henv] at hx
    refine .inr ⟨choice, ha, ?_, K.present hx hm⟩
    rw [← henv]
    exact K.absent hx hm

/-- **A store keeps every marking**, in every reachable state. -/
theorem kept (htick : ∀ m e e', M.tick m e = some e' → K.entries e ⊆ K.entries e') {s : State M}
    (hs : Reachable e₀ s) {i : ℕ} {ev : Event M.toWorld} {key : K.Key} {ttl : ℤ}
    (h : s.Issued i ev) (hm : K.marks ev key ttl) :
    (key, K.clock ev.env + ttl) ∈ K.entries s.env := by
  refine hs.induct (P := fun s => s.Issued i ev →
    (key, K.clock ev.env + ttl) ∈ K.entries s.env) ?_ ?_ h
  · rintro ⟨c, hc, -⟩
    cases hc
  intro s t a _ ih hn h
  obtain h | ⟨-, -, -, hmem⟩ := K.marks_next hn h hm
  · exact K.entries_next htick hn (ih h)
  · exact hmem

/-- **Markings of one key are apart**: of two calls that mark it, one comes after the expiry that
the other has set. -/
theorem apart (htick : ∀ m e e', M.tick m e = some e' → K.entries e ⊆ K.entries e') {s : State M}
    (hs : Reachable e₀ s) {i j : ℕ} (hij : i ≠ j) {ev ev' : Event M.toWorld} {key : K.Key}
    {ttl ttl' : ℤ} (h : s.Issued i ev) (hm : K.marks ev key ttl) (h' : s.Issued j ev')
    (hm' : K.marks ev' key ttl') :
    K.clock ev.env + ttl ≤ K.clock ev'.env ∨ K.clock ev'.env + ttl' ≤ K.clock ev.env := by
  refine hs.induct (P := fun s => s.Issued i ev → s.Issued j ev' →
    K.clock ev.env + ttl ≤ K.clock ev'.env ∨ K.clock ev'.env + ttl' ≤ K.clock ev.env) ?_ ?_ h h'
  · rintro ⟨c, hc, -⟩
    cases hc
  intro s t a hs ih hn h h'
  -- a step acts for one call, so at most one of the markings is new
  obtain h | ⟨choice, ha, hnew, -⟩ := K.marks_next hn h hm <;>
    obtain h' | ⟨choice', ha', hnew', -⟩ := K.marks_next hn h' hm'
  · exact ih h h'
  · exact .inl (hnew' _ (K.kept htick hs h hm))
  · exact .inr (hnew _ (K.kept htick hs h' hm'))
  · exact absurd (Act.run.inj (ha.symm.trans ha')).1 hij

end Markers

end Concurrency
