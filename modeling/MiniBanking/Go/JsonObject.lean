import MiniBanking.Go.Json
import Mathlib.Data.List.Pairwise
import Mathlib.Data.List.Perm.Basic
import Mathlib.Order.Basic

/-!
# Maps in the order of their names

A `map[string]T` is kept as the list of its entries in the order of the names, each name once. It is
determined by what it has under each name, so that the order in which entries come to it counts only
where they have the same name.

## Main definitions

* `InOrder`: the names stand in their order, each once
* `Json.ofMembers`: the map of some members

## Main results

* `InOrder.ext`: a map is determined by its lookups
* `lookup_ofMembers`: the last member with a name counts
* `ofMembers_perm`: members with different names may come in any order
-/

namespace Go

namespace Json

variable {α : Type} {name name' : String} {v v' : α} {m m' ms ms' : List (String × α)}

/-- The names stand in their order, each once. -/
abbrev InOrder (m : List (String × α)) : Prop :=
  m.Pairwise fun e e' => e.1.toList < e'.1.toList

theorem InOrder.nodup (h : InOrder m) : (m.map Prod.fst).Nodup := by
  rw [List.Nodup, List.pairwise_map]
  refine h.imp fun hlt heq => ?_
  rw [heq] at hlt
  exact lt_irrefl _ hlt

/-! ## Lookups -/

theorem lookup_cons_of_ne (h : name' ≠ name) : ((name, v) :: m).lookup name' = m.lookup name' := by
  rw [List.lookup_cons, beq_false_of_ne h]

/-- Where every name occurs once, an entry is what is found under its name. -/
theorem lookup_eq_some_iff_mem (h : (m.map Prod.fst).Nodup) :
    m.lookup name = some v ↔ (name, v) ∈ m := by
  induction m with
  | nil => simp
  | cons e m ih =>
    obtain ⟨name', v'⟩ := e
    obtain ⟨hnew, hrest⟩ := List.nodup_cons.mp h
    by_cases hname : name = name'
    · subst hname
      rw [List.lookup_cons_self]
      constructor
      · intro heq
        cases heq
        exact List.mem_cons_self
      · intro hmem
        rcases List.mem_cons.mp hmem with heq | hmem
        · cases heq
          rfl
        · exact absurd (List.mem_map_of_mem hmem) hnew
    · rw [lookup_cons_of_ne hname, ih hrest, List.mem_cons, or_iff_right]
      intro heq
      exact hname (congrArg Prod.fst heq)

/-- What is found does not depend on the order of entries with different names. -/
theorem lookup_perm (hperm : m.Perm m') (h : (m.map Prod.fst).Nodup) :
    m.lookup name = m'.lookup name := by
  refine Option.ext fun v => ?_
  have h' : (m'.map Prod.fst).Nodup := ((hperm.map Prod.fst).nodup_iff).mp h
  rw [lookup_eq_some_iff_mem h, lookup_eq_some_iff_mem h', hperm.mem_iff]

/-- Before the first name there is nothing. -/
theorem InOrder.lookup_of_lt (h : InOrder ((name, v) :: m)) (hlt : name'.toList < name.toList) :
    ((name, v) :: m).lookup name' = none := by
  rw [List.lookup_eq_none_iff]
  intro e he
  rw [bne_iff_ne]
  rintro rfl
  rcases List.mem_cons.mp he with rfl | he
  · exact lt_irrefl _ hlt
  · exact lt_asymm hlt ((List.pairwise_cons.mp h).1 e he)

theorem toList_lt_or (h : name ≠ name') :
    name.toList < name'.toList ∨ name'.toList < name.toList :=
  lt_or_gt_of_ne fun heq => h (String.toList_injective heq)

/-- **A map is determined by its lookups.** -/
theorem InOrder.ext (h : InOrder m) (h' : InOrder m')
    (heq : ∀ name, m.lookup name = m'.lookup name) : m = m' := by
  induction m generalizing m' with
  | nil =>
    cases m' with
    | nil => rfl
    | cons e m' =>
      have hfirst := heq e.1
      rw [List.lookup_cons_self] at hfirst
      cases hfirst
  | cons e m ih =>
    obtain ⟨name, v⟩ := e
    cases m' with
    | nil =>
      have hfirst := heq name
      rw [List.lookup_cons_self] at hfirst
      cases hfirst
    | cons e' m' =>
      obtain ⟨name', v'⟩ := e'
      -- the first names are the same: the smaller one is not in the other map
      obtain rfl : name = name' := by
        by_contra hne
        rcases toList_lt_or hne with hlt | hlt
        · have hfirst := heq name
          rw [List.lookup_cons_self, h'.lookup_of_lt hlt] at hfirst
          cases hfirst
        · have hfirst := heq name'
          rw [List.lookup_cons_self, h.lookup_of_lt hlt] at hfirst
          cases hfirst
      obtain rfl : v = v' := by
        have hfirst := heq name
        rw [List.lookup_cons_self, List.lookup_cons_self] at hfirst
        exact Option.some.inj hfirst
      have hrest := List.pairwise_cons.mp h
      have hrest' := List.pairwise_cons.mp h'
      rw [ih hrest.2 hrest'.2 fun key => ?_]
      by_cases hkey : key = name
      · subst hkey
        have hnone : ∀ {l : List (String × α)}, (∀ e ∈ l, key.toList < e.1.toList) →
            l.lookup key = none := by
          intro l hl
          rw [List.lookup_eq_none_iff]
          intro e he
          rw [bne_iff_ne]
          rintro rfl
          exact lt_irrefl _ (hl e he)
        rw [hnone hrest.1, hnone hrest'.1]
      · have hkeys := heq key
        rwa [lookup_cons_of_ne hkey, lookup_cons_of_ne hkey] at hkeys

/-! ## Assignments -/

theorem lookup_insertMember (m : List (String × α)) :
    (insertMember name v m).lookup name' = if name' = name then some v else m.lookup name' := by
  induction m with
  | nil =>
    by_cases h : name' = name
    · simp [insertMember, h]
    · simp [insertMember, h]
  | cons e m ih =>
    obtain ⟨first, w⟩ := e
    rw [insertMember]
    by_cases h : name' = name
    · subst h
      rw [if_pos rfl]
      split
      · rw [List.lookup_cons_self]
      · next hne =>
        split
        · rw [List.lookup_cons_self]
        · rw [lookup_cons_of_ne hne, ih, if_pos rfl]
    · rw [if_neg h]
      split
      · next heq =>
        subst heq
        rw [lookup_cons_of_ne h, lookup_cons_of_ne h]
      · split
        · rw [lookup_cons_of_ne h]
        · by_cases hfirst : name' = first
          · subst hfirst
            rw [List.lookup_cons_self, List.lookup_cons_self]
          · rw [lookup_cons_of_ne hfirst, lookup_cons_of_ne hfirst, ih, if_neg h]

theorem mem_insertMember {e : String × α} (h : e ∈ insertMember name v m) :
    e = (name, v) ∨ e ∈ m := by
  induction m with
  | nil => exact .inl (List.mem_singleton.mp h)
  | cons e' m ih =>
    obtain ⟨first, w⟩ := e'
    rw [insertMember] at h
    split at h
    · exact (List.mem_cons.mp h).imp_right (List.mem_cons_of_mem _)
    · split at h
      · exact List.mem_cons.mp h
      · rcases List.mem_cons.mp h with rfl | h
        · exact .inr List.mem_cons_self
        · exact (ih h).imp_right (List.mem_cons_of_mem _)

/-- An assignment keeps the order. -/
theorem InOrder.insertMember (h : InOrder m) (name : String) (v : α) :
    InOrder (insertMember name v m) := by
  induction m with
  | nil => exact List.pairwise_singleton _ _
  | cons e m ih =>
    obtain ⟨first, w⟩ := e
    obtain ⟨hfirst, hrest⟩ := List.pairwise_cons.mp h
    rw [Json.insertMember]
    split
    · next heq =>
      subst heq
      exact List.pairwise_cons.mpr ⟨hfirst, hrest⟩
    · next hne =>
      split
      · next hlt =>
        refine List.pairwise_cons.mpr ⟨fun e he => ?_, h⟩
        rcases List.mem_cons.mp he with rfl | he
        · exact hlt
        · exact hlt.trans (hfirst e he)
      · next hnlt =>
        refine List.pairwise_cons.mpr ⟨fun e he => ?_, ih hrest⟩
        rcases mem_insertMember he with rfl | he
        · exact (toList_lt_or hne).resolve_left hnlt
        · exact hfirst e he

/-! ## Maps of members -/

/-- The map that some members are put into, one after the other. -/
def ofMembers (ms : List (String × α)) : List (String × α) :=
  ms.foldl (fun m (name, v) => insertMember name v m) []

theorem ofMembers_concat (ms : List (String × α)) (name : String) (v : α) :
    ofMembers (ms ++ [(name, v)]) = insertMember name v (ofMembers ms) := by
  simp [ofMembers]

theorem inOrder_ofMembers (ms : List (String × α)) : InOrder (ofMembers ms) := by
  induction ms using List.reverseRecOn with
  | nil => exact List.Pairwise.nil
  | append_singleton ms e ih =>
    rw [ofMembers_concat]
    exact ih.insertMember _ _

/-- **The last member with a name counts.** -/
theorem lookup_ofMembers (ms : List (String × α)) (name : String) :
    (ofMembers ms).lookup name = ms.reverse.lookup name := by
  induction ms using List.reverseRecOn with
  | nil => rfl
  | append_singleton ms e ih =>
    obtain ⟨last, v⟩ := e
    rw [ofMembers_concat, lookup_insertMember, List.reverse_append, List.reverse_singleton,
      List.singleton_append]
    by_cases h : name = last
    · subst h
      rw [if_pos rfl, List.lookup_cons_self]
    · rw [if_neg h, ih, lookup_cons_of_ne h]

theorem lookup_ofMembers_of_nodup (h : (ms.map Prod.fst).Nodup) :
    (ofMembers ms).lookup name = ms.lookup name := by
  rw [lookup_ofMembers, lookup_perm (List.reverse_perm ms)]
  rwa [((List.reverse_perm ms).map Prod.fst).nodup_iff]

/-- **Members with different names may come in any order.** -/
theorem ofMembers_perm (hperm : ms.Perm ms') (h : (ms.map Prod.fst).Nodup) :
    ofMembers ms = ofMembers ms' := by
  refine (inOrder_ofMembers ms).ext (inOrder_ofMembers ms') fun name => ?_
  have h' : (ms'.map Prod.fst).Nodup := ((hperm.map Prod.fst).nodup_iff).mp h
  rw [lookup_ofMembers_of_nodup h, lookup_ofMembers_of_nodup h', lookup_perm hperm h]

/-- A map is the map of its entries. -/
theorem ofMembers_of_inOrder (h : InOrder m) : ofMembers m = m :=
  (inOrder_ofMembers m).ext h fun _ => lookup_ofMembers_of_nodup h.nodup

end Json

end Go
