import MiniBanking.Go.Json
import Mathlib.Data.Finmap
import Mathlib.Data.Finset.Sort
import Mathlib.Data.String.Basic

/-!
# Maps in JSON

A `map[string]T` is written as an object with a member for each key, in the order of the keys, and
read back member by member.

## Main definitions

* `Map`: a map with string keys
* `Map.toList`: its entries in the order of the keys
* `Json.ofMap`, `Json.intoMap`: a map into JSON and from it
* `Json.intoBool`: a value into a field of type `bool`

## Main results

* `intoMap_ofMap`: a map is read back from its JSON
-/

namespace Go

/-- A `map[string]T`. -/
abbrev Map (α : Type) : Type := Finmap fun _ : String => α

namespace Map

variable {α : Type}

/-- The entries of a map, in the order of its keys. -/
def toList (m : Map α) : List (String × α) :=
  (m.keys.sort (· ≤ ·)).filterMap fun name => (m.lookup name).map fun a => (name, a)

theorem mem_toList {m : Map α} {name : String} {a : α} :
    (name, a) ∈ m.toList ↔ m.lookup name = some a := by
  simp only [toList, List.mem_filterMap, Finset.mem_sort, Finmap.mem_keys, Option.map_eq_some_iff,
    Prod.mk.injEq]
  constructor
  · rintro ⟨_, -, _, h, rfl, rfl⟩
    exact h
  · intro h
    exact ⟨name, Finmap.mem_of_lookup_eq_some h, a, h, rfl, rfl⟩

/-- Every key has one entry. -/
theorem nodup_toList (m : Map α) : (m.toList.map Prod.fst).Nodup := by
  have hkeys : m.toList.map Prod.fst = m.keys.sort (· ≤ ·) := by
    rw [toList, List.map_filterMap]
    have hid : ∀ name ∈ m.keys.sort (· ≤ ·),
        ((m.lookup name).map fun a => (name, a)).map Prod.fst = some name := by
      intro name hname
      rw [Finset.mem_sort, Finmap.mem_keys] at hname
      obtain ⟨a, ha⟩ := Finmap.mem_iff.mp hname
      rw [ha]
      rfl
    rw [List.filterMap_congr hid, List.filterMap_some]
  rw [hkeys]
  exact Finset.sort_nodup _ _

/-- A map has an entry with a property. -/
theorem any_toList {m : Map α} {p : String × α → Bool} :
    m.toList.any p = true ↔ ∃ name a, m.lookup name = some a ∧ p (name, a) = true := by
  rw [List.any_eq_true]
  constructor
  · rintro ⟨⟨name, a⟩, hmem, hp⟩
    exact ⟨name, a, mem_toList.mp hmem, hp⟩
  · rintro ⟨name, a, h, hp⟩
    exact ⟨(name, a), mem_toList.mpr h, hp⟩

end Map

namespace Json

variable {α : Type}

/-- A value into a field of type `bool`. -/
def intoBool (v : Json) (old : Bool) : Option Bool :=
  match v with
  | null => some old
  | bool b => some b
  | _ => none

/-- The JSON of a map, in the order of its keys. -/
def ofMap (value : α → Json) (m : Map α) : Json :=
  object (m.toList.map fun (name, a) => (name, value a))

/-- Members into a map, each from the zero value. -/
def intoEntries (into : Json → α → Option α) (zero : α) : List (String × Json) → Map α →
    Option (Map α)
  | [], m => some m
  | (name, v) :: ms, m => do intoEntries into zero ms (m.insert name (← into v zero))

/-- A value into a field of type `map[string]T`, over the entries it had. -/
def intoMap (into : Json → α → Option α) (zero : α) (v : Json) (old : Map α) : Option (Map α) :=
  match v with
  | null => some ∅
  | object ms => intoEntries into zero ms old
  | _ => none

section RoundTrip

variable {value : α → Json} {into : Json → α → Option α} {zero : α}

/-- Entries with different keys are read back over those of a map. -/
theorem intoEntries_map {entries : List (String × α)}
    (hread : ∀ e ∈ entries, into (value e.2) zero = some e.2)
    (hkeys : (entries.map Prod.fst).Nodup) (old : Map α) :
    ∃ m, intoEntries into zero (entries.map fun (name, a) => (name, value a)) old = some m ∧
      (∀ e ∈ entries, m.lookup e.1 = some e.2) ∧
      ∀ name, name ∉ entries.map Prod.fst → m.lookup name = old.lookup name := by
  induction entries generalizing old with
  | nil => exact ⟨old, rfl, by simp, fun name _ => rfl⟩
  | cons entry entries ih =>
    obtain ⟨name, a⟩ := entry
    rw [List.map_cons, List.nodup_cons] at hkeys
    obtain ⟨hname, hkeys'⟩ := hkeys
    obtain ⟨hhead, htail⟩ := List.forall_mem_cons.mp hread
    obtain ⟨m, hm, hentries, hothers⟩ := ih htail hkeys' (old.insert name a)
    refine ⟨m, ?_, ?_, ?_⟩
    · rw [List.map_cons, intoEntries, hhead]
      exact hm
    · intro e he
      rcases List.mem_cons.mp he with rfl | he
      · -- no later entry has this key
        rw [hothers name hname, Finmap.lookup_insert]
      · exact hentries e he
    · intro name' hname'
      rw [List.map_cons, List.mem_cons, not_or] at hname'
      rw [hothers name' hname'.2, Finmap.lookup_insert_of_ne _ hname'.1]

/-- **A map is read back from its JSON** if its values are. -/
theorem intoMap_ofMap {m : Map α}
    (hread : ∀ name a, m.lookup name = some a → into (value a) zero = some a) :
    intoMap into zero (ofMap value m) ∅ = some m := by
  have hentry : ∀ e ∈ m.toList, into (value e.2) zero = some e.2 :=
    fun e he => hread e.1 e.2 (Map.mem_toList.mp he)
  obtain ⟨m', hm', hentries, hothers⟩ := intoEntries_map hentry m.nodup_toList ∅
  have heq : m' = m := by
    refine Finmap.ext_lookup fun name => ?_
    cases hlookup : m.lookup name with
    | some a => exact hentries (name, a) (Map.mem_toList.mpr hlookup)
    | none =>
      refine (hothers name fun hmem => ?_).trans (Finmap.lookup_empty name)
      obtain ⟨⟨name, a⟩, hentry, rfl⟩ := List.mem_map.mp hmem
      rw [Map.mem_toList.mp hentry] at hlookup
      cases hlookup
  exact hm'.trans (congrArg some heq)

end RoundTrip

end Json

end Go
