import Mathlib.Logic.Function.Basic
import Mathlib.Algebra.Order.Ring.Int
import Mathlib.Tactic.Common

/-!
# Keys that expire

A database of Redis maps keys to values, some of which expire: an entry whose time has come is as
good as absent. Each command is one function on the database at a time, so that programs which use
several commands can be interleaved between them. The database also counts how often each key was
changed, as `WATCH` would see it; no command replies the count.

## Main definitions

* `Db`, `Db.live`: a database, and the entry of a key that has not expired
* `Db.get`, `Db.set`, `Db.incr`, `Db.expire`, `Db.ttl`, `Db.del`: the commands
* `Db.count`: the number at a key, 0 if there is none
* `Db.Later`: what any commands preserve

## Main results

* `Db.Later.entry`: a key that was not changed has its entry still
-/

namespace Redis

/-! ## Databases -/

/-- A value: a text, or the number that `INCR` leaves. -/
inductive Value where
  | text (s : String)
  | integer (n : ℤ)
  deriving DecidableEq

/-- The text that is replied. -/
def Value.toText : Value → String
  | .text s => s
  | .integer n => toString n

/-- A value and when it expires, in milliseconds. -/
structure Entry where
  value : Value
  expires : Option ℤ
  deriving DecidableEq

/-- The keys, and how often each was changed. -/
structure Db where
  entries : String → Option Entry
  changes : String → ℕ

namespace Db

/-- The database without keys. -/
def empty : Db := ⟨fun _ => none, fun _ => 0⟩

variable (db : Db) (now : ℤ) (key : String)

/-- The entry of a key, unless it has expired. -/
def live : Option Entry := (db.entries key).filter fun e => e.expires.all (now < ·)

/-- A change of a key. -/
def put (entry : Option Entry) : Db where
  entries := Function.update db.entries key entry
  changes := Function.update db.changes key (db.changes key + 1)

/-! ## Commands -/

/-- `GET` -/
def get : Option Value := (db.live now key).map (·.value)

/-- `SET`, with a time to live in seconds; not positive, it is an error. -/
def set (value : String) (ttl : Option ℤ) : Option Db :=
  match ttl with
  | none => some (db.put key (some ⟨.text value, none⟩))
  | some ttl =>
    if 0 < ttl then some (db.put key (some ⟨.text value, some (now + 1000 * ttl)⟩)) else none

/-- `INCR`, an error for a text. The entry keeps its expiry. -/
def incr : Option (ℤ × Db) :=
  match db.live now key with
  | none => some (1, db.put key (some ⟨.integer 1, none⟩))
  | some ⟨.integer n, expires⟩ => some (n + 1, db.put key (some ⟨.integer (n + 1), expires⟩))
  | some ⟨.text _, _⟩ => none

/-- `EXPIRE` -/
def expire (ttl : ℤ) : Db :=
  match db.live now key with
  | none => db
  | some e => db.put key (some { e with expires := some (now + 1000 * ttl) })

/-- `TTL`, in seconds: -1 for a key that does not expire, -2 for none. -/
def ttl : ℤ :=
  match db.live now key with
  | none => -2
  | some ⟨_, none⟩ => -1
  | some ⟨_, some t⟩ => (t - now + 500) / 1000

/-- `DEL`, which removes what has expired as well. -/
def del : Db :=
  match db.entries key with
  | none => db
  | some _ => db.put key none

/-- The number at a key. -/
def count : ℤ :=
  match db.live now key with
  | some ⟨.integer n, _⟩ => n
  | _ => 0

/-! ## What the commands change -/

variable {db now key}

@[simp] theorem entries_put_self (e : Option Entry) : (db.put key e).entries key = e :=
  Function.update_self ..

theorem entries_put_of_ne {key' : String} (e : Option Entry) (h : key' ≠ key) :
    (db.put key e).entries key' = db.entries key' := Function.update_of_ne h ..

@[simp] theorem changes_put_self (e : Option Entry) :
    (db.put key e).changes key = db.changes key + 1 := Function.update_self ..

theorem changes_put_of_ne {key' : String} (e : Option Entry) (h : key' ≠ key) :
    (db.put key e).changes key' = db.changes key' := Function.update_of_ne h ..

theorem live_put_of_ne {key' : String} (e : Option Entry) (h : key' ≠ key) :
    (db.put key e).live now key' = db.live now key' := by
  rw [live, entries_put_of_ne e h, live]

/-- A command leaves the database, or changes its own key. -/
theorem set_cases {value : String} {ttl : Option ℤ} {db' : Db}
    (h : db.set now key value ttl = some db') :
    db' = db.put key (some ⟨.text value, ttl.map (now + 1000 * ·)⟩) := by
  unfold set at h
  split at h
  · exact (Option.some.inj h).symm
  · split at h
    · exact (Option.some.inj h).symm
    · cases h

theorem incr_cases {n : ℤ} {db' : Db} (h : db.incr now key = some (n, db')) :
    n = db.count now key + 1 ∧
      db' = db.put key (some ⟨.integer n, (db.live now key).bind (·.expires)⟩) := by
  unfold incr at h
  unfold count
  split at h
  · next hlive =>
    cases h
    simp [hlive]
  · next m expires hlive =>
    cases h
    simp [hlive]
  · cases h

variable (db now key) in
theorem expire_cases (ttl : ℤ) : db.expire now key ttl = db ∧ db.live now key = none ∨
    ∃ e, db.live now key = some e ∧
      db.expire now key ttl = db.put key (some { e with expires := some (now + 1000 * ttl) }) := by
  unfold expire
  split
  · next hlive => exact .inl ⟨rfl, hlive⟩
  · next e hlive => exact .inr ⟨e, hlive, rfl⟩

variable (db key) in
theorem del_cases : db.del key = db ∧ db.entries key = none ∨
    db.del key = db.put key none ∧ ∃ e, db.entries key = some e := by
  unfold del
  split
  · next hentry => exact .inl ⟨rfl, hentry⟩
  · next e hentry => exact .inr ⟨rfl, e, hentry⟩

/-- What is replied is there. -/
theorem entry_of_get {v : Value} (h : db.get now key = some v) :
    ∃ e, db.entries key = some e ∧ e.value = v := by
  obtain ⟨e, he, hv⟩ := Option.map_eq_some_iff.mp h
  exact ⟨e, (Option.filter_eq_some_iff.mp he).1, hv⟩

/-- An entry that has not expired. -/
theorem live_put_self {e : Entry} (h : ∀ t, e.expires = some t → now < t) :
    (db.put key (some e)).live now key = some e := by
  rw [live, entries_put_self, Option.filter_eq_some_iff]
  refine ⟨rfl, ?_⟩
  cases hexpires : e.expires with
  | none => rfl
  | some t => simpa using h t hexpires

theorem lt_of_live {e : Entry} (h : db.live now key = some e) (t : ℤ) (ht : e.expires = some t) :
    now < t := by
  simpa [ht] using (Option.filter_eq_some_iff.mp h).2

variable (db now) in
/-- A number is increased. -/
theorem incr_of_number (h : ∀ e, db.live now key = some e → ∃ n, e.value = .integer n) :
    ∃ db', db.incr now key = some (db.count now key + 1, db') ∧
      db'.live now key = some ⟨.integer (db.count now key + 1),
        (db.live now key).bind (·.expires)⟩ := by
  unfold incr count
  cases hlive : db.live now key with
  | none => exact ⟨_, rfl, live_put_self (by simp)⟩
  | some e =>
    obtain ⟨value, expires⟩ := e
    obtain ⟨n, rfl⟩ := h _ hlive
    exact ⟨_, rfl, live_put_self fun t ht => lt_of_live hlive t ht⟩

/-! ## Time passes -/

/-- What has expired stays so. -/
theorem live_of_le {now' : ℤ} {e : Entry} (hle : now ≤ now') (h : db.live now' key = some e) :
    db.live now key = some e := by
  simp only [live, Option.filter_eq_some_iff] at h ⊢
  refine ⟨h.1, ?_⟩
  cases hexpires : e.expires with
  | none => rfl
  | some t =>
    have hlt : now' < t := by simpa [hexpires] using h.2
    simpa using lt_of_le_of_lt hle hlt

/-- An entry is still there before it expires. -/
theorem live_of_lt {now' : ℤ} {e : Entry} (h : db.live now key = some e)
    (hlt : ∀ t, e.expires = some t → now' < t) : db.live now' key = some e := by
  simp only [live, Option.filter_eq_some_iff] at h ⊢
  refine ⟨h.1, ?_⟩
  cases hexpires : e.expires with
  | none => rfl
  | some t => simpa using hlt t hexpires

/-! ## Changes are counted -/

/-- Any commands lead from a database to a later one: the changes are counted, and a key that was
not changed has its entry still. -/
structure Later (db db' : Db) : Prop where
  mono : ∀ key, db.changes key ≤ db'.changes key
  entry : ∀ key, db.changes key = db'.changes key → db.entries key = db'.entries key

theorem Later.refl (db : Db) : Later db db := ⟨fun _ => le_rfl, fun _ _ => rfl⟩

theorem Later.trans {db db' db'' : Db} (h : Later db db') (h' : Later db' db'') :
    Later db db'' where
  mono key := (h.mono key).trans (h'.mono key)
  entry key heq := by
    -- the changes in between are squeezed
    have hmid : db.changes key = db'.changes key :=
      le_antisymm (h.mono key) (heq ▸ h'.mono key)
    exact (h.entry key hmid).trans (h'.entry key (hmid.symm.trans heq))

theorem later_put (db : Db) (key : String) (e : Option Entry) : Later db (db.put key e) where
  mono key' := by
    by_cases h : key' = key
    · subst h
      simp
    · rw [changes_put_of_ne e h]
  entry key' heq := by
    by_cases h : key' = key
    · subst h
      simp at heq
    · rw [entries_put_of_ne e h]

end Db

end Redis
