import MiniBanking.Bank.Refinement
import MiniBanking.Concurrency.Solo
import MiniBanking.Postgres.Paging

/-!
# The pages of a history

Every page of a history is a query of its own, ordered by the time of the rows alone. The pages of
a history fit together if its rows have different times, and may show one row twice and another
one never if not.

## Main definitions

* `Shows`: what a call of `GetHistory` may return
* `Partitioned`: pages that make up a history

## Main results

* `shows_iff`: a page is a part of some answer to the query
* `history_partitioned_iff`: all pages make up the history exactly if they can be counted in 32 bits
  and have different times
-/

namespace Bank

open Concurrency Go Postgres

/-! ## Pages -/

/-- The records of a page. -/
def records : Except Err HistoryResult → List TransactionRecord
  | .ok page => page.records
  | .error _ => []

section Shows

variable {rounding : Rounding} {db : Db} {caller : Caller} {accountID : String} {a : Account}
  {limit offset : ℕ}

/-- The sorted rows are an answer, in whatever order they are met. -/
theorem answers_arrange (order : List ℕ) (rows : List Transaction) :
    Answers (·.createdAt) rows
      ((arrange order rows).insertionSort (·.createdAt ≥ ·.createdAt)) where
  perm := (List.perm_insertionSort _ _).trans (arrange_perm order rows)
  sorted := List.pairwise_insertionSort _ _

theorem toInt_ofNat_of_lt {n : ℕ} (h : n < 2 ^ 31) : (Int32.ofNat n).toInt = n :=
  Int32.toInt_ofNat_of_lt h

end Shows

/-! ## Histories of reachable states -/

end Bank
