import Mathlib.Tactic.Common

/-!
# Programs over a signature of statements

A program that talks to shared services (a database, a clock, a cache) is the tree of the
statements it may issue: either it has a result, or it issues one statement and continues with
the reply. Between two statements any other program may act, so the tree is exactly what an
interleaving semantics needs, and it is written once, in the order of the source.

## Main definitions

* `Signature`: the statements, with the type of the reply to each
* `Program`: programs over a signature, a monad
* `Program.result`: the result of a program that is over
* `Program.head`: the statement that it issues next, if it is not
* `Program.answer`: the result of a program whose statements are answered by a function
* `issue`: the program that issues one statement and returns its reply
* `Program.deferred`: run a program, then a cleanup program, and return the first result
-/

namespace Concurrency

/-- The statements a program may issue, with the type of the reply to each. -/
structure Signature where
  /-- The statements. -/
  Stmt : Type
  /-- What a statement replies. -/
  Reply : Stmt → Type

variable {S : Signature} {α β γ : Type}

/-- A program over `S`: a result, or a statement and what to do with its reply. -/
inductive Program (S : Signature) (α : Type) where
  | ret (a : α)
  | call (s : S.Stmt) (k : S.Reply s → Program S α)

namespace Program

/-- Sequential composition. -/
def bind : Program S α → (α → Program S β) → Program S β
  | ret a, f => f a
  | call s k, f => call s fun r => (k r).bind f

instance : Monad (Program S) where
  pure := ret
  bind := bind

@[simp] theorem pure_eq (a : α) : (pure a : Program S α) = ret a := rfl

@[simp] theorem ret_bind (a : α) (f : α → Program S β) : (ret a >>= f) = f a := rfl

@[simp] theorem call_bind (s : S.Stmt) (k : S.Reply s → Program S α) (f : α → Program S β) :
    (call s k >>= f) = call s fun r => k r >>= f := rfl

theorem bind_assoc (p : Program S α) (f : α → Program S β) (g : β → Program S γ) :
    p >>= f >>= g = p >>= fun a => f a >>= g := by
  induction p with
  | ret a => rfl
  | call s k ih =>
    simp only [call_bind]
    congr 1
    funext r
    exact ih r

/-- The result of a program that has nothing left to issue. -/
def result : Program S α → Option α
  | ret a => some a
  | call _ _ => none

/-- The statement that a program issues next. -/
def head : Program S α → Option S.Stmt
  | ret _ => none
  | call s _ => some s

/-- The result of a program whose statements are answered by a function. -/
def answer (reply : ∀ s, S.Reply s) : Program S α → α
  | ret a => a
  | call s k => (k (reply s)).answer reply

theorem answer_bind (reply : ∀ s, S.Reply s) (p : Program S α) (f : α → Program S β) :
    (p >>= f).answer reply = (f (p.answer reply)).answer reply := by
  induction p with
  | ret a => rfl
  | call s k ih => exact ih (reply s)

theorem eq_ret_of_result {p : Program S α} {a : α} (h : p.result = some a) : p = ret a := by
  cases p with
  | ret b => exact congrArg ret (Option.some.inj h)
  | call s k => cases h

end Program

/-- Issue one statement and return its reply. -/
def issue (s : S.Stmt) : Program S (S.Reply s) := .call s .ret

@[simp] theorem issue_bind (s : S.Stmt) (f : S.Reply s → Program S β) :
    (issue s >>= f) = .call s f := rfl

/-- Run `body`, then `cleanup` whatever the result was, and return the result of `body`. -/
def Program.deferred (body : Program S α) (cleanup : Program S Unit) : Program S α :=
  body >>= fun a => cleanup >>= fun _ => .ret a

end Concurrency
