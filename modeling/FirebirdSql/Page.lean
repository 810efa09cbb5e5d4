import FirebirdSql.Fragment
import FirebirdSql.Text.Case

/-!
Windows on the rows of a query, and putting one into a statement right after its `SELECT`.
-/

namespace FirebirdSql

/-- How many rows are skipped, and how many are kept after them if that is bounded. -/
structure Page where
  offset : Nat
  limit : Option Nat
  deriving DecidableEq, Repr

namespace Page

/-- The rows from `low` on, and before `high`. -/
def ofMarks (low : Nat) (high : Option Nat) : Page := ⟨low, high.map (· - low)⟩

def isUnbounded (p : Page) : Bool := p.offset == 0 && p.limit.isNone

/-- What follows the word `SELECT` and a blank. -/
def afterSelect? (statement : List Char) : Option (List Char) :=
  let s := Text.trimStart statement
  let rest := s.drop 6
  if Text.sameAsciiLetters (s.take 6) "SELECT".toList && rest.head?.any Text.isBlank then some rest else none

/-- The clauses of a page. `noLimit` is the bound that is written where there is none but rows are skipped. -/
def clauses (p : Page) (noLimit : Option Nat) : List String :=
  let first (n : Nat) := "FIRST " ++ Text.natText n
  let skip := if 0 < p.offset then ["SKIP " ++ Text.natText p.offset] else []
  match p.limit with
  | some n => first n :: skip
  | none => if 0 < p.offset then (noLimit.map first).toList ++ skip else []

/-- The statement restricted to the page. -/
def apply (p : Page) (noLimit : Option Nat) (f : Fragment) : Except Error Fragment :=
  match afterSelect? f.template.toList with
  | none => .error (.notSupported .pageOfOtherStatement)
  | some rest =>
    let clauses := p.clauses noLimit
    if clauses.isEmpty then .ok f
    else
      .ok ⟨"SELECT " ++ Text.joined " " clauses ++ " " ++ .ofList (Text.trim rest), f.params⟩

/-- The statement restricted to the page, if every placeholder has its value. -/
def compile (p : Page) (noLimit : Option Nat) (f : Fragment) : Except Error Fragment := do
  let out ← p.apply noLimit f
  out.validate
  return out

end Page

end FirebirdSql
