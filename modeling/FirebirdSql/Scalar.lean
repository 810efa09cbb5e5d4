import FirebirdSql.Fragment
import FirebirdSql.Literal

/-!
Scalar expressions that are built around given operands, and how they are written. The operands are of any type, so
that one expression can be written around fragments and computed around values.
-/

namespace FirebirdSql

inductive BinaryOp where
  | add
  | sub
  | mul
  | div
  /-- Concatenation, written with blanks or without. -/
  | concat (spaced : Bool)
  deriving DecidableEq, Repr

inductive Scalar (α : Type) where
  | operand (a : α)
  | text (s : String)
  | number (n : Nat)
  | negative (e : Scalar α)
  | group (e : Scalar α)
  | binary (op : BinaryOp) (l r : Scalar α)
  | extract (field : String) (e : Scalar α)
  | cast (e : Scalar α) (type : String)
  | dateAdd (amount : Scalar α) (unit : String) (e : Scalar α)
  | call (function : String) (e : Scalar α)
  | call₂ (function : String) (a b : Scalar α)
  | call₃ (function : String) (a b c : Scalar α)

def BinaryOp.symbol : BinaryOp → String
  | .add => " + "
  | .sub => " - "
  | .mul => " * "
  | .div => " / "
  | .concat true => " || "
  | .concat false => "||"

namespace Scalar

open Fragment

/-- The expression as it stands in a statement. -/
def render : Scalar Fragment → Fragment
  | .operand f => f
  | .text s => sql (.ofList (Literal.quoteText s.toList))
  | .number n => sql (Text.natText n)
  | .negative e => sql "-" ++ e.render
  | .group e => sql "(" ++ e.render ++ sql ")"
  | .binary op l r => l.render ++ sql op.symbol ++ r.render
  | .extract field e => sql "EXTRACT(" ++ sql field ++ sql " FROM " ++ e.render ++ sql ")"
  | .cast e type => sql "CAST(" ++ e.render ++ sql " AS " ++ sql type ++ sql ")"
  | .dateAdd amount unit e =>
    sql "DATEADD(" ++ amount.render ++ sql " " ++ sql unit ++ sql " TO " ++ e.render ++ sql ")"
  | .call function e => sql function ++ sql "(" ++ e.render ++ sql ")"
  | .call₂ function a b => sql function ++ sql "(" ++ a.render ++ sql ", " ++ b.render ++ sql ")"
  | .call₃ function a b c =>
    sql function ++ sql "(" ++ a.render ++ sql ", " ++ b.render ++ sql ", " ++ c.render ++ sql ")"

end Scalar

end FirebirdSql
