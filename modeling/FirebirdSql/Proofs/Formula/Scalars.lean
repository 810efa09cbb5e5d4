import FirebirdSql.Proofs.Formula.Reading

/-!
The formulas of scalar expressions: what is written around fragments that spell formulas spells the formula around them.
-/

namespace FirebirdSql

open Formula (Spells Divides)
open Formula.State (IsWord)
open Fragment (sql)

def BinaryOp.operator : BinaryOp → Operator
  | .add => .add
  | .sub => .sub
  | .mul => .mul
  | .div => .div
  | .concat _ => .concat

theorem BinaryOp.divides (op : BinaryOp) : Divides op.symbol.toList op.operator := by
  cases op with
  | add => exact .symbol (c := '+') (by decide)
  | sub => exact .symbol (c := '-') (by decide)
  | mul => exact .symbol (c := '*') (by decide)
  | div => exact .symbol (c := '/') (by decide)
  | concat spaced =>
    cases spaced with
    | true => exact .spacedBars
    | false => exact .bars

namespace Scalar

/-- The formula around those of the operands. -/
def formula (x : α → Formula) : Scalar α → Formula
  | .operand a => x a
  | .text s => .text s.toList
  | .number n => .number n
  | .negative e => .negative (e.formula x)
  | .group e => .call [] (e.formula x)
  | .binary op l r => .binary op.operator (l.formula x) (r.formula x)
  | .extract field e => .call "EXTRACT".toList (.binary .ofField (.word field.toList) (e.formula x))
  | .cast e type => .call "CAST".toList (.binary .asType (e.formula x) (.word type.toList))
  | .dateAdd amount unit e => .call "DATEADD".toList (.binary (.toward unit.toList) (amount.formula x) (e.formula x))
  | .call function e => .call function.toList (e.formula x)
  | .call₂ function a b => .call function.toList (.binary .comma (a.formula x) (b.formula x))
  | .call₃ function a b c =>
    .call function.toList (.binary .comma (.binary .comma (a.formula x) (b.formula x)) (c.formula x))

/-- A word that is not a numeral and no keyword. -/
def IsName (s : String) : Prop := IsWord s.toList ∧ Text.readNat? s.toList = none ∧ Formula.keyword? s.toList = none

instance (s : String) : Decidable (IsName s) := inferInstanceAs (Decidable (_ ∧ _ ∧ _))

/-- Every operand spells its formula, and fields, types, units and functions are single words. -/
def Legible (x : Fragment → Formula) : Scalar Fragment → Prop
  | .operand f => Spells f (x f)
  | .text _ | .number _ => True
  | .negative e | .group e => e.Legible x
  | .binary _ l r => l.Legible x ∧ r.Legible x
  | .extract name e | .cast e name | .call name e => IsName name ∧ e.Legible x
  | .dateAdd a name b | .call₂ name a b => IsName name ∧ a.Legible x ∧ b.Legible x
  | .call₃ name a b c => IsName name ∧ a.Legible x ∧ b.Legible x ∧ c.Legible x

theorem spells_word {s : String} (h : IsName s) : Spells (sql s) (.word s.toList) := by
  have spelled := Spells.word h.1
  rwa [Formula.ofWord, h.2.1] at spelled

theorem spells_render {x : Fragment → Formula} {e : Scalar Fragment} (h : e.Legible x) : Spells e.render (e.formula x) := by
  induction e with
  | operand f => exact h
  | text s => exact .text s
  | number n => exact .number n
  | negative e ih => exact (ih h).negative
  | group e ih => exact (ih h).group
  | binary op l r ihl ihr => exact (ihl h.1).operation op.divides (ihr h.2)
  | extract field e ih =>
    have opened : sql "EXTRACT(" = sql "EXTRACT" ++ sql "(" := by decide
    have divides : Divides " FROM ".toList .ofField := .keyword (w := ['F', 'R', 'O', 'M']) rfl
    have called := ((spells_word h.1).operation divides (ih h.2)).call "EXTRACT" (by decide)
    simpa only [render, formula, opened, Fragment.append_assoc] using called
  | cast e type ih =>
    have opened : sql "CAST(" = sql "CAST" ++ sql "(" := by decide
    have divides : Divides " AS ".toList .asType := .keyword (w := ['A', 'S']) rfl
    have called := ((ih h.2).operation divides (spells_word h.1)).call "CAST" (by decide)
    simpa only [render, formula, opened, Fragment.append_assoc] using called
  | dateAdd amount unit e iha ihe =>
    have opened : sql "DATEADD(" = sql "DATEADD" ++ sql "(" := by decide
    have divides : Divides (" " ++ unit ++ " TO ").toList (.toward unit.toList) := by
      simpa using Divides.toward h.1.1 h.1.2.2
    have called := ((iha h.2.1).operation divides (ihe h.2.2)).call "DATEADD" (by decide)
    simpa only [render, formula, opened, Fragment.sql_append, Fragment.append_assoc] using called
  | call function e ih => exact (ih h.2).call function h.1.1
  | call₂ function a b iha ihb =>
    have called := ((iha h.2.1).operation .comma (ihb h.2.2)).call function h.1.1
    simpa only [render, formula, Fragment.append_assoc] using called
  | call₃ function a b c iha ihb ihc =>
    have inside := (iha h.2.1).operation .comma (ihb h.2.2.1)
    have called := (inside.operation .comma (ihc h.2.2.2)).call function h.1.1
    simpa only [render, formula, Fragment.append_assoc] using called

end Scalar

end FirebirdSql
