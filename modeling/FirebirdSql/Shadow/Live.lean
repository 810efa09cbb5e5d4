import FirebirdSql.Row
import FirebirdSql.Shadow.Constraint

/-!
The constraints that are in force, in the order in which they can be dropped.
-/

namespace FirebirdSql.Shadow

structure Live where
  name : String
  kind : ConstraintKind
  relationName : String
  deriving DecidableEq, Repr

namespace Live

/-- Rows of an unknown type are passed over. -/
def ofRow? (r : Row) : Except Error (Option Live) := do
  match ConstraintKind.ofCatalog? (← r.getName 1) with
  | some kind =>
    let name ← r.getName 0
    let relationName ← r.getName 2
    return some ⟨name, kind, relationName⟩
  | none => return none

def precedes (a b : Live) : Bool := decide (dropRank a.kind ≤ dropRank b.kind)

def ofRows (rows : List Row) : Except Error (List Live) := do
  let live ← rows.mapM ofRow?
  return live.reduceOption.mergeSort precedes

def dropStatement (l : Live) : Statement := .dropConstraint (.ofStored l.relationName) (.ofStored l.name)

end Live

end FirebirdSql.Shadow
