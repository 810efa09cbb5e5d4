import FirebirdSql.Row
import FirebirdSql.Shadow.Constraint

/-!
The constraints that have been put aside, gathered from the rows of the two tables that hold them.
-/

namespace FirebirdSql.Shadow

/-- A column of a constraint. -/
structure Segment where
  constraintName : String
  position : Int
  column : String
  deriving DecidableEq, Repr

namespace Segment

def ofRow (r : Row) : Except Error Segment := do
  let constraintName ← r.getName 0
  let position ← r.get Value.toInt16 2
  let column ← r.getName 1
  return ⟨constraintName, position, column⟩

def precedes (a b : Segment) : Bool := decide (a.position ≤ b.position)

/-- The columns of a constraint by position. -/
def columnsOf (name : String) (segments : List Segment) : List String :=
  ((segments.filter (·.constraintName == name)).mergeSort precedes).map (·.column)

end Segment

namespace Constraint

/-- Reads a constraint, still without columns. Rows of an unknown type are passed over. -/
def ofRow? (r : Row) : Except Error (Option Constraint) := do
  match ConstraintKind.ofCatalog? (← r.getName 1) with
  | none => return none
  | some kind =>
    let name ← r.getName 0
    let relationName ← r.getName 2
    let indexName ← r.getName? 3
    let keyName ← r.getName? 4
    let updateRule ← r.getName? 5
    let deleteRule ← r.getName? 6
    let source ← r.get (Value.toOption Value.toText) 7
    return some {
      name := name
      kind := kind
      relationName := relationName
      indexName := indexName
      keyName := keyName
      updateRule := updateRule
      deleteRule := deleteRule
      source := source
      columns := [] }

/-- Gives the segments to the constraints of their names; the first of a name takes all. -/
def attach (segments : List Segment) : List Constraint → List Constraint
  | [] => []
  | c :: rest =>
    { c with columns := Segment.columnsOf c.name segments } ::
      attach (segments.filter (·.constraintName != c.name)) rest

def precedes (a b : Constraint) : Bool := decide (restoreRank a.kind ≤ restoreRank b.kind)

def ofRows (rows : List Row) : Except Error (List Constraint) := List.reduceOption <$> rows.mapM ofRow?

/-- The constraints with their columns, in the order in which they can be made again. -/
def assemble (constraints : List Constraint) (segments : List Segment) : List Constraint :=
  (attach segments constraints).mergeSort precedes

end Constraint

/-- The key that rows of a table and a column each describe. -/
def Key.ofRows : List Row → Except Error (Option Key)
  | [] => .ok none
  | r :: rest => do
    let table ← r.getName 0
    let columns ← (r :: rest).mapM (·.getName 1)
    return some ⟨table, columns⟩

end FirebirdSql.Shadow
