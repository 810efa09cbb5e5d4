import FirebirdSql.Row
import FirebirdSql.Text.Case

/-!
Indexes and constraints of a table, gathered from rows that name one column each.
-/

namespace FirebirdSql.Catalog

inductive SortOrder where
  | ascending
  | descending
  deriving DecidableEq, Repr

structure Constraint where
  name : String
  kind : ConstraintKind
  columns : List String
  referencedTable : Option String
  referencedColumn : Option String
  /-- The order of each column. -/
  orders : List SortOrder
  indexName : Option String
  unique : Bool
  /-- What the index is computed by. -/
  expression : Option String
  checkSource : Option String
  deriving DecidableEq, Repr

namespace Constraint

def empty (name : String) (kind : ConstraintKind) : Constraint where
  name := name
  kind := kind
  columns := []
  referencedTable := none
  referencedColumn := none
  orders := []
  indexName := none
  unique := kind matches .primaryKey | .unique
  expression := none
  checkSource := none

/-- Two spellings of a column name, up to the case of the ASCII letters. -/
def sameColumn (a b : String) : Bool := Text.sameAsciiLetters a.toList b.toList

/-- The constraint is over exactly these columns, in this order. -/
def covers (c : Constraint) (columns : List String) : Bool :=
  c.columns.length == columns.length && (c.columns.zip columns).all fun (a, b) => sameColumn a b

/-- The constraint is, among others, over the column. -/
def mentions (c : Constraint) (column : String) : Bool := c.columns.any (sameColumn · column)

def optionalInt (r : Row) (index : Nat) : Except Error (Option Int) := r.get (Value.toOption Value.toInt32) index

/-- Reads whether an index is unique, and what it is computed by. -/
def addIndexFacts (c : Constraint) (r : Row) : Except Error Constraint := do
  let unique ← optionalInt r 4
  let expression ← r.getName? 8
  return { c with unique := unique.getD 0 == 1, expression := expression }

/-- Adds the row's column with its order, unless it is there already. -/
def addColumn (c : Constraint) (r : Row) : Except Error Constraint := do
  match (← r.getName? 3).map Text.lowercase with
  | none => return c
  | some column =>
    if c.columns.contains column then return c
    let direction ← optionalInt r 5
    let order := if direction.getD 0 = 1 then SortOrder.descending else SortOrder.ascending
    return { c with columns := c.columns ++ [column], orders := c.orders ++ [order] }

/-- Reads the column that a foreign key references. -/
def addReference (c : Constraint) (r : Row) : Except Error Constraint := do
  let table ← r.getName? 6
  let column ← r.getName? 7
  return { c with
    referencedTable := table.map Text.lowercase
    referencedColumn := column.map Text.lowercase }

/-- Adds what a row of the given kind says. -/
def add (c : Constraint) (kind : ConstraintKind) (r : Row) : Except Error Constraint := do
  let c ← if kind = .index then c.addIndexFacts r else pure c
  let c ← c.addColumn r
  if kind = .foreignKey ∧ c.referencedTable.isNone then c.addReference r else pure c

end Constraint

namespace Constraints

/-- Puts a constraint in the place of the one of its name, or after the others. -/
def put : List Constraint → Constraint → List Constraint
  | [], c => [c]
  | d :: rest, c => if d.name = c.name then c :: rest else d :: put rest c

def find? (cs : List Constraint) (name : String) : Option Constraint := cs.find? (·.name == name)

/-- Adds a row of the query for indexes. A row of no constraint goes by the name of the index. -/
def addRow (cs : List Constraint) (r : Row) : Except Error (List Constraint) := do
  let indexName := Text.lowercase (← r.getName 2)
  let kind := ((← r.getName? 1).bind ConstraintKind.ofCatalog?).getD .index
  let name := ((← r.getName? 0).map Text.lowercase).getD indexName
  let known := (find? cs name).getD { Constraint.empty name kind with indexName := some indexName }
  return put cs (← known.add kind r)

/-- Adds a row of the query for checks, whose rows of one name come together. -/
def addCheckRow (checks : List Constraint) (r : Row) : Except Error (List Constraint) := do
  let name := Text.lowercase (← r.getName 0)
  let (others, check) ← match checks.getLast? with
    | some last =>
      if last.name = name then pure (checks.dropLast, last)
      else pure (checks, { Constraint.empty name .check with checkSource := ← r.getName? 1 })
    | none => pure ([], { Constraint.empty name .check with checkSource := ← r.getName? 1 })
  match (← r.getName? 2).map Text.lowercase with
  | some column =>
    if check.columns.contains column then return others ++ [check]
    return others ++ [{ check with columns := check.columns ++ [column] }]
  | none => return others ++ [check]

def ofIndexRows (rows : List Row) : Except Error (List Constraint) := rows.foldlM addRow []

def ofCheckRows (rows : List Row) : Except Error (List Constraint) := rows.foldlM addCheckRow []

/-- All constraints in order of their names; a check takes the place of another constraint of its name. -/
def merge (constraints checks : List Constraint) : List Constraint :=
  (checks.foldl put constraints).mergeSort fun a b => !decide (b.name < a.name)

/-- Column, referenced table and referenced column of every foreign key. -/
def keyColumns (cs : List Constraint) : List (String × String × String) :=
  cs.filterMap fun c =>
    if c.kind = .foreignKey then
      match c.columns, c.referencedTable, c.referencedColumn with
      | column :: _, some table, some target => some (column, table, target)
      | _, _, _ => none
    else none

/-- The first column of the primary key. -/
def primaryKeyColumn? (cs : List Constraint) : Option String :=
  (cs.find? (·.kind == .primaryKey)).bind (·.columns.head?)

end Constraints

end FirebirdSql.Catalog
