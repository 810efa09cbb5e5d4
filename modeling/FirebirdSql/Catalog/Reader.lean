import FirebirdSql.Catalog.Cache
import FirebirdSql.Catalog.Expression
import FirebirdSql.Cursor

/-!
Reading the catalog. What does not exist is described by empty answers. The descriptions of columns and constraints
can be read through a cache.
-/

namespace FirebirdSql.Catalog

inductive TableKind where
  | table
  | view
  deriving DecidableEq, Repr

structure Table where
  name : String
  kind : TableKind
  deriving DecidableEq, Repr

def Table.ofRow (r : Row) : Except Error Table := do
  let isView ← r.get Value.toInt64 1
  let name ← r.getName 0
  return ⟨Text.lowercase name, if isView = 1 then .view else .table⟩

/-- A foreign key of another table that references one of ours. -/
structure IncomingKey where
  table : String
  name : String
  column : String
  referencedColumn : String
  updateRule : String
  deleteRule : String
  deriving DecidableEq, Repr

/-- The rule of keys that declare none. -/
def restrict : String := "RESTRICT"

def IncomingKey.ofRow (r : Row) : Except Error IncomingKey := do
  let table ← r.getName 0
  let name ← r.getName 1
  let column ← r.getName 2
  let referencedColumn ← r.getName 3
  let updateRule ← r.getName? 4
  let deleteRule ← r.getName? 5
  return {
    table := Text.lowercase table
    name := Text.lowercase name
    column := Text.lowercase column
    referencedColumn := Text.lowercase referencedColumn
    updateRule := updateRule.getD restrict
    deleteRule := deleteRule.getD restrict }

/-- The first index whose expression is the wanted one, up to its form. -/
def firstIndexBy (wanted : List Char) : List Row → Except Error (Option String)
  | [] => .ok none
  | r :: rest => do
    match ← r.getName? 1 with
    | some source =>
      if Expression.normalize source.toList = wanted then
        return some (Text.lowercase (← r.getName 0))
      firstIndexBy wanted rest
    | none => firstIndexBy wanted rest

section Reading

variable (c : Cursor σ) (e : Engine)

def ask (q : CatalogQuery) : Action σ (List Row) := c.query (.catalog q)

def listTables : Action σ (List Table) := do
  let rows ← ask c .tables
  Action.lift (rows.mapM Table.ofRow)

/-- The names of the tables that are not views. -/
def tableNames : Action σ (List String) := do
  let tables ← listTables c
  return (tables.filter (·.kind == .table)).map (·.name)

def readColumns (table : String) : Action σ (List Column) := do
  let rows ← ask c (.columns (Identifier.catalogName e table))
  Action.lift (rows.mapM Column.ofRow)

def readConstraints (table : String) : Action σ (List Constraint) := do
  let relation := Identifier.catalogName e table
  let rows ← ask c (.indexes relation)
  let constraints ← Action.lift (Constraints.ofIndexRows rows)
  let rows ← ask c (.checks relation)
  let checks ← Action.lift (Constraints.ofCheckRows rows)
  return Constraints.merge constraints checks

def hasDefault (table column : String) : Action σ Bool := do
  let rows ← ask c (.columnDefault (Identifier.catalogName e table) (Identifier.catalogName e column))
  match rows with
  | r :: _ => Action.lift (Option.isSome <$> r.getName? 0)
  | [] => return false

/-- Indexes on a column that no constraint owns. -/
def columnIndexes (table column : String) : Action σ (List String) := do
  let rows ← ask c (.columnIndexes (Identifier.catalogName e table) (Identifier.catalogName e column))
  Action.lift (rows.mapM fun r => Text.lowercase <$> r.getName 0)

/-- Foreign keys of all tables that reference a column. -/
def incomingKeys (table column : String) : Action σ (List IncomingKey) := do
  let rows ← ask c (.incomingKeys (Identifier.catalogName e table) (Identifier.catalogName e column))
  Action.lift (rows.mapM IncomingKey.ofRow)

/-- The index of a table that is computed by an expression. -/
def expressionIndex? (table source : String) : Action σ (Option String) := do
  let rows ← ask c (.expressionIndexes (Identifier.catalogName e table))
  Action.lift (firstIndexBy (Expression.normalize source.toList) rows)

def sequenceExists (table : String) : Action σ Bool := do
  let rows ← ask c (.sequence (Sequence.ofTable e table).sequenceCatalogName)
  return !rows.isEmpty

def triggerExists (table : String) : Action σ Bool := do
  let rows ← ask c (.trigger (Sequence.ofTable e table).triggerCatalogName)
  return !rows.isEmpty

end Reading

/-- A connection with what has been read through it. -/
structure Cached (σ : Type) where
  link : σ
  cache : Cache

namespace Cached

/-- An action on the connection alone. -/
def onLink (x : Action σ α) : Action (Cached σ) α :=
  Action.within (·.link) (fun link s => { s with link := link }) x

def modifyCache (f : Cache → Cache) : Action (Cached σ) Unit :=
  Action.modify fun s => { s with cache := f s.cache }

variable (c : Cursor σ) (e : Engine)

def columns (table : String) : Action (Cached σ) (List Column) := do
  match (← Action.get).cache.columns? table with
  | some columns => return columns
  | none =>
    let columns ← onLink (readColumns c e table)
    modifyCache (·.putColumns table columns)
    return columns

def constraints (table : String) : Action (Cached σ) (List Constraint) := do
  match (← Action.get).cache.constraints? table with
  | some constraints => return constraints
  | none =>
    let constraints ← onLink (readConstraints c e table)
    modifyCache (·.putConstraints table constraints)
    return constraints

end Cached

end FirebirdSql.Catalog
