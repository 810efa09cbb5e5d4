import FirebirdSql.Editor.Table

/-!
Fields that are added to a table or removed from it.
-/

namespace FirebirdSql.Editor

variable (ed : Editor σ)

/-- The column's default is in the database, or will be when the collected statements run. -/
def hasDefault (table column : String) : Edit σ Bool :=
  ed.unlessCollecting true (onLink (Catalog.hasDefault ed.cursor ed.engine table column))

/-- Creates the index of a field that is added. -/
def createAddedIndex (table : String) (f : Field) : Edit σ Unit :=
  if f.unique && !f.primaryKey then ed.createDerivedIndex table [f.column] true
  else if f.indexed && f.foreignKey.isNone then ed.createDerivedIndex table [f.column] false
  else return ()

def addField (model : Model) (f : Field) : Edit σ Unit := do
  let table := model.table
  let column := ed.quote f.column
  ed.run table (.addColumn (ed.quote table) column (ColumnDefinition.ofField ed.engine f true))
  if f.default.isSome && !ed.options.keepDbDefaults then
    if ← ed.hasDefault table f.column then ed.run table (.dropDefault (ed.quote table) column)
  if f.type.isAuto then ed.runAll table (Sequence.setUp ed.engine table f.column)
  ed.createAddedIndex table f
  defer (ed.foreignKeyStatements table [f])
  ed.refresh

/-- Drops the trigger and the sequence of a table. -/
def dropCounting (table : String) : Edit σ Unit := do
  ed.dropTrigger table
  ed.dropSequence table

/-- A foreign key that is, among others, over the column. -/
def isForeignKeyOn (column : String) (c : Catalog.Constraint) : Bool := c.kind == .foreignKey && c.mentions column

def removeField (model : Model) (f : Field) : Edit σ Unit := do
  let table := model.table
  if f.type.isAuto then ed.dropCounting table
  ed.dropWhere table (isForeignKeyOn f.column)
  let indexes ← onLink (Catalog.columnIndexes ed.cursor ed.engine table f.column)
  ed.runAll table (indexes.map fun name => .dropIndex (ed.quote name))
  ed.run table (.dropColumn (ed.quote table) (ed.quote f.column))
  ed.refresh

end FirebirdSql.Editor
