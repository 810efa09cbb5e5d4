import FirebirdSql.Editor.Key

/-!
Tables: created with their columns, sequences and indexes, while foreign keys wait for the tables of other models.
-/

namespace FirebirdSql.Editor

variable (ed : Editor σ)

/-- A column of a new table. -/
def columnOf (f : Field) : Identifier × ColumnDefinition :=
  (ed.quote f.column, ColumnDefinition.ofField ed.engine f true)

def createTableStatement (model : Model) : Statement :=
  .createTable (ed.quote model.table) (model.fields.map ed.columnOf)

/-- Creates the index that a field of a new table declares: a key has its own, and so has a foreign key. -/
def createFieldIndex (table : String) (f : Field) : Edit σ Unit :=
  if f.unique && !f.primaryKey then ed.createDerivedIndex table [f.column] true
  else if f.indexed && !f.primaryKey && f.foreignKey.isNone then ed.createDerivedIndex table [f.column] false
  else return ()

def createModel (model : Model) : Edit σ Unit := do
  defer (ed.foreignKeyStatements model.table model.fields)
  ed.run model.table (ed.createTableStatement model)
  ed.runAll model.table (Sequence.setUpModel ed.engine model)
  Action.forEach (ed.createFieldIndex model.table) model.fields
  Action.forEach (ed.createDerivedIndex model.table · true) model.uniqueTogether
  Action.forEach (ed.createDerivedIndex model.table · false) model.indexTogether
  Action.forEach (ed.addIndex model) model.indexes

/-- The objects that the counting column of a table may have. -/
def sequence (table : String) : Sequence := Sequence.ofTable ed.engine table

def sequenceExists (table : String) : Edit σ Bool :=
  ed.unlessCollecting true (onLink (Catalog.sequenceExists ed.cursor ed.engine table))

def triggerExists (table : String) : Edit σ Bool :=
  ed.unlessCollecting true (onLink (Catalog.triggerExists ed.cursor ed.engine table))

/-- Drops the sequence of a table, if there is one. -/
def dropSequence (table : String) : Edit σ Unit := do
  if ← ed.sequenceExists table then ed.run table (.dropSequence (ed.sequence table).sequence)

/-- Drops the trigger of a table, if there is one. -/
def dropTrigger (table : String) : Edit σ Unit := do
  if ← ed.triggerExists table then ed.run table (.dropTrigger (ed.sequence table).trigger)

def deleteModel (model : Model) : Edit σ Unit := do
  ed.run model.table (.dropTable (ed.quote model.table))
  ed.dropSequence model.table

/-- Tables keep their names. -/
def renameModel (_ : Editor σ) (_ : Model) (_name : String) : Edit σ Unit := Action.fail (.notSupported .renamedTable)

end FirebirdSql.Editor
