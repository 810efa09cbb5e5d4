import FirebirdSql.Editor.Index

/-!
Foreign keys: those that a field declares, and those of other tables that reference a column. The latter are dropped
before the column changes, and put back with their rules.
-/

namespace FirebirdSql.Editor

variable (ed : Editor σ)

/-- The statement for the foreign key of a column. -/
def foreignKeyStatement (table column : String) (key : ForeignKey) : Statement :=
  .addConstraint (ed.quote table) (ed.quote (Identifier.derivedName ed.engine table [column] "_fk"))
    (.foreignKey [ed.quote column] (ed.quote key.table) [ed.quote key.column] none
      (explicitRule? key.onDelete.keyword))

/-- The statements for the foreign keys of some fields. -/
def foreignKeyStatements (table : String) (fields : List Field) : List Statement :=
  fields.filterMap fun f => f.foreignKey.map (ed.foreignKeyStatement table f.column)

/-- The foreign keys of all tables that reference a column. -/
def incomingKeys (table column : String) : Edit σ (List Catalog.IncomingKey) :=
  ed.unlessCollecting [] (onLink (Catalog.incomingKeys ed.cursor ed.engine table column))

def dropIncomingStatement (key : Catalog.IncomingKey) : Statement :=
  .dropConstraint (ed.quote key.table) (ed.quote key.name)

def dropIncoming (keys : List Catalog.IncomingKey) : Edit σ Unit :=
  Action.forEach (fun key => ed.run key.table (ed.dropIncomingStatement key)) keys

/-- The statement that puts a key back, against a column of a table. -/
def addIncomingStatement (table target : String) (key : Catalog.IncomingKey) : Statement :=
  .addConstraint (ed.quote key.table) (ed.quote key.name)
    (.foreignKey [ed.quote key.column] (ed.quote table) [ed.quote target]
      (explicitRule? key.updateRule) (explicitRule? key.deleteRule))

def addIncoming (table target : String) (keys : List Catalog.IncomingKey) : Edit σ Unit :=
  Action.forEach (fun key => ed.run key.table (ed.addIncomingStatement table target key)) keys

/-- Drops a key of a table after all that references it, which is returned. -/
def displaceKey (table : String) (key : Catalog.Constraint) : Edit σ (List Catalog.IncomingKey) := do
  let incoming ← key.columns.mapM (ed.incomingKeys table)
  ed.dropIncoming incoming.flatten
  ed.dropConstraint table key
  return incoming.flatten

end FirebirdSql.Editor
