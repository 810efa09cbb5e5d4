import FirebirdSql.Editor.Alteration
import FirebirdSql.Editor.Field

/-!
Altering a field: what is in the way is dropped, the column is changed, and keys, indexes and checks are made for the
column as it is then.
-/

namespace FirebirdSql.Editor

variable (ed : Editor σ) (a : Alteration)

def isForeignKeyOver (column : String) (c : Catalog.Constraint) : Bool := c.kind == .foreignKey && c.covers [column]

def isPrimaryKeyOver (column : String) (c : Catalog.Constraint) : Bool := c.kind == .primaryKey && c.covers [column]

def isCheckOn (column : String) (c : Catalog.Constraint) : Bool := c.kind == .check && c.mentions column

def dropOwnForeignKey : Edit σ Unit :=
  if a.dropsForeignKey ed.engine then ed.dropWhere a.table (isForeignKeyOver a.old.column) else return ()

/-- Drops the keys that reference the column, and returns them. -/
def takeIncoming : Edit σ (List Catalog.IncomingKey) := do
  let incoming ← if a.dropsIncoming ed.engine then ed.incomingKeys a.table a.old.column else return []
  ed.dropIncoming incoming
  return incoming

/-- Drops the indexes and the primary key of the column, as far as they do not stay. -/
def dropOwnIndexes : Edit σ Unit := do
  if a.dropsUnique ed.engine then ed.dropIndexOver a.table [a.old.column] true
  if a.dropsIndex ed.engine then ed.dropIndexOver a.table [a.old.column] false
  if a.dropsPrimaryKey ed.engine then ed.dropWhere a.table (isPrimaryKeyOver a.old.column)

def dropOwnChecks : Edit σ Unit :=
  if a.dropsChecks ed.engine then ed.dropWhere a.table (isCheckOn a.old.column) else return ()

def createOwnIndexes : Edit σ Unit := do
  if a.createsUnique ed.engine then ed.createDerivedIndex a.table [a.column] true
  if a.createsIndex ed.engine then ed.createDerivedIndex a.table [a.column] false

/-- Drops the primary key of other columns, with all that references it, which is returned. -/
def displacePrimaryKey : Edit σ (List Catalog.IncomingKey) := do
  if a.displacesPrimaryKey then
    let keys ← ed.constraintsWhere a.table (·.kind == .primaryKey)
    return (← keys.mapM (ed.displaceKey a.table)).flatten
  else return []

/-- Puts the incoming keys back; those without a target are lost. -/
def returnIncoming (incoming displaced : List Catalog.IncomingKey) : Edit σ Unit := do
  match a.target? with
  | some target => ed.addIncoming a.table target incoming
  | none => pure ()
  ed.addIncoming a.table a.column displaced

def createOwnForeignKey : Edit σ Unit :=
  ed.runAll a.table ((a.newForeignKey? ed.engine).toList.map (ed.foreignKeyStatement a.table a.column))

/-- The column starts or stops to count. -/
def alterCounting : Edit σ Unit :=
  if a.new.type.isAuto && !a.old.type.isAuto then
    ed.runAll a.table (Sequence.setUp ed.engine a.table a.column)
  else if a.old.type.isAuto && !a.new.type.isAuto then ed.dropCounting a.table
  else return ()

def alterField : Edit σ Unit := do
  ed.dropOwnForeignKey a
  let incoming ← ed.takeIncoming a
  ed.dropOwnIndexes a
  ed.dropOwnChecks a
  ed.runAll a.table (a.columnStatements ed.engine ed.options)
  ed.createOwnIndexes a
  let displaced ← ed.displacePrimaryKey a
  ed.runAll a.table (a.primaryKeyStatements ed.engine)
  ed.returnIncoming a incoming displaced
  ed.createOwnForeignKey a
  ed.runAll a.table (a.checkStatements ed.engine)
  ed.alterCounting a
  ed.refresh

end FirebirdSql.Editor
