import FirebirdSql.Options
import FirebirdSql.Statement

/-!
What it takes to alter a field, as far as the two fields, the engine and the options decide it: what is dropped before
the column changes, the statements that change the column, and what is created after.
-/

namespace FirebirdSql

/-- A field of a model, and what it becomes. -/
structure Alteration where
  model : Model
  old : Field
  new : Field
  deriving DecidableEq

namespace Alteration

variable (a : Alteration) (e : Engine) (o : Options)

def table : String := a.model.table

/-- The column's name from the rename on. -/
def column : String := a.new.column

def tableIdentifier : Identifier := Identifier.quote e a.table

def columnIdentifier : Identifier := Identifier.quote e a.column

def changesType : Bool := a.old.type.definition e != a.new.type.definition e

/-- The names differ by more than the case of ASCII letters. -/
def renames : Bool := !Text.sameAsciiLetters a.old.column.toList a.new.column.toList

/-- A check has to be made anew also when the type below it changes. -/
def changesCheck : Bool :=
  a.old.check? e != a.new.check? e || a.changesType e && (a.old.check? e).isSome

def dropsForeignKey : Bool :=
  a.old.foreignKey.isSome && (a.old.foreignKey != a.new.foreignKey || a.changesType e)

/-- The keys that reference the column are in the way. -/
def dropsIncoming : Bool := a.old.isUnique && (a.changesType e || a.old.primaryKey && !a.new.primaryKey)

def dropsUnique : Bool := a.old.unique && !a.old.primaryKey && (!a.new.unique || a.changesType e)

/-- The old field has an index that is no key. -/
def hadIndex : Bool := a.old.indexed && !a.old.unique && a.old.foreignKey.isNone

def dropsIndex : Bool := a.hadIndex && (!a.new.indexed || a.changesType e)

def dropsPrimaryKey : Bool := a.old.primaryKey && (!a.new.primaryKey || a.changesType e)

def dropsChecks : Bool := (a.old.check? e).isSome && a.changesCheck e

/-- The column counts before and after. -/
def keepsCounting : Bool := a.old.type.isAuto && a.new.type.isAuto

/-- Renames the column. Its trigger, which refers to it, is made anew. -/
def renameStatements : List Statement :=
  let s := Sequence.ofTable e a.table
  let table := a.tableIdentifier e
  let rename := [.renameColumn table (Identifier.quote e a.old.column) (a.columnIdentifier e)]
  if !a.renames then []
  else if a.keepsCounting then
    .dropTrigger s.trigger :: rename ++ [.createTrigger s.trigger s.table (a.columnIdentifier e) s.sequence]
  else rename

/-- Blobs are not converted in place: the values move to a new column. -/
def rebuilds : Bool := a.changesType e && (a.old.type.isBlob || a.new.type.isBlob)

/-- The column that takes the values while the old one is dropped. -/
def temporary : Identifier := Identifier.quote e (a.column ++ "_tmp")

def retypeStatements : List Statement :=
  let table := a.tableIdentifier e
  let column := a.columnIdentifier e
  let type := a.new.type.definition e
  if a.rebuilds e then
    [.addColumn table (a.temporary e) (.ofType type), .copyColumn table column (a.temporary e),
      .dropColumn table column, .renameColumn table (a.temporary e) column]
  else if a.changesType e then [.retypeColumn table column type]
  else []

/-- The column may hold no value once it has its type. -/
def isNullableBefore : Bool := a.old.isNullable || a.rebuilds e

/-- Rows without a value get the default. -/
def fills : Bool := a.isNullableBefore e && !a.new.isNullable && a.new.default.isSome

/-- The old default is the same value. -/
def keepsDefault (default : Value) : Bool := a.old.default.any (·.same default)

/-- The default goes to the database, if only for a while. -/
def setsDefault : Bool :=
  a.new.default.any fun default => !a.keepsDefault default || a.fills e || a.rebuilds e && o.keepDbDefaults

def defaultStatements : List Statement :=
  match a.new.default with
  | none => []
  | some default =>
    (if a.setsDefault e o then
      [.setDefault (a.tableIdentifier e) (a.columnIdentifier e) (Literal.ofValue e default)]
    else []) ++
    if a.fills e then [.fillColumn (a.tableIdentifier e) (a.columnIdentifier e) default] else []

def nullabilityStatements : List Statement :=
  if a.isNullableBefore e = a.new.isNullable then []
  else if e.hasNotNullStatement then
    [.setNullable (a.tableIdentifier e) (a.columnIdentifier e) a.new.isNullable]
  else [.setNullFlag (Identifier.catalogName e a.table) (Identifier.catalogName e a.column) a.new.isNullable]

/-- The default does not stay. -/
def dropsDefault : Bool :=
  a.setsDefault e o && !o.keepDbDefaults ||
    o.keepDbDefaults && a.old.default.isSome && a.new.default.isNone

def clearStatements : List Statement :=
  if a.dropsDefault e o then [.dropDefault (a.tableIdentifier e) (a.columnIdentifier e)] else []

/-- All that changes the column itself: its name, its type, its default and whether it may hold no value. -/
def columnStatements : List Statement :=
  a.renameStatements e ++ a.retypeStatements e ++ a.defaultStatements e o ++ a.nullabilityStatements e ++
    a.clearStatements e o

def createsUnique : Bool :=
  a.new.unique && !a.new.primaryKey && (!a.old.unique || a.old.primaryKey || a.dropsUnique e)

def createsIndex : Bool :=
  a.new.indexed && !a.new.unique && a.new.foreignKey.isNone && !(a.hadIndex && !a.changesType e)

def createsPrimaryKey : Bool := a.new.primaryKey && (!a.old.primaryKey || a.dropsPrimaryKey e)

/-- The column becomes the primary key in the place of others. -/
def displacesPrimaryKey : Bool := a.new.primaryKey && !a.old.primaryKey

/-- The statement for a constraint of the column, under its derived name. -/
def constraintStatement (suffix : String) (definition : ConstraintDefinition) : Statement :=
  .addConstraint (a.tableIdentifier e) (Identifier.quote e (Identifier.derivedName e a.table [a.column] suffix))
    definition

def primaryKeyStatements : List Statement :=
  if a.createsPrimaryKey e then [a.constraintStatement e "_pk" (.primaryKey [a.columnIdentifier e])] else []

/-- The column that the incoming keys reference from now on: this one, else the primary key if it is another one. -/
def target? : Option String :=
  if a.new.isUnique then some a.column
  else (a.model.primaryKey?.filter (·.column != a.old.column)).map (·.column)

/-- The foreign key that has to be made. -/
def newForeignKey? : Option ForeignKey :=
  if a.dropsForeignKey e || a.old.foreignKey.isNone then a.new.foreignKey else none

def checkStatements : List Statement :=
  match a.new.check? e with
  | some check => if a.changesCheck e then [a.constraintStatement e "_check" (.ofCondition check)] else []
  | none => []

end Alteration

end FirebirdSql
