import FirebirdSql.Identifier
import FirebirdSql.Literal
import FirebirdSql.Sequence
import FirebirdSql.Shadow.Text

/-!
Everything that is sent to the engine, as data: what a statement is about can be read off it, and its text is made in
one place.
-/

namespace FirebirdSql

/-- A column's definition after its name. -/
structure ColumnDefinition where
  type : String
  default : Option Literal
  required : Bool
  primaryKey : Bool
  check : Option String
  deriving DecidableEq

/-- What a named constraint declares. -/
inductive ConstraintDefinition where
  | primaryKey (columns : List Identifier)
  | unique (columns : List Identifier)
  | foreignKey (columns : List Identifier) (target : Identifier) (targetColumns : List Identifier)
      (onUpdate onDelete : Option String)
  /-- The whole clause. -/
  | check (source : String)
  deriving DecidableEq

inductive Statement where
  | catalog (query : CatalogQuery)
  | createTable (table : Identifier) (columns : List (Identifier × ColumnDefinition))
  | dropTable (table : Identifier)
  | addColumn (table column : Identifier) (definition : ColumnDefinition)
  | dropColumn (table column : Identifier)
  | renameColumn (table old new : Identifier)
  | retypeColumn (table column : Identifier) (type : String)
  | setDefault (table column : Identifier) (default : Literal)
  | dropDefault (table column : Identifier)
  | setNullable (table column : Identifier) (nullable : Bool)
  /-- Sets a column's nullability in the catalog, where the names are stored ones. -/
  | setNullFlag (table column : String) (nullable : Bool)
  /-- Copies one column into another in every row. -/
  | copyColumn (table source target : Identifier)
  /-- Puts a value in the rows that have none. -/
  | fillColumn (table column : Identifier) (value : Value)
  | createIndex (unique : Bool) (name table : Identifier) (columns : List Identifier)
  /-- An index over the hash of the columns. -/
  | createHashIndex (unique : Bool) (name table : Identifier) (columns : List Identifier)
  | dropIndex (name : Identifier)
  | addConstraint (table name : Identifier) (definition : ConstraintDefinition)
  | dropConstraint (table name : Identifier)
  | createSequence (sequence : Identifier)
  | createTrigger (trigger table column sequence : Identifier)
  | dropSequence (sequence : Identifier)
  | dropTrigger (trigger : Identifier)
  | restartSequence (sequence : Identifier) (value : Int)
  | readSequence (sequence : Identifier)
  | resetSequence (sequence column table : Identifier)
  | deleteRows (table : Identifier)
  | createConstraintTable (limit : Nat)
  | createSegmentTable (limit : Nat)
  | captureConstraints
  | captureSegments
  /-- A statement of the caller. -/
  | custom (fragment : Fragment)
  deriving DecidableEq

namespace ColumnDefinition

def text (d : ColumnDefinition) : String :=
  d.type ++
    (match d.default with
      | some literal => " DEFAULT " ++ literal.text
      | none => "") ++
    (if d.required then " NOT NULL" else "") ++
    (if d.primaryKey then " PRIMARY KEY" else "") ++
    (match d.check with
      | some check => " CHECK (" ++ check ++ ")"
      | none => "")

/-- A column of a type, with nothing declared on it. -/
def ofType (type : String) : ColumnDefinition := ⟨type, none, false, false, none⟩

/-- The definition of a field's column, with its default if that is wanted. -/
def ofField (e : Engine) (f : Field) (withDefault : Bool) : ColumnDefinition where
  type := f.type.definition e
  default := if withDefault then f.default.map (Literal.ofValue e) else none
  required := !f.isNullable
  primaryKey := f.primaryKey
  check := f.check? e

end ColumnDefinition

namespace Statement

def identifiers (is : List Identifier) : String := Text.joined ", " (is.map (·.text))

/-- The expression that a hash index is computed by. -/
def hashSource (columns : List Identifier) : String := "HASH(" ++ Text.joined " || " (columns.map (·.text)) ++ ")"

def ruleText (event : String) : Option String → String
  | some rule => " ON " ++ event ++ " " ++ rule
  | none => ""

end Statement

def ConstraintDefinition.text : ConstraintDefinition → String
  | .primaryKey columns => "PRIMARY KEY (" ++ Statement.identifiers columns ++ ")"
  | .unique columns => "UNIQUE (" ++ Statement.identifiers columns ++ ")"
  | .foreignKey columns target targetColumns onUpdate onDelete =>
    "FOREIGN KEY (" ++ Statement.identifiers columns ++ ") REFERENCES " ++ target.text ++ " (" ++
      Statement.identifiers targetColumns ++ ")" ++ Statement.ruleText "UPDATE" onUpdate ++
      Statement.ruleText "DELETE" onDelete
  | .check source => source

namespace Statement

def alterTable (table : Identifier) (change : String) : String := "ALTER TABLE " ++ table.text ++ " " ++ change

def alterColumn (table column : Identifier) (change : String) : String :=
  alterTable table ("ALTER " ++ column.text ++ " " ++ change)

def createIndexHead (unique : Bool) (name table : Identifier) : String :=
  "CREATE " ++ (if unique then "UNIQUE " else "") ++ "INDEX " ++ name.text ++ " ON " ++ table.text

def nullFlagText (nullable : Bool) : String :=
  "UPDATE RDB$RELATION_FIELDS SET RDB$NULL_FLAG = " ++ (if nullable then "NULL" else "1") ++
    " WHERE RDB$FIELD_NAME = ? AND RDB$RELATION_NAME = ?"

/-- The text of a statement, and the values that are bound to it. -/
def fragment : Statement → Fragment
  | .catalog query => query.fragment
  | .createTable table columns =>
    .sql ("CREATE TABLE " ++ table.text ++ " (" ++
      Text.joined ", " (columns.map fun (column, definition) => column.text ++ " " ++ definition.text) ++ ")")
  | .dropTable table => .sql ("DROP TABLE " ++ table.text)
  | .addColumn table column definition =>
    .sql (alterTable table ("ADD " ++ column.text ++ " " ++ definition.text))
  | .dropColumn table column => .sql (alterTable table ("DROP " ++ column.text))
  | .renameColumn table old new => .sql (alterColumn table old ("TO " ++ new.text))
  | .retypeColumn table column type => .sql (alterColumn table column ("TYPE " ++ type))
  | .setDefault table column default => .sql (alterColumn table column ("SET DEFAULT " ++ default.text))
  | .dropDefault table column => .sql (alterColumn table column "DROP DEFAULT")
  | .setNullable table column nullable =>
    .sql (alterColumn table column ((if nullable then "DROP" else "SET") ++ " NOT NULL"))
  | .setNullFlag table column nullable => ⟨nullFlagText nullable, [.text column, .text table]⟩
  | .copyColumn table source target =>
    .sql ("UPDATE " ++ table.text ++ " SET " ++ target.text ++ " = " ++ source.text)
  | .fillColumn table column value =>
    ⟨"UPDATE " ++ table.text ++ " SET " ++ column.text ++ " = ? WHERE " ++ column.text ++ " IS NULL", [value]⟩
  | .createIndex unique name table columns =>
    .sql (createIndexHead unique name table ++ " (" ++ identifiers columns ++ ")")
  | .createHashIndex unique name table columns =>
    .sql (createIndexHead unique name table ++ " COMPUTED BY (" ++ hashSource columns ++ ")")
  | .dropIndex name => .sql ("DROP INDEX " ++ name.text)
  | .addConstraint table name definition =>
    .sql (alterTable table ("ADD CONSTRAINT " ++ name.text ++ " " ++ definition.text))
  | .dropConstraint table name => .sql (alterTable table ("DROP CONSTRAINT " ++ name.text))
  | .createSequence sequence => .sql (Sequence.createSql sequence)
  | .createTrigger trigger table column sequence =>
    .sql (Sequence.createTriggerSql trigger table column sequence)
  | .dropSequence sequence => .sql (Sequence.dropSql sequence)
  | .dropTrigger trigger => .sql (Sequence.dropTriggerSql trigger)
  | .restartSequence sequence value => .sql (Sequence.restartSql sequence value)
  | .readSequence sequence => .sql (Sequence.currentSql sequence)
  | .resetSequence sequence column table => .sql (Sequence.resetSql sequence column table)
  | .deleteRows table => .sql ("DELETE FROM " ++ table.text)
  | .createConstraintTable limit => .sql (Shadow.createConstraintTableText limit)
  | .createSegmentTable limit => .sql (Shadow.createSegmentTableText limit)
  | .captureConstraints => .sql Shadow.captureConstraintsText
  | .captureSegments => .sql Shadow.captureSegmentsText
  | .custom f => f

/-- The statement reads the catalog and changes nothing. -/
def isCatalogRead : Statement → Bool
  | .catalog _ => true
  | _ => false

/-- The text with its values written out, as it stands in a script. -/
def script (e : Engine) (s : Statement) : String :=
  s.fragment.inlined (fun v => (Literal.ofValue e v).chars) ++ ";"

end Statement

/-- A rule of a foreign key, unless it is what keys without a rule have. -/
def explicitRule? (rule : String) : Option String :=
  if rule = "RESTRICT" ∨ rule = "NO ACTION" then none else some rule

namespace ConstraintDefinition

/-- The clause of a condition. -/
def ofCondition (condition : String) : ConstraintDefinition := .check ("CHECK (" ++ condition ++ ")")

end ConstraintDefinition

/-- The expression of the hash index over the columns of the given names. -/
def Engine.hashSource (e : Engine) (columns : List String) : String :=
  Statement.hashSource (columns.map (Identifier.quote e))

namespace Sequence

/-- The statements that set up the counting of a column. -/
def setUp (e : Engine) (table column : String) : List Statement :=
  let s := ofTable e table
  [.createSequence s.sequence, .createTrigger s.trigger s.table (Identifier.quote e column) s.sequence]

/-- Those for a model, if a field of it counts. -/
def setUpModel (e : Engine) (m : Model) : List Statement :=
  match m.autoField? with
  | some f => setUp e m.table f.column
  | none => []

/-- Moves the sequences of the models up to the greatest keys. -/
def resetAll (e : Engine) (models : List Model) : List Statement :=
  models.filterMap fun m => m.autoField?.map fun f =>
    let s := ofTable e m.table
    .resetSequence s.sequence (Identifier.quote e f.column) s.table

/-- Empties tables, and restarts the sequences of some. -/
def flush (e : Engine) (tables sequences : List String) : List Statement :=
  if tables.isEmpty then []
  else
    tables.map (fun t => .deleteRows (Identifier.quote e t)) ++
      sequences.map fun t => .restartSequence (ofTable e t).sequence 0

end Sequence

end FirebirdSql
