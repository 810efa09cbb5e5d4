import FirebirdSql.Identifier

/-!
The types of columns: how they are written in a definition, the check that some of them need, and the kind by which
fetched values are read.
-/

namespace FirebirdSql

inductive ColumnType where
  | auto
  | bigAuto
  | boolean
  | char (maxLength : Nat)
  | text
  | binary
  | date
  | time
  | dateTime
  | decimal (maxDigits places : Nat)
  | float
  | integer
  | bigInteger
  | smallInteger
  | positiveInteger
  | positiveSmallInteger
  | uuid
  /-- Whole microseconds. -/
  | duration
  | genericIpAddress
  deriving DecidableEq, Repr

/-- A type without its parameters. -/
inductive ColumnKind where
  | auto
  | bigAuto
  | boolean
  | char
  | text
  | binary
  | date
  | time
  | dateTime
  | decimal
  | float
  | integer
  | bigInteger
  | smallInteger
  | uuid
  | duration
  deriving DecidableEq, Repr

namespace ColumnType

def kind : ColumnType → ColumnKind
  | .auto => .auto
  | .bigAuto => .bigAuto
  | .boolean => .boolean
  | .char _ | .genericIpAddress => .char
  | .text => .text
  | .binary => .binary
  | .date => .date
  | .time => .time
  | .dateTime => .dateTime
  | .decimal .. => .decimal
  | .float => .float
  | .integer | .positiveInteger => .integer
  | .bigInteger => .bigInteger
  | .smallInteger | .positiveSmallInteger => .smallInteger
  | .uuid => .uuid
  | .duration => .duration

/-- The type as a column definition spells it. -/
def definition (e : Engine) : ColumnType → String
  | .auto | .integer | .positiveInteger => "INTEGER"
  | .bigAuto | .bigInteger | .duration => "BIGINT"
  | .boolean => if e.hasBooleans then "BOOLEAN" else "SMALLINT"
  | .smallInteger | .positiveSmallInteger => "SMALLINT"
  | .char maxLength => "VARCHAR(" ++ Text.natText maxLength ++ ")"
  | .genericIpAddress => "VARCHAR(39)"
  | .text => "BLOB SUB_TYPE 1"
  | .binary => "BLOB SUB_TYPE 0"
  | .date => "DATE"
  | .time => "TIME"
  | .dateTime => "TIMESTAMP"
  | .decimal maxDigits places =>
    "DECIMAL(" ++ Text.natText maxDigits ++ ", " ++ Text.natText places ++ ")"
  | .float => "DOUBLE PRECISION"
  | .uuid => "CHAR(32)"

/-- The condition that the values of a column must meet beyond its type. -/
def check? (e : Engine) (column : String) : ColumnType → Option String
  | .positiveInteger | .positiveSmallInteger => some ((Identifier.quote e column).text ++ " >= 0")
  | .boolean => if e.hasBooleans then none else some ((Identifier.quote e column).text ++ " IN (0,1)")
  | _ => none

def isBlob (t : ColumnType) : Bool := t matches .text | .binary

def isAuto (t : ColumnType) : Bool := t matches .auto | .bigAuto

def places? : ColumnType → Option Nat
  | .decimal _ places => some places
  | _ => none

end ColumnType

end FirebirdSql
