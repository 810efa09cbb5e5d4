import FirebirdSql.Model.ColumnType

/-!
Models: a table with its columns, and the keys and indexes that are declared on them.
-/

namespace FirebirdSql

/-- What happens to a row when the one it references is deleted. -/
inductive OnDelete where
  | noAction
  | cascade
  | setNull
  | setDefault
  deriving DecidableEq, Repr

def OnDelete.keyword : OnDelete → String
  | .noAction => "NO ACTION"
  | .cascade => "CASCADE"
  | .setNull => "SET NULL"
  | .setDefault => "SET DEFAULT"

structure ForeignKey where
  table : String
  column : String
  onDelete : OnDelete
  deriving DecidableEq, Repr

structure Field where
  name : String
  column : String
  type : ColumnType
  null : Bool
  unique : Bool
  primaryKey : Bool
  indexed : Bool
  default : Option Value
  foreignKey : Option ForeignKey
  /-- A condition beside that of the type. -/
  check : Option String
  deriving DecidableEq

namespace Field

/-- A required column of the field's own name, with nothing declared on it. -/
def ofType (name : String) (type : ColumnType) : Field :=
  ⟨name, name, type, false, false, false, false, none, none, none⟩

/-- A key that counts by itself. -/
def autoKey (name : String) : Field := { ofType name .auto with primaryKey := true }

def isUnique (f : Field) : Bool := f.unique || f.primaryKey

/-- The column may hold no value. -/
def isNullable (f : Field) : Bool := f.null && !f.primaryKey

/-- The condition of the type together with the declared one. -/
def check? (e : Engine) (f : Field) : Option String :=
  match f.type.check? e f.column, f.check with
  | some a, some b => some (a ++ " AND (" ++ b ++ ")")
  | some a, none => some a
  | none, b => b

end Field

structure Index where
  name : String
  columns : List String
  deriving DecidableEq, Repr

structure Model where
  table : String
  fields : List Field
  uniqueTogether : List (List String)
  indexTogether : List (List String)
  indexes : List Index
  deriving DecidableEq

namespace Model

/-- The first field of a name or column. -/
def field? (m : Model) (name : String) : Option Field :=
  m.fields.find? fun f => f.name == name || f.column == name

def primaryKey? (m : Model) : Option Field := m.fields.find? (·.primaryKey)

def autoField? (m : Model) : Option Field := m.fields.find? (·.type.isAuto)

end Model

end FirebirdSql
