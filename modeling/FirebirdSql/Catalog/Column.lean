import FirebirdSql.Model.ColumnType
import FirebirdSql.Row

/-!
Columns as the catalog describes them. The engine stores decimals as whole numbers and tells blobs apart by a sub
type; both get codes of their own.
-/

namespace FirebirdSql.Catalog

/-- The code of a decimal stored as a whole number, or of a blob, by its sub type. -/
def typeCode (fieldType subType : Int) : Int :=
  if (fieldType = 7 ∨ fieldType = 8 ∨ fieldType = 16) ∧ 0 < subType then 160 + subType
  else if fieldType = 261 then 260 + subType
  else fieldType

/-- The kind of the columns of a code. -/
def kindOfCode? : Int → Option ColumnKind
  | 7 => some .smallInteger
  | 8 => some .integer
  | 10 | 27 => some .float
  | 12 => some .date
  | 13 => some .time
  | 14 | 37 => some .char
  | 16 => some .bigInteger
  | 23 => some .boolean
  | 35 => some .dateTime
  | 40 | 261 => some .text
  | 161 | 162 => some .decimal
  | 260 => some .binary
  | _ => none

structure Column where
  name : String
  fieldType : Int
  subType : Int
  displaySize : Option Int
  internalSize : Int
  precision : Option Int
  scale : Option Int
  nullable : Bool
  defaultSource : Option String
  deriving DecidableEq, Repr

namespace Column

def code (c : Column) : Int := typeCode c.fieldType c.subType

def kind? (c : Column) : Option ColumnKind := kindOfCode? c.code

/-- A default clause without its keyword. -/
def defaultBody (source : String) : String :=
  let s := Text.trim source.toList
  let body := ((Text.dropHead? "DEFAULT".toList s).or (Text.dropHead? "default".toList s)).getD s
  .ofList (Text.trim body)

def optionalInt (r : Row) (index : Nat) : Except Error (Option Int) := r.get (Value.toOption Value.toInt32) index

def ofRow (r : Row) : Except Error Column := do
  let fieldType ← r.get Value.toInt32 1
  let subType ← optionalInt r 2
  let source ← r.get (Value.toOption Value.toText) 8
  let name ← r.getName 0
  let displaySize ← optionalInt r 4
  let internalSize ← optionalInt r 3
  let precision ← optionalInt r 5
  let scale ← optionalInt r 6
  let nullFlag ← optionalInt r 7
  return {
    name := Text.lowercase name
    fieldType := fieldType
    subType := subType.getD 0
    displaySize := displaySize
    internalSize := internalSize.getD 0
    precision := precision
    scale := scale.map (- ·)
    nullable := nullFlag.getD 0 != 1
    defaultSource := source.map defaultBody }

end Column

end FirebirdSql.Catalog
