import FirebirdSql.Model.ColumnType
import FirebirdSql.Row

/-!
Values on their way to the engine and back: times are cut to what it stores, and fetched values become what the
column's kind calls for.
-/

namespace FirebirdSql.Value

def notConvertible (v : Value) (target : Target) : Except Error α :=
  .error (.conversion (.notConvertible v target))

def required (v : Value) (target : Target) : Option α → Except Error α
  | some a => .ok a
  | none => notConvertible v target

def decimal? : Value → Option Decimal
  | .decimal d => some d
  | .int n => Decimal.ofInt? n
  | .float x => Decimal.ofBinary64? x
  | .text s => Decimal.read? (Text.trim s.toList)
  | _ => none

/-- The whole number of a number or numeral; a floating-point number is truncated. -/
def wholeNumber? : Value → Option Int
  | .float x => x.toInt64?
  | v => v.int64?

/-- The value as a column of the type holds it. What the kind does not speak of is left as it is. -/
def convert (type : ColumnType) (v : Value) : Except Error Value :=
  match type.kind, v with
  | _, .null => .ok .null
  | .decimal, v => do
    let d ← required v .decimal v.decimal?
    return .decimal (match type.places? with
      | some places => d.rescale places
      | none => d)
  | .boolean, .int 0 => .ok (.bool false)
  | .boolean, .int 1 => .ok (.bool true)
  | .float, .int n => .ok (.float (Binary64.ofInt n))
  | .float, .decimal d => .ok (.float d.toBinary64)
  | .auto, v | .bigAuto, v | .integer, v | .bigInteger, v | .smallInteger, v | .duration, v =>
    match v with
    | .decimal _ | .float _ | .text _ => .int <$> required v .integer v.wholeNumber?
    | v => .ok v
  | .uuid, .text s => .uuid <$> required v .uuid (Uuid.read? (Text.trim s.toList))
  | .binary, .text s => .ok (.bytes (Text.Utf8.encode s.toList))
  | .text, .bytes bs | .char, .bytes bs => .text <$> (Value.bytes bs).toText
  | _, v => .ok v

/-- A timestamp to be bound. -/
def ofTimestamp (t : Timestamp) : Value := .timestamp t.truncate

/-- A time of day to be bound. -/
def ofTime (t : TimeOfDay) : Value := .time t.truncate

/-- A timestamp that is local to `offset` seconds east, if such ones are in use. -/
def ofLocalTimestamp (useTz : Bool) (t : Timestamp) (offset : Int) : Except Error Value :=
  if useTz then .ok (ofTimestamp (t.toUtc offset)) else .error (.conversion .timestampWithOffset)

/-- A time of day carries no date to resolve an offset against. -/
def ofLocalTime (_ : TimeOfDay) (_ : Int) : Except Error Value := .error (.conversion .timeWithOffset)

end FirebirdSql.Value
