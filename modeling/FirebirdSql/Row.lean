import FirebirdSql.Error

/-!
Fetched rows, and reading their columns as what the caller expects. Names come back padded with blanks.
-/

namespace FirebirdSql

namespace Value

def toText : Value → Except Error String
  | .text s => .ok s
  | .bytes bs =>
    match Text.Utf8.decode bs with
    | .ok s => .ok (.ofList s)
    | .error fault => .error (.conversion (.notUtf8 fault))
  | v => .error (.conversion (.unexpected .text v))

def toInt64 (v : Value) : Except Error Int :=
  match v.int64? with
  | some n => .ok n
  | none => .error (.conversion (.unexpected .integer v))

/-- A whole number within bounds. -/
def toIntBetween (least greatest : Int) (v : Value) : Except Error Int := do
  let n ← v.toInt64
  if n < least then .error (.conversion .tooSmall)
  else if greatest < n then .error (.conversion .tooLarge)
  else .ok n

def toInt32 : Value → Except Error Int := toIntBetween (-0x80000000) 0x7FFFFFFF

def toInt16 : Value → Except Error Int := toIntBetween (-0x8000) 0x7FFF

def toBool : Value → Except Error Bool
  | .bool b => .ok b
  | .int 0 => .ok false
  | .int 1 => .ok true
  | v => .error (.conversion (.unexpected .boolean v))

/-- Nothing for `null`. -/
def toOption (read : Value → Except Error α) : Value → Except Error (Option α)
  | .null => .ok none
  | v => some <$> read v

end Value

structure Row where
  values : List Value
  deriving DecidableEq

namespace Row

def size (r : Row) : Nat := r.values.length

def isEmpty (r : Row) : Bool := r.values.isEmpty

def get (r : Row) (read : Value → Except Error α) (index : Nat) : Except Error α :=
  match r.values[index]? with
  | some v => read v
  | none => .error (.conversion (.columnOutOfRange index))

/-- A name without the blanks around it. -/
def getName (r : Row) (index : Nat) : Except Error String :=
  Text.trimmed <$> r.get Value.toText index

/-- A name that may be missing; one of blanks only is. -/
def getName? (r : Row) (index : Nat) : Except Error (Option String) := do
  let name ← r.get (Value.toOption Value.toText) index
  return (name.map Text.trimmed).filter (· != "")

end Row

end FirebirdSql
