import FirebirdSql.Calendar
import FirebirdSql.Number.Decimal
import FirebirdSql.Number.Shortest
import FirebirdSql.Text.Blank
import FirebirdSql.Text.Quoted
import FirebirdSql.Text.Search
import FirebirdSql.Uuid

/-!
Values that are bound to a statement or fetched from one.
-/

namespace FirebirdSql

inductive Value where
  | null
  | bool (b : Bool)
  /-- A whole number of 64 signed bits. -/
  | int (n : Int)
  | float (x : Binary64)
  | decimal (d : Decimal)
  | text (s : String)
  | bytes (bs : List UInt8)
  | date (d : Date)
  | time (t : TimeOfDay)
  | timestamp (t : Timestamp)
  | uuid (u : Uuid)
  deriving DecidableEq

namespace Value

def isNull (v : Value) : Bool := v matches .null

def text? : Value → Option String
  | .text s => some s
  | _ => none

/-- Equality of values of one kind: numeric for numbers, literal for all else. -/
def same : Value → Value → Bool
  | .float x, .float y => x.same y
  | .decimal c, .decimal d => c.same d
  | v, w => v == w

def leastInt64 : Int := -0x8000000000000000

def greatestInt64 : Int := 0x7FFFFFFFFFFFFFFF

/-- A numeral of 64 signed bits, with blanks around it. -/
def readInt64? (s : String) : Option Int :=
  Text.readBetween? leastInt64 greatestInt64 (Text.trim s.toList)

/-- The whole number that the value stands for. -/
def int64? : Value → Option Int
  | .int n => some n
  | .bool b => some (if b then 1 else 0)
  | .decimal d => if d.isWhole then d.toInt64? else none
  | .text s => readInt64? s
  | _ => none

/-- The value with its kind, as messages show it. -/
def description : Value → String
  | .null => "Null"
  | .bool b => "Bool(" ++ (if b then "true" else "false") ++ ")"
  | .int n => "Int(" ++ Text.intText n ++ ")"
  | .float x => "Float(" ++ x.description ++ ")"
  | .decimal d => "Decimal(" ++ d.text ++ ")"
  | .text s => "Text(" ++ Text.quoted s ++ ")"
  | .bytes bs => "Bytes([" ++ Text.joined ", " (bs.map fun b => Text.natText b.toNat) ++ "])"
  | .date d => "Date(" ++ d.text ++ ")"
  | .time t => "Time(" ++ t.text ++ ")"
  | .timestamp t => "Timestamp(" ++ t.text ++ ")"
  | .uuid u => "Uuid(" ++ u.text ++ ")"

end Value

end FirebirdSql
