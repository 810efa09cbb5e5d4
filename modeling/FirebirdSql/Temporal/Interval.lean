import FirebirdSql.Fragment

/-!
Intervals split into days, seconds and microseconds, and shifting a date or time by one. Only the greatest of the
three that is not zero takes part in a shift.
-/

namespace FirebirdSql

structure Interval where
  negative : Bool
  days : Int
  seconds : Int
  microseconds : Int
  deriving DecidableEq, Repr

namespace Interval

/-- Splits a duration whose microseconds have 64 signed bits. The magnitude of the least of them has none, and wraps. -/
def ofDuration (d : Duration) : Except Error Interval :=
  let total := d.microseconds
  if total < Value.leastInt64 ∨ Value.greatestInt64 < total then
    .error (.conversion (.intervalOutOfRange d))
  else
    let magnitude := (total.natAbs : Int).bmod 0x10000000000000000
    .ok ⟨decide (total < 0), magnitude.tdiv 86400000000, (magnitude.tmod 86400000000).tdiv 1000000,
      magnitude.tmod 1000000⟩

def isZero (i : Interval) : Bool := i.days == 0 && i.seconds == 0 && i.microseconds == 0

/-- The greatest unit that is not zero, and how many of it. -/
def leading (i : Interval) : Int × String :=
  if i.days ≠ 0 then (i.days, "DAY")
  else if i.seconds ≠ 0 then (i.seconds, "SECOND")
  else (i.microseconds.tdiv 1000, "MILLISECOND")

/-- The sign of a connector. -/
def sign? : String → Option Int
  | "+" => some 1
  | "-" => some (-1)
  | _ => none

/-- `f` shifted by a duration; a duration of no microseconds changes nothing. -/
def shift (connector : String) (f : Fragment) (d : Duration) : Except Error Fragment :=
  match sign? connector with
  | none => .error (.notSupported (.intervalConnector connector))
  | some sign => do
    let i ← ofDuration d
    if i.isZero then return f
    let (count, unit) := i.leading
    let amount := count * (if i.negative then -sign else sign)
    return Fragment.sql ("DATEADD(" ++ Text.intText amount ++ " " ++ unit ++ " TO ") ++ f ++ Fragment.sql ")"

end Interval

end FirebirdSql
