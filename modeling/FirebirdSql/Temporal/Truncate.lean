import FirebirdSql.Temporal.Extract

/-!
Truncating a date or time to a part: the parts that stay are put together as text, with the start of the smaller ones,
and the text is cast back. A week starts on the Monday that is reached by going back whole days.
-/

namespace FirebirdSql

/-- The type that a truncation is cast to. -/
inductive TruncTarget where
  | date
  | time
  | timestamp
  deriving DecidableEq, Repr

namespace Truncation

/-- Concatenation of a first expression with the others. -/
def chain (spaced : Bool) (e : Scalar α) (rest : List (Scalar α)) : Scalar α :=
  rest.foldl (.binary (.concat spaced)) e

def field (name : String) (x : α) : Scalar α := .extract name (.operand x)

/-- Seconds without their fraction. -/
def wholeSeconds (x : α) : Scalar α := .call "TRUNC" (field "second" x)

/-- The month in which the quarter starts. -/
def quarterMonth (x : α) : Scalar α :=
  let quarter := .group (.binary .div (.group (.binary .sub (field "month" x) (.number 1))) (.number 3))
  .group (.binary .add (.binary .mul quarter (.number 3)) (.number 1))

/-- The Monday of the week. -/
def monday (x : α) : Scalar α :=
  let back := .call₂ "MOD" (.binary .add (field "WEEKDAY" x) (.number 6)) (.number 7)
  .dateAdd (.negative back) "DAY" (.cast (.operand x) "DATE")

/-- The start of a period of whole days; the text ends in `midnight`. -/
def dayText? (part : DatePart) (midnight : String) (x : α) : Option (Scalar α) :=
  match part with
  | .year => some (chain false (field "year" x) [.text ("-01-01" ++ midnight)])
  | .quarter =>
    some (chain false (field "year" x) [.text "-", quarterMonth x, .text ("-01" ++ midnight)])
  | .month =>
    some (chain false (field "year" x) [.text "-", field "month" x, .text ("-01" ++ midnight)])
  | .day =>
    some (chain false (field "year" x)
      [.text "-", field "month" x, .text "-", field "day" x, .text midnight])
  | .week => some (monday x)
  | _ => none

/-- What comes after a date of the start of an hour, minute or second. -/
def clockTexts? (part : DatePart) (x : α) : Option (List (Scalar α)) :=
  match part with
  | .hour => some [field "hour" x, .text ":00:00"]
  | .minute => some [field "hour" x, .text ":", field "minute" x, .text ":00"]
  | .second => some [field "hour" x, .text ":", field "minute" x, .text ":", wholeSeconds x]
  | _ => none

def ofDate (part : DatePart) (x : α) : Except Error (Scalar α) :=
  match dayText? part "" x with
  | some e => .ok (.cast e "DATE")
  | none => .error (.notSupported (.truncatedDate part))

def ofTime (part : DatePart) (x : α) : Except Error (Scalar α) :=
  match clockTexts? part x with
  | some (hour :: rest) => .ok (.cast (chain true hour rest) "TIME")
  | _ => .error (.notSupported (.truncatedTime part))

def ofTimestamp (part : DatePart) (x : α) : Except Error (Scalar α) :=
  match dayText? part " 00:00:00" x, clockTexts? part x with
  | some e, _ => .ok (.cast e "TIMESTAMP")
  | none, some clock =>
    let date := [.text "-", field "month" x, .text "-", field "day" x, .text " "]
    .ok (.cast (chain false (field "year" x) (date ++ clock)) "TIMESTAMP")
  | none, none => .error (.notSupported .truncatedToWeekDay)

end Truncation

/-- The expression whose value is the start of the period that `x` lies in. -/
def DatePart.truncation (part : DatePart) (target : TruncTarget) (x : α) : Except Error (Scalar α) :=
  match target with
  | .date => Truncation.ofDate part x
  | .time => Truncation.ofTime part x
  | .timestamp => Truncation.ofTimestamp part x

def DatePart.truncate (part : DatePart) (target : TruncTarget) (f : Fragment) : Except Error Fragment :=
  Scalar.render <$> part.truncation target f

namespace Temporal

/-- The date of a timestamp. -/
def castToDate (f : Fragment) : Fragment := (Scalar.cast (.operand f) "DATE").render

/-- The time of day of a timestamp. -/
def castToTime (f : Fragment) : Fragment := (Scalar.cast (.operand f) "TIME").render

/-- The first and last timestamp of a year. -/
def yearTimestamps (year : Int) : List String :=
  [Text.intText year ++ "-01-01 00:00:00", Text.intText year ++ "-12-31 23:59:59.9999"]

/-- The first and last date of a year. -/
def yearDates (year : Int) : List String := [Text.intText year ++ "-01-01", Text.intText year ++ "-12-31"]

end Temporal

end FirebirdSql
