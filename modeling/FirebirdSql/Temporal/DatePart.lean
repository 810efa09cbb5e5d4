/-!
The parts of a date or time that can be extracted or truncated to.
-/

namespace FirebirdSql

inductive DatePart where
  | year
  | quarter
  | month
  | week
  | weekDay
  | day
  | hour
  | minute
  | second
  deriving DecidableEq, Repr

namespace DatePart

/-- The part that a lookup names. -/
def ofName? : String → Option DatePart
  | "year" => some .year
  | "quarter" => some .quarter
  | "month" => some .month
  | "week" => some .week
  | "week_day" => some .weekDay
  | "day" => some .day
  | "hour" => some .hour
  | "minute" => some .minute
  | "second" => some .second
  | _ => none

/-- The field name of `EXTRACT`. -/
def keyword : DatePart → String
  | .year => "YEAR"
  | .quarter => "QUARTER"
  | .month => "MONTH"
  | .week => "WEEK"
  | .weekDay => "WEEKDAY"
  | .day => "DAY"
  | .hour => "HOUR"
  | .minute => "MINUTE"
  | .second => "SECOND"

/-- The name in messages. -/
def title : DatePart → String
  | .year => "Year"
  | .quarter => "Quarter"
  | .month => "Month"
  | .week => "Week"
  | .weekDay => "WeekDay"
  | .day => "Day"
  | .hour => "Hour"
  | .minute => "Minute"
  | .second => "Second"

end DatePart

end FirebirdSql
