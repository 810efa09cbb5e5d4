import FirebirdSql.Text.Numeral

/-!
Dates, times of day and their combination. A time whose nanoseconds reach a whole second stands in a leap second.
-/

namespace FirebirdSql

structure Date where
  year : Int
  month : Nat
  day : Nat
  deriving DecidableEq, Repr

structure TimeOfDay where
  hour : Nat
  minute : Nat
  second : Nat
  /-- Below two billion; a leap second counts from one billion on. -/
  nanosecond : Nat
  deriving DecidableEq, Repr

structure Timestamp where
  date : Date
  time : TimeOfDay
  deriving DecidableEq, Repr

def isLeapYear (year : Int) : Bool := year % 4 == 0 && (year % 100 != 0 || year % 400 == 0)

def daysInMonth (year : Int) (month : Nat) : Nat :=
  if month = 2 then (if isLeapYear year then 29 else 28)
  else if month = 4 ∨ month = 6 ∨ month = 9 ∨ month = 11 then 30
  else 31

namespace Date

/-- The date exists in the calendar. -/
def Valid (d : Date) : Prop :=
  1 ≤ d.month ∧ d.month ≤ 12 ∧ 1 ≤ d.day ∧ d.day ≤ daysInMonth d.year d.month

instance (d : Date) : Decidable d.Valid := inferInstanceAs (Decidable (_ ∧ _ ∧ _ ∧ _))

def next (d : Date) : Date :=
  if d.day < daysInMonth d.year d.month then { d with day := d.day + 1 }
  else if d.month < 12 then ⟨d.year, d.month + 1, 1⟩
  else ⟨d.year + 1, 1, 1⟩

def previous (d : Date) : Date :=
  if 1 < d.day then { d with day := d.day - 1 }
  else if 1 < d.month then ⟨d.year, d.month - 1, daysInMonth d.year (d.month - 1)⟩
  else ⟨d.year - 1, 12, 31⟩

/-- Four digits; a year outside of them has a sign. -/
def yearText (year : Int) : List Char :=
  if 0 ≤ year ∧ year ≤ 9999 then Text.paddedDigits 4 year.toNat
  else (if year < 0 then '-' else '+') :: Text.paddedDigits 4 year.natAbs

def chars (d : Date) : List Char :=
  yearText d.year ++ '-' :: Text.paddedDigits 2 d.month ++ '-' :: Text.paddedDigits 2 d.day

def text (d : Date) : String := .ofList d.chars

end Date

namespace TimeOfDay

/-- Hours, minutes and seconds; a leap second is the sixtieth. -/
def clockChars (t : TimeOfDay) : List Char :=
  Text.paddedDigits 2 t.hour ++ ':' :: Text.paddedDigits 2 t.minute ++
    ':' :: Text.paddedDigits 2 (t.second + t.nanosecond / 1000000000)

/-- The fraction in milliseconds, microseconds or nanoseconds, whichever is exact first. -/
def fractionChars (t : TimeOfDay) : List Char :=
  let n := t.nanosecond % 1000000000
  if n = 0 then []
  else if n % 1000000 = 0 then '.' :: Text.paddedDigits 3 (n / 1000000)
  else if n % 1000 = 0 then '.' :: Text.paddedDigits 6 (n / 1000)
  else '.' :: Text.paddedDigits 9 n

def text (t : TimeOfDay) : String := .ofList (t.clockChars ++ t.fractionChars)

/-- The time cut to tenths of a millisecond, the finest the engine stores. -/
def truncate (t : TimeOfDay) : TimeOfDay :=
  { t with nanosecond := t.nanosecond / 100000 * 100000 }

end TimeOfDay

namespace Timestamp

def text (t : Timestamp) : String :=
  .ofList (t.date.chars ++ 'T' :: t.time.clockChars ++ t.time.fractionChars)

def truncate (t : Timestamp) : Timestamp := { t with time := t.time.truncate }

/-- The timestamp at the zero meridian, of one that is local `offset` seconds east of it, less than a day. -/
def toUtc (t : Timestamp) (offset : Int) : Timestamp :=
  let seconds := (t.time.hour * 3600 + t.time.minute * 60 + t.time.second : Int) - offset
  let date :=
    if seconds < 0 then t.date.previous else if 86400 ≤ seconds then t.date.next else t.date
  let clock := (seconds % 86400).toNat
  ⟨date, ⟨clock / 3600, clock / 60 % 60, clock % 60, t.time.nanosecond⟩⟩

end Timestamp

/-- A span of time in whole nanoseconds. -/
structure Duration where
  nanoseconds : Int
  deriving DecidableEq, Repr

namespace Duration

/-- The whole microseconds, what is left over dropped. -/
def microseconds (d : Duration) : Int := d.nanoseconds.tdiv 1000

/-- Seconds with a fraction that has no zeros at its end, as an interval designator. -/
def text (d : Duration) : String :=
  let n := d.nanoseconds.natAbs
  let fraction := ((Text.paddedDigits 9 (n % 1000000000)).reverse.dropWhile (· == '0')).reverse
  let body :=
    if n = 0 then ['P', '0', 'D']
    else ['P', 'T'] ++ Text.digits (n / 1000000000) ++
      (if fraction.isEmpty then [] else '.' :: fraction) ++ ['S']
  .ofList (if d.nanoseconds < 0 then '-' :: body else body)

end Duration

end FirebirdSql
