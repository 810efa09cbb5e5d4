import FirebirdSql.Proofs.Calendar
import FirebirdSql.Proofs.Formula.Scalars
import FirebirdSql.Temporal.DatePart

/-!
What formulas over dates and times come to in the engine: whole numbers with a division that truncates, texts that are
joined and cast to dates, fields that are extracted, and days that are added.
-/

namespace FirebirdSql

/-- A value of the engine; what a function takes apart is not one, but passes as one. -/
inductive Datum where
  | int (n : Int)
  | text (s : List Char)
  /-- Seconds, in tenths of a millisecond. -/
  | seconds (n : Nat)
  | date (d : Date)
  | time (t : TimeOfDay)
  | timestamp (t : Timestamp)
  | word (w : List Char)
  | pair (op : Operator) (a b : Datum)
  deriving DecidableEq

namespace Text

/-- The date of year, month and day, which may have leading zeros or not. -/
def readDate? (s : List Char) : Option Date :=
  match (splitAt '-' s).map readNat? with
  | [some year, some month, some day] =>
    let d : Date := ⟨year, month, day⟩
    if d.Valid ∧ 1 ≤ d.year ∧ d.year ≤ 9999 then some d else none
  | _ => none

/-- The time of hours, minutes and seconds. -/
def readTime? (s : List Char) : Option TimeOfDay :=
  match (splitAt ':' s).map readNat? with
  | [some hour, some minute, some second] =>
    let t : TimeOfDay := ⟨hour, minute, second, 0⟩
    if t.Valid then some t else none
  | _ => none

/-- A date with a time after a blank, or at midnight. -/
def readTimestamp? (s : List Char) : Option Timestamp :=
  match splitAt ' ' s with
  | [date] => (readDate? date).map fun d => ⟨d, .midnight⟩
  | [date, time] => (readDate? date).bind fun d => (readTime? time).map fun t => ⟨d, t⟩
  | _ => none

theorem readNat?_signedDigits (n : Nat) : readNat? (signedDigits n) = some n := by
  rw [signedDigits, if_neg (not_lt.mpr (Int.natCast_nonneg n)), Int.natAbs_natCast, readNat?_digits]

variable {first second third : List Char} {i j k : Nat}

/-- Three numerals with a mark between them. -/
theorem map_splitAt_numerals {c : Char} (hc : digitValue? c = none) (h₁ : readNat? first = some i)
    (h₂ : readNat? second = some j) (h₃ : readNat? third = some k) :
    (splitAt c (first ++ c :: (second ++ c :: third))).map readNat? = [some i, some j, some k] := by
  rw [splitAt_append (notMem_of_readNat? h₁ hc), splitAt_append (notMem_of_readNat? h₂ hc),
    splitAt_of_notMem (notMem_of_readNat? h₃ hc)]
  simp [h₁, h₂, h₃]

theorem notMem_numerals {c mark : Char} (h₁ : readNat? first = some i) (h₂ : readNat? second = some j)
    (h₃ : readNat? third = some k) (hc : digitValue? c = none) (other : c ≠ mark) :
    c ∉ first ++ mark :: (second ++ mark :: third) := by
  simp [notMem_of_readNat? h₁ hc, notMem_of_readNat? h₂ hc, notMem_of_readNat? h₃ hc, other]

theorem readDate?_numerals (hy : readNat? first = some i) (hm : readNat? second = some j) (hd : readNat? third = some k)
    (valid : Date.Valid ⟨i, j, k⟩) (early : 1 ≤ i) (late : i ≤ 9999) :
    readDate? (first ++ '-' :: (second ++ '-' :: third)) = some ⟨i, j, k⟩ := by
  rw [readDate?, map_splitAt_numerals rfl hy hm hd]
  exact if_pos ⟨valid, Int.ofNat_le.mpr early, Int.ofNat_le.mpr late⟩

theorem readTime?_numerals (hh : readNat? first = some i) (hm : readNat? second = some j) (hs : readNat? third = some k)
    (valid : TimeOfDay.Valid ⟨i, j, k, 0⟩) :
    readTime? (first ++ ':' :: (second ++ ':' :: third)) = some ⟨i, j, k, 0⟩ := by
  rw [readTime?, map_splitAt_numerals rfl hh hm hs]
  exact if_pos valid

end Text

namespace Datum

def ofValue : Value → Option Datum
  | .int n => some (.int n)
  | .text s => some (.text s.toList)
  | .date d => some (.date d)
  | .time t => some (.time t)
  | .timestamp t => some (.timestamp t)
  | _ => none

/-- The date of a date or timestamp. -/
def date? : Datum → Option Date
  | date d => some d
  | timestamp t => some t.date
  | _ => none

/-- The time of day of a time or timestamp. -/
def time? : Datum → Option TimeOfDay
  | time t => some t
  | timestamp t => some t.time
  | _ => none

/-- The text that is joined with another one; a number is written in decimal. -/
def text? : Datum → Option (List Char)
  | int n => some (Text.signedDigits n)
  | text s => some s
  | seconds n => some (Text.digits (n / 10000) ++ '.' :: Text.paddedDigits 4 (n % 10000))
  | _ => none

/-- The part that a field names, in upper or lower case. -/
def field? (w : List Char) : Option DatePart :=
  [DatePart.year, .month, .day, .weekDay, .hour, .minute, .second].find? fun part =>
    part.keyword.toList = w.map Char.toUpper

/-- The field of a date or time. -/
def extracted? (part : DatePart) (x : Datum) : Option Datum :=
  match part with
  | .year => x.date?.map fun d => int d.year
  | .month => x.date?.map fun d => int d.month
  | .day => x.date?.map fun d => int d.day
  | .weekDay => x.date?.map fun d => int d.weekday
  | .hour => x.time?.map fun t => int t.hour
  | .minute => x.time?.map fun t => int t.minute
  | .second => x.time?.map fun t => seconds (t.second * 10000 + t.nanosecond / 100000)
  | _ => none

def cast? (x : Datum) (type : List Char) : Option Datum :=
  match x, String.ofList type with
  | text s, "DATE" => (Text.readDate? s).map date
  | text s, "TIME" => (Text.readTime? s).map time
  | text s, "TIMESTAMP" => (Text.readTimestamp? s).map timestamp
  | date d, "TIMESTAMP" => some (timestamp ⟨d, .midnight⟩)
  | x, "DATE" => x.date?.map date
  | x, "TIME" => x.time?.map time
  | timestamp t, "TIMESTAMP" => some (timestamp t)
  | _, _ => none

/-- The date some days later, as far as the calendar goes. -/
def shifted? (days : Int) (d : Date) : Option Datum :=
  if 1 ≤ (d.shift days).year ∧ (d.shift days).year ≤ 9999 then some (date (d.shift days)) else none

def negative? : Datum → Option Datum
  | int n => some (int (-n))
  | _ => none

/-- The value of an operation; what divides arguments keeps them apart. -/
def operation? (op : Operator) (a b : Datum) : Option Datum :=
  match op, a, b with
  | .add, int m, int n => some (int (m + n))
  | .sub, int m, int n => some (int (m - n))
  | .mul, int m, int n => some (int (m * n))
  | .div, int m, int n => if n = 0 then none else some (int (m.tdiv n))
  | .concat, a, b => a.text?.bind fun s => b.text?.map fun t => text (s ++ t)
  | .comma, a, b | .ofField, a, b | .asType, a, b => some (pair op a b)
  | .toward _, a, b => some (pair op a b)
  | _, _, _ => none

def call? (function : List Char) (x : Datum) : Option Datum :=
  match String.ofList function, x with
  | "EXTRACT", pair .ofField (word field) x => (field? field).bind fun part => x.extracted? part
  | "CAST", pair .asType x (word type) => x.cast? type
  | "DATEADD", pair (.toward ['D', 'A', 'Y']) (int n) (date d) => shifted? n d
  | "MOD", pair .comma (int m) (int n) => if n = 0 then none else some (int (m.tmod n))
  | "TRUNC", int n => some (int n)
  | "TRUNC", seconds n => some (int (n / 10000 : Nat))
  | _, _ => none

/-- The meaning of formulas in the engine, on a row of columns. -/
def meaning (row : List Char → Option Datum) : Formula.Meaning (Option Datum) where
  column := row
  bound := ofValue
  number n := some (int n)
  text s := some (text s)
  word w := some (word w)
  negative x := x.bind negative?
  operation op x y := x.bind fun a => y.bind fun b => operation? op a b
  call function x := x.bind (call? function)

end Datum

/-- What a fragment comes to on a row. -/
def Fragment.eval? (row : List Char → Option Datum) (f : Fragment) : Option Datum :=
  (Formula.read? f).bind fun e => e.value (Datum.meaning row)

/-- Wherever an argument may stand, the fragment is read as one that comes to a value. -/
def Fragment.Denotes (row : List Char → Option Datum) (f : Fragment) (x : Datum) : Prop :=
  ∃ e : Formula, Formula.Spells f e ∧ e.Grouped ∧ 1 ≤ e.level ∧ e.value (Datum.meaning row) = some x

namespace Fragment.Denotes

variable {row : List Char → Option Datum} {f : Fragment} {x : Datum}

theorem eval? (h : f.Denotes row x) : f.eval? row = some x := by
  obtain ⟨e, spells, grouped, -, value⟩ := h
  rw [Fragment.eval?, spells.read?, Formula.regroup_of_grouped grouped]
  exact value

theorem column (name : String) (h : row name.toList = some x) : (sql (Identifier.ofStored name).text).Denotes row x :=
  ⟨.column name.toList, .column name, trivial, Nat.le_add_left 1 4, h⟩

theorem param {v : Value} (h : Datum.ofValue v = some x) : (Fragment.param v).Denotes row x :=
  ⟨.bound v, .param v, trivial, Nat.le_add_left 1 4, h⟩

end Fragment.Denotes

end FirebirdSql
