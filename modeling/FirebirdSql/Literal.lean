import FirebirdSql.Engine

/-!
Literals: values written out in a statement. Texts stand between single quotes, and a quote in them is written twice.
-/

namespace FirebirdSql

/-- A value to be written out; whether truth values have literals of their own depends on the engine. -/
structure Literal where
  value : Value
  hasBooleans : Bool
  deriving DecidableEq

namespace Literal

def ofValue (e : Engine) (v : Value) : Literal := ⟨v, e.hasBooleans⟩

/-- Between single quotes, each inner one twice. -/
def quoteText (s : List Char) : List Char := '\'' :: Text.replaceChar '\'' ['\'', '\''] s ++ ['\'']

/-- Four digits of the second, if they are not all zero. -/
def fraction (t : TimeOfDay) : List Char :=
  let n := t.nanosecond % 1000000000 / 100000
  if n = 0 then [] else '.' :: Text.paddedDigits 4 n

def timeChars (t : TimeOfDay) : List Char := t.clockChars ++ fraction t

def chars (l : Literal) : List Char :=
  match l.value with
  | .null => "NULL".toList
  | .bool b =>
    if l.hasBooleans then (if b then "True" else "False").toList else if b then ['1'] else ['0']
  | .int n => Text.signedDigits n
  | .float x => x.text.toList
  | .decimal d => d.text.toList
  | .text s => quoteText s.toList
  | .bytes bs => 'x' :: quoteText (Text.hexOfBytes bs)
  | .date d => quoteText d.chars
  | .time t => quoteText (timeChars t)
  | .timestamp t => quoteText (t.date.chars ++ ' ' :: timeChars t.time)
  | .uuid u => quoteText u.simpleChars

def text (l : Literal) : String := .ofList l.chars

end Literal

/-- The literal of a value for an engine. -/
def Value.literal (e : Engine) (v : Value) : String := (Literal.ofValue e v).text

end FirebirdSql
