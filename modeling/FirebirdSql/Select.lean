import FirebirdSql.Function
import FirebirdSql.Identifier
import FirebirdSql.Page

/-!
Putting a query together from its select list and the clauses after it. An item that names no column is cast, for the
engine could not tell its type from the values alone.
-/

namespace FirebirdSql

structure SelectItem where
  sql : Fragment
  label : Option String

namespace SelectItem

/-- Words that an expression without columns may hold. -/
def columnFreeWords : List (List Char) :=
  ["CASE", "WHEN", "THEN", "ELSE", "END", "NULL", "AND", "OR", "NOT"].map String.toList

def isWordChar (c : Char) : Bool := c.isAlphanum || c == '_' || c == '$'

/-- The words outside of single quotes; `word` is the one that is being read, in reverse. A word that a quote follows
goes on after the closing one, and is none if there is none. -/
def wordsFrom (quoted : Bool) (word : List Char) : List Char → List (List Char)
  | [] => if quoted || word.isEmpty then [] else [word.reverse]
  | c :: rest =>
    if c = '\'' then wordsFrom (!quoted) word rest
    else if quoted then wordsFrom quoted word rest
    else if isWordChar c then wordsFrom quoted (c :: word) rest
    else if word.isEmpty then wordsFrom quoted [] rest
    else word.reverse :: wordsFrom quoted [] rest

def isColumnFreeWord (w : List Char) : Bool :=
  w.all Char.isDigit || columnFreeWords.contains (w.map Char.toUpper)

/-- Values are bound, and no column is named. -/
def isColumnFree (f : Fragment) : Bool :=
  !f.params.isEmpty && !f.template.toList.contains '"' &&
    (wordsFrom false [] f.template.toList).all isColumnFreeWord

def varchar (length : Nat) : String := "VARCHAR(" ++ Text.natText (max length 1) ++ ")"

/-- The type that an item of values only is cast to: wide enough for the longest text, else that of the last value
that is not null. -/
def castType (e : Engine) (params : List Value) : String :=
  match (params.filterMap Value.text?).map String.length with
  | length :: lengths => varchar (lengths.foldl max length)
  | [] =>
    match params.reverse.find? (!·.isNull) with
    | some (.bool _) => if e.hasBooleans then "BOOLEAN" else "SMALLINT"
    | some (.int _) => "BIGINT"
    | some (.float _) => "DOUBLE PRECISION"
    | some (.decimal d) => "DECIMAL(18, " ++ Text.natText d.places ++ ")"
    | some (.date _) => "DATE"
    | some (.time _) => "TIME"
    | some (.timestamp _) => "TIMESTAMP"
    | some (.bytes bs) => varchar bs.length ++ " CHARACTER SET OCTETS"
    | some (.uuid _) => "CHAR(32)"
    | _ => varchar 1

/-- The expression, cast if it names no column. -/
def expression (e : Engine) (f : Fragment) : Fragment :=
  if isColumnFree f then Fragment.sql "CAST(" ++ f ++ Fragment.sql (" AS " ++ castType e f.params ++ ")") else f

def render (e : Engine) (item : SelectItem) : Fragment :=
  match item.label with
  | none => expression e item.sql
  | some label => (expression e item.sql).pushSql (" AS " ++ (Identifier.quote e label).text)

end SelectItem

structure SelectQuery where
  distinct : Bool
  columns : List SelectItem
  /-- All that follows the select list. -/
  tail : Fragment
  page : Page

namespace SelectQuery

/-- The query without its page. -/
def render (e : Engine) (q : SelectQuery) : Fragment :=
  Fragment.sql (if q.distinct then "SELECT DISTINCT " else "SELECT ") ++
    Fragment.join ", " (q.columns.map (·.render e)) ++
    if q.tail.isEmpty then Fragment.sql " FROM RDB$DATABASE" else Fragment.sql " " ++ q.tail

def compile (e : Engine) (noLimit : Option Nat) (q : SelectQuery) : Except Error Fragment :=
  if q.columns.isEmpty then .error (.notSupported .selectWithoutColumns)
  else q.page.compile noLimit (q.render e)

end SelectQuery

end FirebirdSql
