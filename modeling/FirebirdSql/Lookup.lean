import FirebirdSql.Scalar

/-!
Lookups: comparing a column with a value or with another expression. Pattern lookups escape the wildcards of what is
looked for, in the value before it is bound, or by the engine where it is an expression.
-/

namespace FirebirdSql

inductive Lookup where
  | exact
  | iexact
  | contains
  | icontains
  | gt
  | gte
  | lt
  | lte
  | startsWith
  | endsWith
  | istartsWith
  | iendsWith
  | regex
  | iregex
  deriving DecidableEq, Repr

/-- What a column is compared with. -/
inductive Operand where
  | value (v : Value)
  | expr (f : Fragment)

namespace Lookup

def ofName? : String → Option Lookup
  | "exact" => some .exact
  | "iexact" => some .iexact
  | "contains" => some .contains
  | "icontains" => some .icontains
  | "gt" => some .gt
  | "gte" => some .gte
  | "lt" => some .lt
  | "lte" => some .lte
  | "startswith" => some .startsWith
  | "endswith" => some .endsWith
  | "istartswith" => some .istartsWith
  | "iendswith" => some .iendsWith
  | "regex" => some .regex
  | "iregex" => some .iregex
  | _ => none

def ofName (name : String) : Except Error Lookup :=
  match ofName? name with
  | some l => .ok l
  | none => .error (.notSupported (.lookup name))

/-- Both sides are compared in upper case. -/
def ignoresCase : Lookup → Bool
  | .iexact | .icontains | .istartsWith | .iendsWith => true
  | _ => false

/-- Where in a pattern the text that is looked for may be preceded or followed by others. -/
inductive Anchor where
  | anywhere
  | start
  | finish
  deriving DecidableEq, Repr

def anchor? : Lookup → Option Anchor
  | .contains | .icontains => some .anywhere
  | .startsWith | .istartsWith => some .start
  | .endsWith | .iendsWith => some .finish
  | _ => none

def isPattern (l : Lookup) : Bool := l.anchor?.isSome

/-- The text of a condition before and after what a column is compared with. -/
def operatorParts (l : Lookup) : String × String :=
  match l with
  | .exact => ("= ", "")
  | .iexact => ("= UPPER(", ")")
  | .gt => ("> ", "")
  | .gte => (">= ", "")
  | .lt => ("< ", "")
  | .lte => ("<= ", "")
  | .regex | .iregex => ("SIMILAR TO ", "")
  | .contains | .startsWith | .endsWith => ("LIKE ", " ESCAPE '\\'")
  | .icontains | .istartsWith | .iendsWith => ("LIKE UPPER(", ") ESCAPE '\\'")

/-- The operator with a placeholder. -/
def operator (l : Lookup) : String := l.operatorParts.1 ++ "?" ++ l.operatorParts.2

/-- Escapes the wildcards of `LIKE` and the escape character itself. -/
def escapeWildcards (s : List Char) : List Char :=
  Text.replaceChar '_' ['\\', '_'] (Text.replaceChar '%' ['\\', '%'] (Text.replaceChar '\\' ['\\', '\\'] s))

/-- The same, computed by the engine. -/
def escapedWildcards (x : α) : Scalar α :=
  .call₃ "REPLACE"
    (.call₃ "REPLACE"
      (.call₃ "REPLACE" (.operand x) (.text "\\") (.text "\\\\"))
      (.text "%") (.text "\\%"))
    (.text "_") (.text "\\_")

/-- The pattern with wildcards around what is looked for. -/
def Anchor.surround : Anchor → List Char → List Char
  | .anywhere, s => '%' :: s ++ ['%']
  | .start, s => s ++ ['%']
  | .finish, s => '%' :: s

/-- The same, computed by the engine. -/
def Anchor.surrounded : Anchor → Scalar α → Scalar α
  | .anywhere, e => .binary (.concat true) (.binary (.concat true) (.text "%") e) (.text "%")
  | .start, e => .binary (.concat true) e (.text "%")
  | .finish, e => .binary (.concat true) (.text "%") e

/-- The pattern that a pattern lookup has the engine compute from an expression. -/
def pattern (l : Lookup) (anchor : Anchor) (x : α) : Scalar α :=
  let escaped := escapedWildcards x
  anchor.surrounded (if l.ignoresCase then .call "UPPER" escaped else escaped)

/-- The operator with an expression. -/
def operatorOn (l : Lookup) (f : Fragment) : Fragment :=
  match l.anchor? with
  | some anchor => Fragment.sql "LIKE " ++ (l.pattern anchor f).render ++ Fragment.sql " ESCAPE '\\'"
  | none => Fragment.sql l.operatorParts.1 ++ f ++ Fragment.sql l.operatorParts.2

/-- The column as it is compared. -/
def castColumn (l : Lookup) (column : Fragment) : Fragment :=
  if l.ignoresCase then (Scalar.call "UPPER" (.operand column)).render else column

/-- The value that is bound: a text in a pattern lookup becomes its pattern. -/
def bound (l : Lookup) (v : Value) : Value :=
  match v, l.anchor? with
  | .text s, some anchor => .text (.ofList (anchor.surround (escapeWildcards s.toList)))
  | v, _ => v

/-- The whole condition. -/
def condition (l : Lookup) (column : Fragment) (right : Operand) : Fragment :=
  l.castColumn column ++ Fragment.sql " " ++
    match right with
    | .expr f => l.operatorOn f
    | .value v => ⟨l.operator, [l.bound v]⟩

end Lookup

end FirebirdSql
