import FirebirdSql.Fragment

/-!
Functions whose spelling is the engine's own, arithmetic between expressions, and aggregates.
-/

namespace FirebirdSql

/-- The place of an argument in a pattern. -/
def Fragment.hole : String := "\x7b\x7d"

inductive Function where
  | length (expr : Fragment)
  | lower (expr : Fragment)
  | upper (expr : Fragment)
  | substr (expr pos : Fragment) (len : Option Fragment)
  | concat (args : List Fragment)
  | greatest (args : List Fragment)
  | least (args : List Fragment)
  | coalesce (args : List Fragment)
  | cast (expr : Fragment) (type : String)
  | now
  | random

namespace Function

open Fragment

def name : Function → String
  | .length _ => "CHAR_LENGTH"
  | .lower _ => "LOWER"
  | .upper _ => "UPPER"
  | .substr .. => "SUBSTRING"
  | .concat _ => "CONCAT"
  | .greatest _ => "MAXVALUE"
  | .least _ => "MINVALUE"
  | .coalesce _ => "COALESCE"
  | .cast .. => "CAST"
  | .now => "CURRENT_TIMESTAMP"
  | .random => "RAND"

/-- A call with its arguments between commas. -/
def call (function : String) (args : List Fragment) : Fragment :=
  sql (function ++ "(") ++ join ", " args ++ sql ")"

/-- A call of one argument or more. -/
def callSome (function : String) (args : List Fragment) : Except Error Fragment :=
  if args.isEmpty then .error (.notSupported (.noArguments function)) else .ok (call function args)

def render (f : Function) : Except Error Fragment :=
  match f with
  | .length e | .lower e | .upper e => .ok (call f.name [e])
  | .substr e pos none => .ok (sql "SUBSTRING(" ++ e ++ sql " FROM " ++ pos ++ sql ")")
  | .substr e pos (some len) =>
    .ok (sql "SUBSTRING(" ++ e ++ sql " FROM " ++ pos ++ sql " FOR " ++ len ++ sql ")")
  | .concat args =>
    if args.length < 2 then .error (.notSupported .shortConcatenation) else .ok (join " || " args)
  | .greatest args | .least args | .coalesce args => callSome f.name args
  | .cast e type => .ok (format ("CAST(" ++ hole ++ " AS " ++ type ++ ")") [e])
  | .now => .ok (sql "CURRENT_TIMESTAMP")
  | .random => .ok (sql "RAND()")

end Function

namespace Arithmetic

/-- The function that stands for an operator that the engine does not have. -/
def function? : String → Option String
  | "^" => some "POWER"
  | "%" => some "MOD"
  | "&" => some "BIN_AND"
  | "|" => some "BIN_OR"
  | "#" => some "BIN_XOR"
  | "<<" => some "BIN_SHL"
  | ">>" => some "BIN_SHR"
  | _ => none

/-- Operands with a connector between them, or as arguments of the function that stands for it. -/
def combine (connector : String) (operands : List Fragment) : Fragment :=
  match function? connector with
  | some function => Function.call function operands
  | none => Fragment.join (" " ++ connector ++ " ") operands

end Arithmetic

namespace Aggregate

/-- Aggregates that the engine lacks. -/
def unsupported : List String := ["STDDEV_SAMP", "STDDEV_POP", "VAR_SAMP", "VAR_POP"]

/-- An aggregate over an expression; an average is one of floating-point numbers. -/
def render (function : String) (f : Fragment) (distinct : Bool) : Except Error Fragment :=
  let function := String.ofList (function.toList.map Char.toUpper)
  let distinct := if distinct then "DISTINCT " else ""
  if unsupported.contains function then .error (.notSupported (.aggregate function))
  else if function = "AVG" then
    .ok (Fragment.format ("AVG(" ++ distinct ++ "CAST(" ++ Fragment.hole ++ " AS DOUBLE PRECISION))") [f])
  else .ok (Fragment.format (function ++ "(" ++ distinct ++ Fragment.hole ++ ")") [f])

end Aggregate

end FirebirdSql
