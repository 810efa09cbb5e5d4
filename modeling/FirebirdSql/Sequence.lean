import FirebirdSql.Model

/-!
Sequences: a column that counts by itself has a sequence, and a trigger that draws from it. The names are derived from
the table's.
-/

namespace FirebirdSql

/-- The objects behind the counting column of a table. -/
structure Sequence where
  table : Identifier
  sequence : Identifier
  trigger : Identifier
  procedure : Identifier
  deriving DecidableEq, Repr

namespace Sequence

/-- The part of the names before their endings. -/
def stem (e : Engine) (table : String) : String :=
  .ofList (Identifier.cut (e.identifierLimit - 3) (Text.upper table.toList))

def ofTable (e : Engine) (table : String) : Sequence :=
  let stem := stem e table
  ⟨Identifier.quote e table, Identifier.quote e (stem ++ "_SQ"), Identifier.quote e (stem ++ "_PK"),
    Identifier.quote e (stem ++ "_RS")⟩

/-- A name without the quotes at its ends. -/
def unquoted (i : Identifier) : String :=
  .ofList ((i.text.toList.dropWhile (· == '"')).reverse.dropWhile (· == '"')).reverse

/-- The sequence's name as the catalog stores it. -/
def sequenceCatalogName (s : Sequence) : String := unquoted s.sequence

/-- The trigger's name as the catalog stores it. -/
def triggerCatalogName (s : Sequence) : String := unquoted s.trigger

def lines (ls : List String) : String := Text.joined "\n" ls

def createSql (sequence : Identifier) : String := "CREATE SEQUENCE " ++ sequence.text

/-- The trigger fills the column where an insertion leaves it out. -/
def createTriggerSql (trigger table column sequence : Identifier) : String :=
  lines [
    "CREATE TRIGGER " ++ trigger.text ++ " FOR " ++ table.text,
    "BEFORE INSERT AS",
    "BEGIN",
    "   IF (new." ++ column.text ++ " IS NULL) THEN",
    "      new." ++ column.text ++ " = NEXT VALUE FOR " ++ sequence.text ++ ";",
    "END"]

def dropSql (sequence : Identifier) : String := "DROP SEQUENCE " ++ sequence.text

def dropTriggerSql (trigger : Identifier) : String := "DROP TRIGGER " ++ trigger.text

def restartSql (sequence : Identifier) (value : Int) : String :=
  "ALTER SEQUENCE " ++ sequence.text ++ " RESTART WITH " ++ Text.intText value

def currentSql (sequence : Identifier) : String := "SELECT GEN_ID(" ++ sequence.text ++ ", 0) FROM RDB$DATABASE"

/-- Moves the sequence by what is missing to the greatest key. -/
def advance (sequence column : Identifier) : String :=
  "SELECT GEN_ID(" ++ sequence.text ++ ", COALESCE(MAX(" ++ column.text ++ "), 0) - GEN_ID(" ++ sequence.text ++
    ", 0))"

def resetSql (sequence column table : Identifier) : String :=
  advance sequence column ++ " FROM " ++ table.text

/-- The same through a procedure that is made, run and dropped. -/
def resetProcedureSql (s : Sequence) (column : Identifier) : List String :=
  [lines [
      "CREATE PROCEDURE " ++ s.procedure.text,
      "AS",
      "DECLARE VARIABLE start_value BIGINT;",
      "BEGIN",
      "   " ++ advance s.sequence column,
      "   FROM " ++ s.table.text ++ " INTO :start_value;",
      "   EXECUTE STATEMENT 'ALTER SEQUENCE " ++ s.sequence.text ++ " RESTART WITH ' || :start_value;",
      "END"],
    "EXECUTE PROCEDURE " ++ s.procedure.text,
    "DROP PROCEDURE " ++ s.procedure.text]

end Sequence

end FirebirdSql
