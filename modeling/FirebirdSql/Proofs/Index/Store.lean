import FirebirdSql.Cursor
import FirebirdSql.Proofs.StoredName
import FirebirdSql.Proofs.Subject

/-!
A model of the engine, as far as the columns of a table go, the indexes over them and the primary key. It refuses what
an engine refuses: a name or a column that is there already, a column that is not there, a second primary key.
-/

namespace FirebirdSql

inductive IndexShape where
  | primary
  | unique
  | plain
  deriving DecidableEq

/-- An index, or the primary key with the index below it. -/
structure StoredIndex where
  name : String
  shape : IndexShape
  columns : List String
  deriving DecidableEq

/-- The columns of the table and the indexes over them, by the names that are stored. -/
structure Store where
  columns : List String
  indexes : List StoredIndex
  deriving DecidableEq

namespace Store

/-- The name that the engine gives to a key that is declared with its column. -/
def keyName : String := "INTEG_1"

def empty : Store := ⟨[], []⟩

/-- The store with one more index, unless it is not legal there. -/
def insert (st : Store) (i : StoredIndex) : Option Store :=
  if i.name ∉ st.indexes.map (·.name) ∧ (i.columns ≠ [] ∧ i.columns.Nodup ∧ ∀ c ∈ i.columns, c ∈ st.columns) ∧
      (i.shape = .primary → ∀ j ∈ st.indexes, j.shape ≠ .primary) then
    some { st with indexes := st.indexes ++ [i] }
  else none

def rename (old new : String) (column : String) : String := if column = old then new else column

def renameColumn (st : Store) (old new : String) : Store where
  columns := st.columns.map (rename old new)
  indexes := st.indexes.map fun i => { i with columns := i.columns.map (rename old new) }

def dropColumn (st : Store) (column : String) : Store where
  columns := st.columns.filter (· ≠ column)
  indexes := st.indexes.filter fun i => column ∉ i.columns

def columnKeys (columns : List (Identifier × ColumnDefinition)) : List StoredIndex :=
  (columns.filter (·.2.primaryKey)).map fun c => ⟨keyName, .primary, [c.1.stored]⟩

/-- What a statement about the table makes of it, unless it is refused. -/
def change (st : Store) : Statement → Option Store
  | .createTable _ columns =>
    if st.columns = [] ∧ (columns.map (·.1.stored)).Nodup then
      (columnKeys columns).foldlM insert ⟨columns.map (·.1.stored), []⟩
    else none
  | .dropTable _ => some empty
  | .addColumn _ column definition =>
    if column.stored ∈ st.columns then none
    else
      let added := { st with columns := st.columns ++ [column.stored] }
      if definition.primaryKey then added.insert ⟨keyName, .primary, [column.stored]⟩ else some added
  | .dropColumn _ column => if column.stored ∈ st.columns then some (st.dropColumn column.stored) else none
  | .renameColumn _ old new =>
    if old.stored ∈ st.columns ∧ new.stored ∉ st.columns then some (st.renameColumn old.stored new.stored) else none
  | .createIndex unique name _ columns =>
    st.insert ⟨name.stored, if unique then .unique else .plain, columns.map (·.stored)⟩
  | .addConstraint _ name (.primaryKey columns) => st.insert ⟨name.stored, .primary, columns.map (·.stored)⟩
  | .dropConstraint _ name =>
    some { st with indexes := st.indexes.filter fun i => ¬(i.name = name.stored ∧ i.shape = .primary) }
  | _ => some st

/-- What a statement makes of the table of the given name. An index may be dropped without naming its table. -/
def exec (relation : String) (st : Store) (s : Statement) : Option Store :=
  match s with
  | .dropIndex name =>
    some { st with indexes := st.indexes.filter fun i => ¬(i.name = name.stored ∧ i.shape ≠ .primary) }
  | s => if s.table?.map (·.stored) = some relation then st.change s else some st

end Store

namespace StoredIndex

/-- The row in which the catalog lists a column of the index. -/
def row (i : StoredIndex) (column : String) : Row :=
  let (name, type) : Value × Value :=
    match i.shape with
    | .primary => (.text i.name, .text "PRIMARY KEY")
    | _ => (.null, .null)
  ⟨[name, type, .text i.name, .text column, .int (if i.shape = .plain then 0 else 1), .int 0, .null, .null, .null]⟩

def rows (i : StoredIndex) : List Row := i.columns.map i.row

end StoredIndex

/-- What a call may fail with: anything but a key that is too long. -/
structure Fault where
  report : EngineReport
  fits : (Error.database report).isKeyTooBig = false

/-- The calls that fail, by how many came before them. -/
abbrev Faults : Type := Nat → Option Fault

/-- A connection to the engine, with the rows that are still to be fetched and how often it was called. -/
structure Store.Link where
  store : Store
  rows : List Row
  calls : Nat

namespace Store

/-- The rows that answer a question: those of the table's indexes. -/
def answer (relation : String) (st : Store) : CatalogQuery → List Row
  | .indexes name => if name = relation then st.indexes.flatMap (·.rows) else []
  | _ => []

def refusal : Fault := ⟨⟨-607, 335544351, "unsuccessful metadata update"⟩, by decide +kernel⟩

def execute (relation : String) (s : Statement) : Action Link Unit := fun link =>
  match s with
  | .catalog q => (.ok (), { link with rows := link.store.answer relation q })
  | s =>
    match link.store.exec relation s with
    | some st => (.ok (), { link with store := st, rows := [] })
    | none => (.error (.database refusal.report), { link with rows := [] })

def fetchAll : Action Link (List Row) := fun link => (.ok link.rows, { link with rows := [] })

/-- A call to the engine, unless it fails before the engine does anything. -/
def call (faults : Faults) (x : Action Link α) : Action Link α := fun link =>
  match faults link.calls with
  | some fault => (.error (.database fault.report), { link with calls := link.calls + 1 })
  | none => x { link with calls := link.calls + 1 }

def cursor (faults : Faults) (relation : String) : Cursor Link where
  execute s := call faults (execute relation s)
  fetchOne := call faults do return (← fetchAll).head?
  fetchAll := call faults fetchAll
  start _ := call faults (return ())
  commit := call faults (return ())
  rollback := call faults (return ())
  serverVersion := call faults (return "")

end Store

end FirebirdSql
