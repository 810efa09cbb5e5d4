import FirebirdSql.Cursor
import FirebirdSql.Proofs.StoredName
import FirebirdSql.Shadow.Stored

/-!
A model of the engine, as far as constraints go and the two tables in which they are put aside. A statement that the
engine refuses changes nothing. Of all calls at most one fails otherwise, before the engine does anything.
-/

namespace FirebirdSql.Shadow

/-- What happens to a row when the key that it references changes or goes. -/
inductive Rule where
  | restrict
  | noAction
  | cascade
  | setNull
  | setDefault
  deriving DecidableEq

inductive Declaration where
  | primary (columns : List String)
  | unique (columns : List String)
  | check (source : String)
  | foreign (columns : List String) (key : String) (onUpdate onDelete : Rule)
  deriving DecidableEq

/-- A constraint that is in force, under the names that are stored. -/
structure Declared where
  name : String
  relation : String
  declaration : Declaration
  deriving DecidableEq

/-- A row of the table of constraints. -/
structure Aside where
  name : String
  type : String
  relation : String
  index : Option String
  key : Option String
  onUpdate : Option String
  onDelete : Option String
  source : Option String
  deriving DecidableEq

/-- Constraints of all tables, and the rows of the two tables as far as these are there. -/
structure Database where
  declared : List Declared
  asides : Option (List Aside)
  segments : Option (List Segment)
  deriving DecidableEq

/-- What one engine may do otherwise than another: the rule of a key that is declared without one, the name of the
index below a constraint, the order of names, and the errors that are reported. -/
structure Usage where
  rule : Rule
  rule_eq : rule = .restrict ∨ rule = .noAction
  index : Declared → Option String
  precedes : String → String → Bool
  lost : Error
  refusal : Error

/-- Columns come by their constraint and then by position. -/
def Usage.segmentPrecedes (u : Usage) (a b : Segment) : Bool :=
  u.precedes a.constraintName b.constraintName &&
    (!u.precedes b.constraintName a.constraintName || decide (a.position ≤ b.position))

namespace Rule

def text : Rule → String
  | .restrict => "RESTRICT"
  | .noAction => "NO ACTION"
  | .cascade => "CASCADE"
  | .setNull => "SET NULL"
  | .setDefault => "SET DEFAULT"

def ofText? (text : String) : Option Rule :=
  [restrict, noAction, cascade, setNull, setDefault].find? (·.text = text)

end Rule

namespace Declaration

def kind : Declaration → ConstraintKind
  | .primary _ => .primaryKey
  | .unique _ => .unique
  | .check _ => .check
  | .foreign .. => .foreignKey

def columns : Declaration → List String
  | .primary columns | .unique columns | .foreign columns .. => columns
  | .check _ => []

def isKey (d : Declaration) : Bool := d.kind = .primaryKey || d.kind = .unique

def key? : Declaration → Option String
  | .foreign _ key .. => some key
  | _ => none

def rules? : Declaration → Option (Rule × Rule)
  | .foreign _ _ onUpdate onDelete => some (onUpdate, onDelete)
  | _ => none

def source? : Declaration → Option String
  | .check source => some source
  | _ => none

end Declaration

def typeText : ConstraintKind → String
  | .primaryKey => "PRIMARY KEY"
  | .unique => "UNIQUE"
  | .foreignKey => "FOREIGN KEY"
  | .check => "CHECK"
  | .index => ""

def reservedPrefix : String := "DJANGO$"

namespace Declared

def isReserved (relation : String) : Bool := reservedPrefix.toList.isPrefixOf relation.toList

/-- The constraint is one of those that are put aside. -/
def isUser (d : Declared) : Bool := d.declaration.kind != .primaryKey && !isReserved d.relation

def aside (u : Usage) (d : Declared) : Aside where
  name := d.name
  type := typeText d.declaration.kind
  relation := d.relation
  index := u.index d
  key := d.declaration.key?
  onUpdate := d.declaration.rules?.map (·.1.text)
  onDelete := d.declaration.rules?.map (·.2.text)
  source := d.declaration.source?

def segments (d : Declared) : List Segment := d.declaration.columns.zipIdx.map fun c => ⟨d.name, c.2, c.1⟩

end Declared

namespace Database

variable (u : Usage) (db : Database)

def names : List String := db.declared.map (·.name)

def user : List Declared := db.declared.filter (·.isUser)

/-- The rows after one more: it takes the place of the row that is the same by its key. -/
def put (same : α → α → Bool) (rows : List α) (row : α) : List α :=
  if rows.any (same row) then rows.map fun r => if same row r then row else r else rows ++ [row]

def sameAside (a b : Aside) : Bool := a.name = b.name

def sameSegment (a b : Segment) : Bool := a.constraintName = b.constraintName ∧ a.column = b.column

def rule? : Option String → Option Rule
  | none => some u.rule
  | some text => Rule.ofText? text

/-- The key that a foreign key over the columns of a table references. -/
def keyOver? (relation : String) (columns : List String) : Option Declared :=
  db.declared.find? fun k => k.declaration.isKey && k.relation = relation && k.declaration.columns = columns

def declaration? : ConstraintDefinition → Option Declaration
  | .primaryKey columns => some (.primary (columns.map (·.stored)))
  | .unique columns => some (.unique (columns.map (·.stored)))
  | .check source => some (.check source)
  | .foreignKey columns target targetColumns onUpdate onDelete =>
    if columns.length = targetColumns.length then do
      let key ← db.keyOver? target.stored (targetColumns.map (·.stored))
      let onUpdate ← rule? u onUpdate
      let onDelete ← rule? u onDelete
      return .foreign (columns.map (·.stored)) key.name onUpdate onDelete
    else none

def declare (d : Declared) : Database := { db with declared := db.declared ++ [d] }

def isReferenced (name : String) : Bool := db.declared.any (·.declaration.key? = some name)

/-- What a statement makes of the database, unless it is refused. -/
def exec : Statement → Option Database
  | .createConstraintTable _ => if db.asides = none then some { db with asides := some [] } else none
  | .createSegmentTable _ => if db.segments = none then some { db with segments := some [] } else none
  | .captureConstraints =>
    db.asides.map fun rows => { db with asides := some ((db.user.map (·.aside u)).foldl (put sameAside) rows) }
  | .captureSegments =>
    db.segments.map fun rows => { db with segments := some ((db.user.flatMap (·.segments)).foldl (put sameSegment) rows) }
  | .addConstraint table name definition =>
    if name.stored ∈ db.names then none
    else do
      let declaration ← db.declaration? u definition
      -- the columns of a key are those of no other
      if declaration.isKey && (db.keyOver? table.stored declaration.columns).isSome then none
      else some (db.declare ⟨name.stored, table.stored, declaration⟩)
  | .dropConstraint table name =>
    if (∃ d ∈ db.declared, d.name = name.stored ∧ d.relation = table.stored) ∧ !db.isReferenced name.stored then
      some { db with declared := db.declared.filter (·.name ≠ name.stored) }
    else none
  | .deleteRows table =>
    if table.stored = CatalogQuery.constraintTable then db.asides.map fun _ => { db with asides := some [] }
    else if table.stored = CatalogQuery.segmentTable then db.segments.map fun _ => { db with segments := some [] }
    else some db
  | _ => some db

def tableRows (name : String) (rows : Option α) : List Row := if rows.isSome then [⟨[.text name]⟩] else []

def optional : Option String → Value
  | some s => .text s
  | none => .null

def liveRow (d : Declared) : Row := ⟨[.text d.name, .text (typeText d.declaration.kind), .text d.relation]⟩

def asideRow (a : Aside) : Row :=
  ⟨[.text a.name, .text a.type, .text a.relation, optional a.index, optional a.key, optional a.onUpdate,
    optional a.onDelete, optional a.source]⟩

def segmentRow (s : Segment) : Row := ⟨[.text s.constraintName, .text s.column, .int s.position]⟩

def keyRows (d : Declared) : List Row := d.declaration.columns.map fun c => ⟨[.text d.relation, .text c]⟩

/-- The rows that answer a question, unless the table that they are in is not there. -/
def answer : CatalogQuery → Option (List Row)
  | .table name =>
    some (if name = CatalogQuery.constraintTable then tableRows name db.asides
      else if name = CatalogQuery.segmentTable then tableRows name db.segments
      else [])
  | .liveConstraints => some ((db.user.mergeSort fun a b => u.precedes a.name b.name).map liveRow)
  | .storedConstraints => db.asides.map fun rows => (rows.mergeSort fun a b => u.precedes a.name b.name).map asideRow
  | .storedSegments =>
    db.segments.map fun rows => (rows.mergeSort u.segmentPrecedes).map segmentRow
  | .key name => some ((db.declared.filter (·.name = name)).flatMap keyRows)
  | _ => some []

end Database

/-- A connection: what is committed, what the current transaction sees, the rows that are still to be fetched, and how
many calls go well before the one that fails. -/
structure Server where
  committed : Database
  current : Database
  rows : List Row
  failing : Option Nat

namespace Server

variable (u : Usage)

/-- A call, unless it is the one that fails. -/
def call (x : Action Server α) : Action Server α := fun s =>
  match s.failing with
  | none => x s
  | some 0 => (.error u.lost, { s with failing := none })
  | some (n + 1) => x { s with failing := some n }

def execute (statement : Statement) : Action Server Unit := fun s =>
  match statement with
  | .catalog q =>
    match s.current.answer u q with
    | some rows => (.ok (), { s with rows := rows })
    | none => (.error u.refusal, { s with rows := [] })
  | statement =>
    match s.current.exec u statement with
    | some db => (.ok (), { s with current := db, rows := [] })
    | none => (.error u.refusal, { s with rows := [] })

def fetchAll : Action Server (List Row) := fun s => (.ok s.rows, { s with rows := [] })

def cursor : Cursor Server where
  execute s := call u (execute u s)
  fetchOne := call u do return (← fetchAll).head?
  fetchAll := call u fetchAll
  start _ := call u (return ())
  commit := call u (Action.modify fun s => { s with committed := s.current })
  rollback := call u (Action.modify fun s => { s with current := s.committed })
  serverVersion := call u (return "")

end Server

end FirebirdSql.Shadow
