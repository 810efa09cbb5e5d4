import FirebirdSql.Catalog.Reader
import FirebirdSql.Options

/-!
An editor changes the schema by single statements. It sends them to the engine, or only collects them. What was read
of a table is forgotten as soon as a statement about the table was tried.
-/

namespace FirebirdSql

/-- How statements are made and where they go. -/
structure Editor (σ : Type) where
  cursor : Cursor σ
  engine : Engine
  options : Options
  /-- Statements are collected instead of sent. -/
  collects : Bool

/-- A connection that is edited. -/
structure Editor.State (σ : Type) where
  base : Catalog.Cached σ
  collected : List Statement
  /-- What has to wait until all tables are there. -/
  deferred : List Statement

/-- A step of an editor. -/
abbrev Edit (σ α : Type) : Type := Action (Editor.State σ) α

namespace Editor

/-- The state in which an editor starts. -/
def State.ofBase (base : Catalog.Cached σ) : State σ := ⟨base, [], []⟩

/-- An action on the connection and what was read through it. -/
def onBase (x : Action (Catalog.Cached σ) α) : Edit σ α :=
  Action.within (·.base) (fun base s => { s with base := base }) x

def onLink (x : Action σ α) : Edit σ α := onBase (Catalog.Cached.onLink x)

/-- Puts statements off to the end. -/
def defer (ss : List Statement) : Edit σ Unit := Action.modify fun s => { s with deferred := s.deferred ++ ss }

def collect (s : Statement) : Edit σ Unit := Action.modify fun t => { t with collected := t.collected ++ [s] }

variable (ed : Editor σ)

/-- Identifiers of the engine. -/
def quote (name : String) : Identifier := Identifier.quote ed.engine name

def quoteAll (names : List String) : List Identifier := names.map ed.quote

/-- Sends a statement, as a transaction of its own if the options say so. -/
def send (s : Statement) : Action σ Unit :=
  if ed.options.commitAfterDdl then ed.cursor.executeCommitted s else ed.cursor.executeClassified s

def execute (s : Statement) : Edit σ Unit := do
  Action.lift s.fragment.validate
  if ed.collects then collect s else onLink (ed.send s)

/-- Executes a statement about a table, and forgets what was read of it. -/
def run (table : String) (s : Statement) : Edit σ Unit := do
  let done ← (ed.execute s).attempt
  onBase (Catalog.Cached.modifyCache (·.invalidate table))
  Action.lift done

/-- Runs statements about a table, up to the first that fails. -/
def runAll (table : String) (ss : List Statement) : Edit σ Unit := Action.forEach (ed.run table) ss

/-- The connection sees new columns only after a commit, if the options say so. -/
def refresh : Edit σ Unit :=
  if ed.options.persistsOldColumns && !ed.collects then onLink ed.cursor.commit else return ()

/-- Asks the catalog, unless statements are only collected: then the answer is taken as given. -/
def unlessCollecting (given : α) (ask : Edit σ α) : Edit σ α := if ed.collects then return given else ask

/-- The constraints of a table that a condition selects. -/
def constraintsWhere (table : String) (select : Catalog.Constraint → Bool) : Edit σ (List Catalog.Constraint) := do
  let constraints ← onBase (Catalog.Cached.constraints ed.cursor ed.engine table)
  return constraints.filter select

/-- Sends what was put off, and hands out what was collected. -/
def finish : Edit σ (List Statement) := do
  let deferred := (← Action.get).deferred
  Action.modify fun s => { s with deferred := [] }
  Action.forEach ed.execute deferred
  return (← Action.get).collected

end Editor

end FirebirdSql
