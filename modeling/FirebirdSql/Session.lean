import FirebirdSql.Editor.Alter
import FirebirdSql.Page
import FirebirdSql.Sequence.Current
import FirebirdSql.Shadow.Store

/-!
A session: a connection whose engine is known, with what was read of its catalog.
-/

namespace FirebirdSql

structure Session (σ : Type) where
  cursor : Cursor σ
  options : Options
  engine : Engine

namespace Session

/-- Takes the engine from the version in the options, else asks the server. -/
def connect (c : Cursor σ) (o : Options) : Action σ (Session σ) := do
  let banner ← match o.serverVersion with
    | some banner => pure banner
    | none => c.serverVersion
  let engine ← Action.lift (Engine.ofBanner banner)
  return ⟨c, o, engine⟩

variable (s : Session σ)

/-- The editor of the session. -/
def editor (collects : Bool) : Editor σ := ⟨s.cursor, s.engine, s.options, collects⟩

def execute (statement : Statement) : Action σ Unit := do
  Action.lift statement.fragment.validate
  s.cursor.executeClassified statement

def query (statement : Statement) : Action σ (List Row) := do
  s.execute statement
  s.cursor.fetchAll

/-- The statement restricted to a page. -/
def paginate (p : Page) (f : Fragment) : Except Error Fragment := p.compile s.options.noLimitValue f

def lastKey (table : String) : Action σ Int := Sequence.lastKey s.cursor s.engine table

/-- Empties tables and restarts sequences. -/
def flush (tables sequences : List String) : Action σ Unit := do
  Action.forEach s.execute (Sequence.flush s.engine tables sequences)
  s.cursor.commit

/-- Moves the sequences of models up to the greatest keys. -/
def resetSequences (models : List Model) : Action σ Unit :=
  Action.forEach (fun statement => do let _ ← s.query statement) (Sequence.resetAll s.engine models)

/-- An action that changes constraints of any table: all that was read is forgotten. -/
def forgetting (x : Action σ α) : Action (Catalog.Cached σ) α := do
  let done ← (Catalog.Cached.onLink x).attempt
  Catalog.Cached.modifyCache fun _ => .empty
  Action.lift done

def disableConstraints : Action (Catalog.Cached σ) Nat := forgetting (Shadow.disable s.cursor s.engine)

def enableConstraints : Action (Catalog.Cached σ) Nat := forgetting (Shadow.enable s.cursor)

end Session

end FirebirdSql
