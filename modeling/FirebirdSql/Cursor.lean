import FirebirdSql.Action
import FirebirdSql.Row
import FirebirdSql.Statement
import FirebirdSql.Transaction

/-!
Cursors: what a connection answers to each call. Nothing is assumed of a cursor, so what is shown of an operation holds
for every engine and every sequence of failures.
-/

namespace FirebirdSql

/-- The calls of a connection whose state is a `σ`. -/
structure Cursor (σ : Type) where
  execute : Statement → Action σ Unit
  fetchOne : Action σ (Option Row)
  fetchAll : Action σ (List Row)
  start : Transaction.Options → Action σ Unit
  commit : Action σ Unit
  rollback : Action σ Unit
  serverVersion : Action σ String

namespace Cursor

/-- Executes a statement and fetches all its rows. -/
def query (c : Cursor σ) (s : Statement) : Action σ (List Row) := do
  c.execute s
  c.fetchAll

/-- Rolls back, whether or not that works. -/
def abandon (c : Cursor σ) : Action σ Unit := do
  let _ ← c.rollback.attempt
  return ()

/-- Commits; what could not be committed is rolled back. -/
def commitOrAbandon (c : Cursor σ) : Action σ Unit := do
  match ← c.commit.attempt with
  | .ok () => return ()
  | .error e =>
    c.abandon
    Action.fail e

/-- Rolls back, a second time if that fails. -/
def rollbackOrAbandon (c : Cursor σ) : Action σ Unit := do
  match ← c.rollback.attempt with
  | .ok () => return ()
  | .error e =>
    c.abandon
    Action.fail e

/-- An action as a transaction of its own. -/
def inTransaction (c : Cursor σ) (o : Transaction.Options) (x : Action σ α) : Action σ α := do
  c.start o
  match ← x.attempt with
  | .ok a =>
    c.commitOrAbandon
    return a
  | .error e =>
    c.abandon
    Action.fail e

/-- Executes a statement; a violated constraint is reported as such. -/
def executeClassified (c : Cursor σ) (s : Statement) : Action σ Unit := do
  match ← (c.execute s).attempt with
  | .ok () => return ()
  | .error e => Action.fail e.classify

/-- Executes a statement as a transaction of its own. -/
def executeCommitted (c : Cursor σ) (s : Statement) : Action σ Unit := do
  let done ← Action.attempt do
    c.execute s
    c.commit
  match done with
  | .ok () => return ()
  | .error e =>
    c.abandon
    Action.fail e.classify

end Cursor

end FirebirdSql
