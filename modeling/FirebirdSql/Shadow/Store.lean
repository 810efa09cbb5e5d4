import FirebirdSql.Catalog.Reader
import FirebirdSql.Shadow.Live
import FirebirdSql.Shadow.Stored

/-!
The engine cannot suspend constraints. They are put aside in two tables instead and dropped, and later made again. A
failure between the two leaves them in the tables.
-/

namespace FirebirdSql.Shadow

variable (c : Cursor σ) (e : Engine)

def tableExists (table : String) : Action σ Bool := do
  let rows ← Catalog.ask c (.table table)
  return !rows.isEmpty

/-- Creates the two tables, as far as they are not there. -/
def ensureTables : Action σ Unit := do
  if !(← tableExists c CatalogQuery.constraintTable) then
    c.executeCommitted (.createConstraintTable e.identifierLimit)
  if !(← tableExists c CatalogQuery.segmentTable) then
    c.executeCommitted (.createSegmentTable e.identifierLimit)

/-- Copies all constraints with their columns, in one transaction. -/
def capture : Action σ Unit :=
  c.inTransaction .snapshot do
    c.executeClassified .captureConstraints
    c.executeClassified .captureSegments

def liveConstraints : Action σ (List Live) := do
  let rows ← Catalog.ask c .liveConstraints
  Action.lift (Live.ofRows rows)

/-- Puts the constraints aside and drops them; returns their number. -/
def disable : Action σ Nat := do
  ensureTables c e
  capture c
  let live ← liveConstraints c
  Action.forEach (fun l => c.executeCommitted l.dropStatement) live
  return live.length

/-- The constraints that are put aside. -/
def stored : Action σ (List Constraint) := do
  let rows ← Catalog.ask c .storedConstraints
  let constraints ← Action.lift (Constraint.ofRows rows)
  let rows ← Catalog.ask c .storedSegments
  let segments ← Action.lift (rows.mapM Segment.ofRow)
  return Constraint.assemble constraints segments

/-- The key of a name. -/
def readKey (name : String) : Action σ (Option Key) := do
  let rows ← Catalog.ask c (.key name)
  Action.lift (Key.ofRows rows)

/-- The key that a foreign key references. -/
def referencedKey (constraint : Constraint) : Action σ (Option Key) :=
  match constraint.kind, constraint.keyName with
  | .foreignKey, some name => readKey c name
  | _, _ => return none

def restore (constraint : Constraint) : Action σ Unit := do
  let referenced ← referencedKey c constraint
  let statement ← Action.lift (constraint.restoreStatement referenced)
  c.executeCommitted statement

/-- Makes constraints again, passing over those that fail; returns the number of those that did not. -/
def restoreAll : List Constraint → Action σ Nat
  | [] => return 0
  | constraint :: rest => do
    let done ← (restore c constraint).attempt
    let restored ← restoreAll rest
    return (if done.isOk then 1 else 0) + restored

/-- Makes the constraints again that are put aside, and forgets them. -/
def enable : Action σ Nat := do
  if ← tableExists c CatalogQuery.constraintTable then
    let constraints ← stored c
    let restored ← restoreAll c constraints
    c.executeCommitted (.deleteRows (.ofStored CatalogQuery.segmentTable))
    c.executeCommitted (.deleteRows (.ofStored CatalogQuery.constraintTable))
    return restored
  else return 0

end FirebirdSql.Shadow
