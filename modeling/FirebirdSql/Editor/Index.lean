import FirebirdSql.Editor.Basic

/-!
Indexes. A key that is too long for the engine is indexed by its hash. The indexes that models declare by their
columns have derived names; they are found again by the columns.
-/

namespace FirebirdSql.Editor

/-- What a derived index name ends in. -/
def indexSuffix (unique : Bool) : String := if unique then "_uniq" else "_idx"

variable (ed : Editor σ)

/-- The statement that drops a constraint or index of a table. -/
def dropStatement (table : String) (c : Catalog.Constraint) : Statement :=
  match c.kind with
  | .index => .dropIndex (ed.quote c.name)
  | _ => .dropConstraint (ed.quote table) (ed.quote c.name)

def dropConstraint (table : String) (c : Catalog.Constraint) : Edit σ Unit := ed.run table (ed.dropStatement table c)

/-- Drops the constraints of a table that a condition selects. -/
def dropWhere (table : String) (select : Catalog.Constraint → Bool) : Edit σ Unit := do
  let found ← ed.constraintsWhere table select
  Action.forEach (ed.dropConstraint table) found

def createIndex (table name : String) (columns : List String) (unique : Bool) : Edit σ Unit := do
  let direct := Statement.createIndex unique (ed.quote name) (ed.quote table) (ed.quoteAll columns)
  match ← (ed.run table direct).attempt with
  | .ok () => return ()
  | .error e =>
    if e.isKeyTooBig then
      ed.run table (.createHashIndex unique (ed.quote name) (ed.quote table) (ed.quoteAll columns))
    else Action.fail e

/-- Creates the index over some columns under its derived name. -/
def createDerivedIndex (table : String) (columns : List String) (unique : Bool) : Edit σ Unit :=
  ed.createIndex table (Identifier.derivedName ed.engine table columns (indexSuffix unique)) columns unique

/-- The constraint is an index over just these columns, unique or not. -/
def isIndexOver (columns : List String) (unique : Bool) (c : Catalog.Constraint) : Bool :=
  c.covers columns &&
    match c.kind with
    | .unique => unique
    | .index => c.unique == unique
    | _ => false

/-- Drops the indexes over just these columns, else the one over their hash. -/
def dropIndexOver (table : String) (columns : List String) (unique : Bool) : Edit σ Unit := do
  let found ← ed.constraintsWhere table (isIndexOver columns unique)
  if found.isEmpty then
    match ← onLink (Catalog.expressionIndex? ed.cursor ed.engine table (ed.engine.hashSource columns)) with
    | some name => ed.run table (.dropIndex (ed.quote name))
    | none => Action.fail (.catalogInconsistency (.missingIndex unique table columns))
  else Action.forEach (ed.dropConstraint table) found

def addIndex (model : Model) (index : Index) : Edit σ Unit :=
  ed.createIndex model.table index.name index.columns false

def removeIndex (model : Model) (index : Index) : Edit σ Unit :=
  ed.run model.table (.dropIndex (ed.quote index.name))

/-- Replaces the column lists that a model indexes together. -/
def alterTogether (unique : Bool) (model : Model) (old new : List (List String)) : Edit σ Unit := do
  Action.forEach (ed.dropIndexOver model.table · unique) (old.filter (!new.contains ·))
  Action.forEach (ed.createDerivedIndex model.table · unique) (new.filter (!old.contains ·))

def alterUniqueTogether : Model → List (List String) → List (List String) → Edit σ Unit := ed.alterTogether true

def alterIndexTogether : Model → List (List String) → List (List String) → Edit σ Unit := ed.alterTogether false

end FirebirdSql.Editor
