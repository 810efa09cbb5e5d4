import FirebirdSql.Statement

/-!
Constraints as they are put aside, and the statements that make them again. Names are those of the catalog.
-/

namespace FirebirdSql.Shadow

structure Constraint where
  name : String
  kind : ConstraintKind
  relationName : String
  indexName : Option String
  /-- The key that a foreign key references. -/
  keyName : Option String
  updateRule : Option String
  deleteRule : Option String
  source : Option String
  columns : List String
  deriving DecidableEq, Repr

/-- A key that a foreign key can reference. -/
structure Key where
  table : String
  columns : List String
  deriving DecidableEq, Repr

/-- What is dropped first has the least rank: a foreign key goes before the unique that it references. -/
def dropRank : ConstraintKind → Nat
  | .foreignKey => 0
  | .check => 1
  | _ => 2

/-- Constraints are made again in the opposite order. -/
def restoreRank (k : ConstraintKind) : Nat := 2 - dropRank k

namespace Constraint

def identifiers (names : List String) : List Identifier := names.map Identifier.ofStored

/-- A check's source as a clause. -/
def checkClause (source : List Char) : ConstraintDefinition :=
  if Text.sameAsciiLetters (source.take 5) "CHECK".toList then .check (.ofList source)
  else .ofCondition (.ofList source)

/-- What the constraint declares, given the key that it references. -/
def definition (c : Constraint) (referenced : Option Key) : Except Error ConstraintDefinition :=
  match c.kind with
  | .unique =>
    if c.columns.isEmpty then .error (.catalogInconsistency (.uniqueWithoutColumns c.name))
    else .ok (.unique (identifiers c.columns))
  | .check =>
    let source := Text.trim (c.source.getD "").toList
    if source.isEmpty then .error (.catalogInconsistency (.checkWithoutSource c.name))
    else .ok (checkClause source)
  | .foreignKey =>
    match referenced with
    | some key =>
      if key.columns.length = c.columns.length then
        .ok (.foreignKey (identifiers c.columns) (.ofStored key.table) (identifiers key.columns)
          (c.updateRule.bind explicitRule?) (c.deleteRule.bind explicitRule?))
      else .error (.catalogInconsistency (.foreignKeyWithoutTarget c.name c.keyName))
    | none => .error (.catalogInconsistency (.foreignKeyWithoutTarget c.name c.keyName))
  | .primaryKey | .index => .error (.notSupported (.shadow c.kind c.name))

/-- The statement that makes the constraint again. -/
def restoreStatement (c : Constraint) (referenced : Option Key) : Except Error Statement :=
  .addConstraint (.ofStored c.relationName) (.ofStored c.name) <$> c.definition referenced

end Constraint

end FirebirdSql.Shadow
