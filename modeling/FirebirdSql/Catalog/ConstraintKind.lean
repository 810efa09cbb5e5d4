/-!
What a constraint or index enforces.
-/

namespace FirebirdSql

inductive ConstraintKind where
  | primaryKey
  | unique
  | foreignKey
  | check
  | index
  deriving DecidableEq, Repr

namespace ConstraintKind

/-- The kind of a declared constraint, by its type in the catalog. -/
def ofCatalog? : String → Option ConstraintKind
  | "PRIMARY KEY" => some .primaryKey
  | "UNIQUE" => some .unique
  | "FOREIGN KEY" => some .foreignKey
  | "CHECK" => some .check
  | _ => none

/-- The name in messages. -/
def title : ConstraintKind → String
  | .primaryKey => "PrimaryKey"
  | .unique => "Unique"
  | .foreignKey => "ForeignKey"
  | .check => "Check"
  | .index => "Index"

end ConstraintKind

end FirebirdSql
