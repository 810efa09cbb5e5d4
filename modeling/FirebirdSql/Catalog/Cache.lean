import FirebirdSql.Catalog.Column
import FirebirdSql.Catalog.Constraint

/-!
What has been read of tables, by their names in upper case, until they are altered.
-/

namespace FirebirdSql.Catalog

structure Cache where
  columns : List (String × List Column)
  constraints : List (String × List Constraint)
  deriving DecidableEq, Repr

namespace Cache

def empty : Cache := ⟨[], []⟩

def key (table : String) : String := Text.uppercase table

def columns? (c : Cache) (table : String) : Option (List Column) := c.columns.lookup (key table)

def constraints? (c : Cache) (table : String) : Option (List Constraint) := c.constraints.lookup (key table)

def putColumns (c : Cache) (table : String) (columns : List Column) : Cache :=
  { c with columns := (key table, columns) :: c.columns }

def putConstraints (c : Cache) (table : String) (constraints : List Constraint) : Cache :=
  { c with constraints := (key table, constraints) :: c.constraints }

/-- Forgets what was read of a table. -/
def invalidate (c : Cache) (table : String) : Cache :=
  ⟨c.columns.filter (·.1 != key table), c.constraints.filter (·.1 != key table)⟩

def isCached (c : Cache) (table : String) : Bool :=
  (c.columns? table).isSome || (c.constraints? table).isSome

end Cache

end FirebirdSql.Catalog
