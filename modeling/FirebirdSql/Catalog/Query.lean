import FirebirdSql.Fragment

/-!
The questions that are put to the catalog, and their statements. The names that a question is about are bound.
-/

namespace FirebirdSql

inductive CatalogQuery where
  | tables
  | columns (relation : String)
  | columnDefault (relation column : String)
  | indexes (relation : String)
  | checks (relation : String)
  | columnIndexes (relation column : String)
  | incomingKeys (relation column : String)
  | expressionIndexes (relation : String)
  | sequence (name : String)
  | trigger (name : String)
  /-- A table by its name. -/
  | table (name : String)
  /-- The constraints that can be put aside. -/
  | liveConstraints
  /-- The constraints that have been put aside. -/
  | storedConstraints
  /-- Their columns. -/
  | storedSegments
  /-- The table and columns of a key by its name. -/
  | key (constraint : String)
  deriving DecidableEq, Repr

namespace CatalogQuery

/-- All user tables and views, in order of their names. -/
def tablesText : String := r#"
            SELECT r.RDB$RELATION_NAME,
                   CASE WHEN r.RDB$VIEW_BLR IS NULL THEN 0 ELSE 1 END
            FROM RDB$RELATIONS r
            WHERE COALESCE(r.RDB$SYSTEM_FLAG, 0) = 0
              AND r.RDB$RELATION_NAME NOT STARTING WITH 'DJANGO$'
            ORDER BY r.RDB$RELATION_NAME
        "#

/-- The columns of a table in order. -/
def columnsText : String := r#"
            SELECT rf.RDB$FIELD_NAME,
                   f.RDB$FIELD_TYPE,
                   f.RDB$FIELD_SUB_TYPE,
                   f.RDB$FIELD_LENGTH,
                   f.RDB$CHARACTER_LENGTH,
                   f.RDB$FIELD_PRECISION,
                   f.RDB$FIELD_SCALE,
                   rf.RDB$NULL_FLAG,
                   rf.RDB$DEFAULT_SOURCE
            FROM RDB$RELATION_FIELDS rf
            JOIN RDB$FIELDS f ON f.RDB$FIELD_NAME = rf.RDB$FIELD_SOURCE
            WHERE rf.RDB$RELATION_NAME = ?
            ORDER BY rf.RDB$FIELD_POSITION
        "#

/-- The default of a column. -/
def columnDefaultText : String := r#"
            SELECT rf.RDB$DEFAULT_SOURCE
            FROM RDB$RELATION_FIELDS rf
            WHERE rf.RDB$RELATION_NAME = ? AND rf.RDB$FIELD_NAME = ?
        "#

/-- The segments of all indexes of a table, with the constraints that own them and the keys these reference. -/
def indexesText : String := r#"
            SELECT rc.RDB$CONSTRAINT_NAME,
                   rc.RDB$CONSTRAINT_TYPE,
                   i.RDB$INDEX_NAME,
                   s.RDB$FIELD_NAME,
                   i.RDB$UNIQUE_FLAG,
                   i.RDB$INDEX_TYPE,
                   i2.RDB$RELATION_NAME,
                   s2.RDB$FIELD_NAME,
                   i.RDB$EXPRESSION_SOURCE
            FROM RDB$INDICES i
            LEFT JOIN RDB$INDEX_SEGMENTS s ON s.RDB$INDEX_NAME = i.RDB$INDEX_NAME
            LEFT JOIN RDB$RELATION_CONSTRAINTS rc ON rc.RDB$INDEX_NAME = i.RDB$INDEX_NAME
            LEFT JOIN RDB$REF_CONSTRAINTS refc ON refc.RDB$CONSTRAINT_NAME = rc.RDB$CONSTRAINT_NAME
            LEFT JOIN RDB$RELATION_CONSTRAINTS rc2 ON rc2.RDB$CONSTRAINT_NAME = refc.RDB$CONST_NAME_UQ
            LEFT JOIN RDB$INDICES i2 ON i2.RDB$INDEX_NAME = rc2.RDB$INDEX_NAME
            LEFT JOIN RDB$INDEX_SEGMENTS s2 ON s2.RDB$INDEX_NAME = i2.RDB$INDEX_NAME
                  AND s2.RDB$FIELD_POSITION = s.RDB$FIELD_POSITION
            WHERE i.RDB$RELATION_NAME = ?
            ORDER BY i.RDB$INDEX_NAME, s.RDB$FIELD_POSITION
        "#

/-- The checks of a table, with the columns that each depends on. -/
def checksText : String := r#"
            SELECT rc.RDB$CONSTRAINT_NAME, t.RDB$TRIGGER_SOURCE, d.RDB$FIELD_NAME
            FROM RDB$RELATION_CONSTRAINTS rc
            JOIN RDB$CHECK_CONSTRAINTS cc ON cc.RDB$CONSTRAINT_NAME = rc.RDB$CONSTRAINT_NAME
            JOIN RDB$TRIGGERS t ON t.RDB$TRIGGER_NAME = cc.RDB$TRIGGER_NAME
            LEFT JOIN RDB$DEPENDENCIES d ON d.RDB$DEPENDENT_NAME = t.RDB$TRIGGER_NAME
                  AND d.RDB$DEPENDED_ON_NAME = rc.RDB$RELATION_NAME
                  AND d.RDB$FIELD_NAME IS NOT NULL
            WHERE rc.RDB$RELATION_NAME = ?
              AND rc.RDB$CONSTRAINT_TYPE = 'CHECK'
              AND t.RDB$TRIGGER_TYPE = 1
            ORDER BY rc.RDB$CONSTRAINT_NAME
        "#

/-- The indexes on a column that no constraint owns. -/
def columnIndexesText : String := r#"
            SELECT i.RDB$INDEX_NAME
            FROM RDB$INDICES i
            JOIN RDB$INDEX_SEGMENTS s ON s.RDB$INDEX_NAME = i.RDB$INDEX_NAME
            LEFT JOIN RDB$RELATION_CONSTRAINTS rc ON rc.RDB$INDEX_NAME = i.RDB$INDEX_NAME
            WHERE i.RDB$RELATION_NAME = ?
              AND s.RDB$FIELD_NAME = ?
              AND rc.RDB$CONSTRAINT_NAME IS NULL
            ORDER BY i.RDB$INDEX_NAME
        "#

/-- The foreign keys of all tables that reference a column. -/
def incomingKeysText : String := r#"
            SELECT rc.RDB$RELATION_NAME,
                   rc.RDB$CONSTRAINT_NAME,
                   s.RDB$FIELD_NAME,
                   s2.RDB$FIELD_NAME,
                   refc.RDB$UPDATE_RULE,
                   refc.RDB$DELETE_RULE
            FROM RDB$REF_CONSTRAINTS refc
            JOIN RDB$RELATION_CONSTRAINTS rc ON rc.RDB$CONSTRAINT_NAME = refc.RDB$CONSTRAINT_NAME
            JOIN RDB$INDEX_SEGMENTS s ON s.RDB$INDEX_NAME = rc.RDB$INDEX_NAME
            JOIN RDB$RELATION_CONSTRAINTS uq ON uq.RDB$CONSTRAINT_NAME = refc.RDB$CONST_NAME_UQ
            JOIN RDB$INDEX_SEGMENTS s2 ON s2.RDB$INDEX_NAME = uq.RDB$INDEX_NAME
                  AND s2.RDB$FIELD_POSITION = s.RDB$FIELD_POSITION
            WHERE uq.RDB$RELATION_NAME = ? AND s2.RDB$FIELD_NAME = ?
            ORDER BY rc.RDB$RELATION_NAME, rc.RDB$CONSTRAINT_NAME
        "#

/-- The indexes of a table that are computed by an expression. -/
def expressionIndexesText : String := r#"
            SELECT i.RDB$INDEX_NAME, i.RDB$EXPRESSION_SOURCE
            FROM RDB$INDICES i
            WHERE i.RDB$RELATION_NAME = ? AND i.RDB$EXPRESSION_SOURCE IS NOT NULL
            ORDER BY i.RDB$INDEX_NAME
        "#

/-- A sequence by its name. -/
def sequenceText : String := r#"
            SELECT g.RDB$GENERATOR_ID
            FROM RDB$GENERATORS g
            WHERE g.RDB$GENERATOR_NAME = ?
        "#

/-- A trigger by its name. -/
def triggerText : String := r#"
            SELECT t.RDB$TRIGGER_NAME
            FROM RDB$TRIGGERS t
            WHERE t.RDB$TRIGGER_NAME = ?
        "#

/-- A table by its name. -/
def tableText : String := "SELECT r.RDB$RELATION_NAME FROM RDB$RELATIONS r WHERE r.RDB$RELATION_NAME = ?"

/-- The tables that constraints are put aside in. -/
def constraintTable : String := "DJANGO$CONSTRAINT"

def segmentTable : String := "DJANGO$CONSTRAINT_SEGMENT"

/-- Foreign keys, checks and uniques of users' tables, other than those that constraints are put aside in. -/
def userConstraints : String :=
  "rc.RDB$CONSTRAINT_TYPE IN ('FOREIGN KEY', 'CHECK', 'UNIQUE') " ++
    "AND COALESCE(r.RDB$SYSTEM_FLAG, 0) = 0 " ++
    "AND rc.RDB$RELATION_NAME NOT STARTING WITH 'DJANGO$'"

/-- The user's constraints in order of their names. -/
def liveConstraintsText : String := r#"
            SELECT rc.RDB$CONSTRAINT_NAME, rc.RDB$CONSTRAINT_TYPE, rc.RDB$RELATION_NAME
            FROM RDB$RELATION_CONSTRAINTS rc
            JOIN RDB$RELATIONS r ON r.RDB$RELATION_NAME = rc.RDB$RELATION_NAME
            WHERE "# ++ userConstraints ++ r#"
            ORDER BY rc.RDB$CONSTRAINT_NAME
        "#

/-- The constraints that have been put aside. -/
def storedConstraintsText : String := r#"
            SELECT c."NAME", c."TYPE", c."RELATION_NAME", c."INDEX_NAME", c."CONST_NAME_UQ",
                   c."UPDATE_RULE", c."DELETE_RULE", c."SOURCE"
            FROM "DJANGO$CONSTRAINT" c
            ORDER BY c."NAME"
        "#

/-- The columns of the constraints that have been put aside. -/
def storedSegmentsText : String := r#"
            SELECT s."CONSTRAINT_NAME", s."FIELD_NAME", s."POSITION"
            FROM "DJANGO$CONSTRAINT_SEGMENT" s
            ORDER BY s."CONSTRAINT_NAME", s."POSITION"
        "#

/-- The table and columns of a key. -/
def keyText : String := r#"
            SELECT rc.RDB$RELATION_NAME, s.RDB$FIELD_NAME
            FROM RDB$RELATION_CONSTRAINTS rc
            JOIN RDB$INDEX_SEGMENTS s ON s.RDB$INDEX_NAME = rc.RDB$INDEX_NAME
            WHERE rc.RDB$CONSTRAINT_NAME = ?
            ORDER BY s.RDB$FIELD_POSITION
        "#

def fragment : CatalogQuery → Fragment
  | .tables => ⟨tablesText, []⟩
  | .columns relation => ⟨columnsText, [.text relation]⟩
  | .columnDefault relation column => ⟨columnDefaultText, [.text relation, .text column]⟩
  | .indexes relation => ⟨indexesText, [.text relation]⟩
  | .checks relation => ⟨checksText, [.text relation]⟩
  | .columnIndexes relation column => ⟨columnIndexesText, [.text relation, .text column]⟩
  | .incomingKeys relation column => ⟨incomingKeysText, [.text relation, .text column]⟩
  | .expressionIndexes relation => ⟨expressionIndexesText, [.text relation]⟩
  | .sequence name => ⟨sequenceText, [.text name]⟩
  | .trigger name => ⟨triggerText, [.text name]⟩
  | .table name => ⟨tableText, [.text name]⟩
  | .liveConstraints => ⟨liveConstraintsText, []⟩
  | .storedConstraints => ⟨storedConstraintsText, []⟩
  | .storedSegments => ⟨storedSegmentsText, []⟩
  | .key constraint => ⟨keyText, [.text constraint]⟩

end CatalogQuery

end FirebirdSql
