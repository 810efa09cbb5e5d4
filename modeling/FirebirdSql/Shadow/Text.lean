import FirebirdSql.Catalog.Query

/-!
The statements by which constraints are copied into the two tables that they are put aside in.
-/

namespace FirebirdSql.Shadow

/-- Makes the table of the constraints, with names of at most `limit` characters. -/
def createConstraintTableText (limit : Nat) : String :=
  let n := Text.natText limit
  "CREATE TABLE \"DJANGO$CONSTRAINT\" (\"NAME\" VARCHAR(" ++ n ++ ") NOT NULL PRIMARY KEY, " ++
    "\"TYPE\" VARCHAR(11) NOT NULL, \"RELATION_NAME\" VARCHAR(" ++ n ++ ") NOT NULL, " ++
    "\"INDEX_NAME\" VARCHAR(" ++ n ++ "), \"CONST_NAME_UQ\" VARCHAR(" ++ n ++ "), " ++
    "\"UPDATE_RULE\" VARCHAR(11), \"DELETE_RULE\" VARCHAR(11), \"SOURCE\" BLOB SUB_TYPE 1)"

/-- Makes the table of their columns. -/
def createSegmentTableText (limit : Nat) : String :=
  let n := Text.natText limit
  "CREATE TABLE \"DJANGO$CONSTRAINT_SEGMENT\" (\"CONSTRAINT_NAME\" VARCHAR(" ++ n ++ ") NOT NULL, " ++
    "\"FIELD_NAME\" VARCHAR(" ++ n ++ ") NOT NULL, \"POSITION\" SMALLINT NOT NULL, " ++
    "PRIMARY KEY (\"CONSTRAINT_NAME\", \"FIELD_NAME\"))"

/-- Copies the definition of every constraint, in the place of one of the same name. -/
def captureConstraintsText : String := r#"
            MERGE INTO "DJANGO$CONSTRAINT" dc
            USING (
                SELECT rc.RDB$CONSTRAINT_NAME AS NAME,
                       rc.RDB$CONSTRAINT_TYPE AS CTYPE,
                       rc.RDB$RELATION_NAME AS RELATION_NAME,
                       rc.RDB$INDEX_NAME AS INDEX_NAME,
                       refc.RDB$CONST_NAME_UQ AS CONST_NAME_UQ,
                       refc.RDB$UPDATE_RULE AS UPDATE_RULE,
                       refc.RDB$DELETE_RULE AS DELETE_RULE,
                       (SELECT FIRST 1 t.RDB$TRIGGER_SOURCE
                        FROM RDB$CHECK_CONSTRAINTS cc
                        JOIN RDB$TRIGGERS t ON t.RDB$TRIGGER_NAME = cc.RDB$TRIGGER_NAME
                        WHERE cc.RDB$CONSTRAINT_NAME = rc.RDB$CONSTRAINT_NAME
                          AND t.RDB$TRIGGER_TYPE = 1) AS SOURCE
                FROM RDB$RELATION_CONSTRAINTS rc
                JOIN RDB$RELATIONS r ON r.RDB$RELATION_NAME = rc.RDB$RELATION_NAME
                LEFT JOIN RDB$REF_CONSTRAINTS refc ON refc.RDB$CONSTRAINT_NAME = rc.RDB$CONSTRAINT_NAME
                WHERE "# ++ CatalogQuery.userConstraints ++ r#"
            ) src
            ON dc."NAME" = src.NAME
            WHEN MATCHED THEN UPDATE SET
                dc."TYPE" = src.CTYPE,
                dc."RELATION_NAME" = src.RELATION_NAME,
                dc."INDEX_NAME" = src.INDEX_NAME,
                dc."CONST_NAME_UQ" = src.CONST_NAME_UQ,
                dc."UPDATE_RULE" = src.UPDATE_RULE,
                dc."DELETE_RULE" = src.DELETE_RULE,
                dc."SOURCE" = src.SOURCE
            WHEN NOT MATCHED THEN INSERT
                ("NAME", "TYPE", "RELATION_NAME", "INDEX_NAME", "CONST_NAME_UQ", "UPDATE_RULE", "DELETE_RULE", "SOURCE")
                VALUES (src.NAME, src.CTYPE, src.RELATION_NAME, src.INDEX_NAME, src.CONST_NAME_UQ,
                        src.UPDATE_RULE, src.DELETE_RULE, src.SOURCE)
        "#

/-- Copies their columns. -/
def captureSegmentsText : String := r#"
            MERGE INTO "DJANGO$CONSTRAINT_SEGMENT" ds
            USING (
                SELECT rc.RDB$CONSTRAINT_NAME AS CONSTRAINT_NAME,
                       s.RDB$FIELD_NAME AS FIELD_NAME,
                       s.RDB$FIELD_POSITION AS FIELD_POSITION
                FROM RDB$RELATION_CONSTRAINTS rc
                JOIN RDB$RELATIONS r ON r.RDB$RELATION_NAME = rc.RDB$RELATION_NAME
                JOIN RDB$INDEX_SEGMENTS s ON s.RDB$INDEX_NAME = rc.RDB$INDEX_NAME
                WHERE "# ++ CatalogQuery.userConstraints ++ r#"
            ) src
            ON ds."CONSTRAINT_NAME" = src.CONSTRAINT_NAME AND ds."FIELD_NAME" = src.FIELD_NAME
            WHEN MATCHED THEN UPDATE SET ds."POSITION" = src.FIELD_POSITION
            WHEN NOT MATCHED THEN INSERT ("CONSTRAINT_NAME", "FIELD_NAME", "POSITION")
                VALUES (src.CONSTRAINT_NAME, src.FIELD_NAME, src.FIELD_POSITION)
        "#

end FirebirdSql.Shadow
