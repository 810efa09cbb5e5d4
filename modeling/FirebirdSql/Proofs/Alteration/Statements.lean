import FirebirdSql.Editor.Alteration

/-!
The forms of the statements by which an alteration changes the column itself.
-/

namespace FirebirdSql.Alteration

/-- A statement about a column of the table, or about the trigger that counts in it. -/
inductive ChangesColumn (e : Engine) (table : String) : Statement → Prop where
  | dropTrigger (trigger : Identifier) : ChangesColumn e table (.dropTrigger trigger)
  | createTrigger (trigger owner column sequence : Identifier) :
    ChangesColumn e table (.createTrigger trigger owner column sequence)
  | add (column : Identifier) (definition : ColumnDefinition) :
    ChangesColumn e table (.addColumn (Identifier.quote e table) column definition)
  | copy (source target : Identifier) : ChangesColumn e table (.copyColumn (Identifier.quote e table) source target)
  | drop (column : Identifier) : ChangesColumn e table (.dropColumn (Identifier.quote e table) column)
  | rename (old new : Identifier) : ChangesColumn e table (.renameColumn (Identifier.quote e table) old new)
  | retype (column : Identifier) (type : String) :
    ChangesColumn e table (.retypeColumn (Identifier.quote e table) column type)
  | setDefault (column : Identifier) (default : Literal) :
    ChangesColumn e table (.setDefault (Identifier.quote e table) column default)
  | dropDefault (column : Identifier) : ChangesColumn e table (.dropDefault (Identifier.quote e table) column)
  | fill (column : Identifier) (value : Value) :
    ChangesColumn e table (.fillColumn (Identifier.quote e table) column value)
  | setNullable (column : Identifier) (nullable : Bool) :
    ChangesColumn e table (.setNullable (Identifier.quote e table) column nullable)
  | setNullFlag (column : String) (nullable : Bool) :
    ChangesColumn e table (.setNullFlag (Identifier.catalogName e table) column nullable)

variable {a : Alteration} {e : Engine} {o : Options} {s : Statement} {P : Statement → Prop}

/-! What holds of all forms of its statements holds of a part -/

theorem forall_renameStatements (drop : ∀ trigger, P (.dropTrigger trigger))
    (rename : ∀ old new, P (.renameColumn (a.tableIdentifier e) old new))
    (create : ∀ trigger owner column sequence, P (.createTrigger trigger owner column sequence)) :
    ∀ s ∈ a.renameStatements e, P s := by
  intro s hs
  unfold renameStatements at hs
  split at hs
  · exact absurd hs List.not_mem_nil
  · split at hs
    · simp only [List.cons_append, List.nil_append, List.mem_cons, List.not_mem_nil, or_false] at hs
      rcases hs with rfl | rfl | rfl
      · exact drop _
      · exact rename _ _
      · exact create _ _ _ _
    · obtain rfl := List.mem_singleton.mp hs
      exact rename _ _

theorem forall_retypeStatements (add : ∀ column type, P (.addColumn (a.tableIdentifier e) column (.ofType type)))
    (copy : ∀ source target, P (.copyColumn (a.tableIdentifier e) source target))
    (drop : ∀ column, P (.dropColumn (a.tableIdentifier e) column))
    (rename : ∀ old new, P (.renameColumn (a.tableIdentifier e) old new))
    (retype : ∀ column type, P (.retypeColumn (a.tableIdentifier e) column type)) :
    ∀ s ∈ a.retypeStatements e, P s := by
  intro s hs
  unfold retypeStatements at hs
  split at hs
  · simp only [List.mem_cons, List.not_mem_nil, or_false] at hs
    rcases hs with rfl | rfl | rfl | rfl
    · exact add _ _
    · exact copy _ _
    · exact drop _
    · exact rename _ _
  · split at hs
    · obtain rfl := List.mem_singleton.mp hs
      exact retype _ _
    · exact absurd hs List.not_mem_nil

theorem forall_defaultStatements (set : ∀ column default, P (.setDefault (a.tableIdentifier e) column default))
    (fill : ∀ column value, P (.fillColumn (a.tableIdentifier e) column value)) :
    ∀ s ∈ a.defaultStatements e o, P s := by
  intro s hs
  unfold defaultStatements at hs
  split at hs
  · exact absurd hs List.not_mem_nil
  · rcases List.mem_append.mp hs with hs | hs
    · split at hs
      · obtain rfl := List.mem_singleton.mp hs
        exact set _ _
      · exact absurd hs List.not_mem_nil
    · split at hs
      · obtain rfl := List.mem_singleton.mp hs
        exact fill _ _
      · exact absurd hs List.not_mem_nil

theorem forall_nullabilityStatements
    (nullable : ∀ column nullable, P (.setNullable (a.tableIdentifier e) column nullable))
    (flag : ∀ column nullable, P (.setNullFlag (Identifier.catalogName e a.table) column nullable)) :
    ∀ s ∈ a.nullabilityStatements e, P s := by
  intro s hs
  unfold nullabilityStatements at hs
  split at hs
  · exact absurd hs List.not_mem_nil
  · split at hs
    · obtain rfl := List.mem_singleton.mp hs
      exact nullable _ _
    · obtain rfl := List.mem_singleton.mp hs
      exact flag _ _

theorem forall_clearStatements (drop : ∀ column, P (.dropDefault (a.tableIdentifier e) column)) :
    ∀ s ∈ a.clearStatements e o, P s := by
  intro s hs
  unfold clearStatements at hs
  split at hs
  · obtain rfl := List.mem_singleton.mp hs
    exact drop _
  · exact absurd hs List.not_mem_nil

theorem changesColumn_of_mem (hs : s ∈ a.columnStatements e o) : ChangesColumn e a.table s := by
  simp only [columnStatements, List.mem_append] at hs
  rcases hs with (((hs | hs) | hs) | hs) | hs
  · exact forall_renameStatements .dropTrigger .rename .createTrigger s hs
  · exact forall_retypeStatements (fun _ _ => .add _ _) .copy .drop .rename .retype s hs
  · exact forall_defaultStatements .setDefault .fill s hs
  · exact forall_nullabilityStatements .setNullable .setNullFlag s hs
  · exact forall_clearStatements .dropDefault s hs

end FirebirdSql.Alteration
