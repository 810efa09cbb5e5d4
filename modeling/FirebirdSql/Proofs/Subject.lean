import FirebirdSql.Statement

/-!
What statements are about: the table that a statement names, and whether it can touch the columns of a table or
what stands in them.
-/

namespace FirebirdSql

namespace Identifier

/-- The identifier of a name of the catalog that needs no quote to be doubled. -/
def ofCatalogName (name : String) : Identifier := ⟨.ofList (delimit name.toList)⟩

theorem quoteChars_delimited (limit : Nat) (name : List Char) :
    delimit (undelimit (quoteChars limit name)) = quoteChars limit name := by
  unfold quoteChars
  split
  · next h =>
    simp only [isDelimited, Bool.and_eq_true, decide_eq_true_eq, beq_iff_eq] at h
    obtain ⟨⟨hl, hh⟩, ht⟩ := h
    obtain ⟨c, rest, rfl⟩ := List.exists_cons_of_length_pos (show 0 < name.length by omega)
    have hr : rest ≠ [] := by
      rintro rfl
      simp at hl
    rw [List.getLast?_cons_of_ne_nil hr, List.getLast?_eq_some_getLast hr] at ht
    have hbody := List.dropLast_concat_getLast hr
    rw [Option.some.inj ht] at hbody
    have hc : c = '"' := by simpa using hh
    simp only [undelimit, delimit, List.drop_succ_cons, List.drop_zero, hc, List.cons_append, hbody]
  · simp [undelimit, delimit]

theorem ofCatalogName_catalogName (e : Engine) (name : String) :
    ofCatalogName (catalogName e name) = quote e name := by
  simp only [ofCatalogName, catalogName, quote, String.toList_ofList, quoteChars_delimited]

end Identifier

namespace Statement

/-- The table that a statement names as what it is about. An index is dropped without its table being named. -/
def table? : Statement → Option Identifier
  | .createTable table _ | .dropTable table | .addColumn table _ _ | .dropColumn table _
  | .renameColumn table _ _ | .retypeColumn table _ _ | .setDefault table _ _ | .dropDefault table _
  | .setNullable table _ _ | .copyColumn table _ _ | .fillColumn table _ _ | .createIndex _ _ table _
  | .createHashIndex _ _ table _ | .addConstraint table _ _ | .dropConstraint table _ | .deleteRows table => some table
  | .setNullFlag table _ _ => some (.ofCatalogName table)
  | _ => none

/-- The statement leaves the columns of all tables, and all that stands in them, as they are. -/
def keepsRows : Statement → Bool
  | .catalog _ | .createIndex .. | .createHashIndex .. | .dropIndex _ | .addConstraint .. | .dropConstraint ..
  | .createSequence _ | .createTrigger .. | .dropSequence _ | .dropTrigger _ | .restartSequence .. | .readSequence _
  | .resetSequence .. => true
  | _ => false

/-- Makes or drops what counts for a table. -/
def counts : Statement → Bool
  | .createSequence _ | .createTrigger .. | .dropSequence _ | .dropTrigger _ => true
  | _ => false

/-- Besides columns and rows it leaves alone what counts for a table: it asks, or it is about indexes and constraints. -/
def isAside (s : Statement) : Bool := s.keepsRows && !s.counts

/-- It adds a foreign key to a table. -/
def isForeignKey : Statement → Bool
  | .addConstraint _ _ (.foreignKey ..) => true
  | _ => false

theorem keepsRows_of_isForeignKey {s : Statement} (h : s.isForeignKey = true) : s.keepsRows = true := by
  cases s <;> first | rfl | cases h

theorem keepsRows_of_isAside {s : Statement} (h : s.isAside = true) : s.keepsRows = true := (Bool.and_eq_true_iff.mp h).1

/-- What counts for a table is made and dropped without the table being named. -/
theorem isAside_of_table? {s : Statement} {table : Identifier} (named : s.table? = some table) (h : s.keepsRows = true) :
    s.isAside = true := by
  cases s <;> first | rfl | exact absurd h Bool.false_ne_true | cases named

theorem isCatalogRead_of_isForeignKey {s : Statement} (h : s.isForeignKey = true) : s.isCatalogRead = false := by
  cases s <;> first | rfl | cases h

def Concerns (e : Engine) (table : String) (s : Statement) : Prop :=
  s.table? = none ∨ s.table? = some (Identifier.quote e table)

theorem concerns_of_none {e : Engine} {table : String} {s : Statement} (h : s.table? = none) :
    s.Concerns e table := .inl h

theorem concerns_of_some {e : Engine} {table : String} {s : Statement}
    (h : s.table? = some (Identifier.quote e table)) : s.Concerns e table := .inr h

end Statement

end FirebirdSql
