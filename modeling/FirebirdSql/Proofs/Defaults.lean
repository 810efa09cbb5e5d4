import FirebirdSql.Proofs.Alteration.Statements
import FirebirdSql.Proofs.Columns
import FirebirdSql.Proofs.QuotedName

/-!
The defaults that columns have in the database, as statements give and take them. The statements by which an alteration
changes a column take back the default that they give, unless it is to stay.
-/

namespace FirebirdSql

/-- Which columns have a default. -/
abbrev Defaults : Type := Place → Bool

namespace Defaults

/-- No column has one. -/
def none : Defaults := fun _ => false

/-- Just one column has one. -/
def only (p : Place) : Defaults := (· == p)

/-- The catalog knows of a default under the stored names of a table and a column. -/
def Has (d : Defaults) (relation column : String) : Prop :=
  ∃ p : Place, d p = true ∧ p.table.denoted? = some relation ∧ p.column.denoted? = some column

theorem only_ne_none (p : Place) : only p ≠ none := fun same => absurd (congrFun same p) (by simp [only, none])

theorem has_only {p : Place} {relation column : String} :
    (only p).Has relation column ↔ p.table.denoted? = some relation ∧ p.column.denoted? = some column := by
  constructor
  · rintro ⟨q, there, names⟩
    obtain rfl : q = p := beq_iff_eq.mp there
    exact names
  · exact fun names => ⟨p, beq_self_eq_true p, names⟩

end Defaults

theorem ColumnDefinition.ofField_default (e : Engine) (f : Field) :
    (ofField e f true).default.isSome = f.default.isSome := Option.isSome_map

namespace Statement

/-- The columns that have a default after the statement. A statement of the caller counts as one that leaves defaults
alone, and a column that is copied gets none. -/
def defaultsAfter (d : Defaults) : Statement → Defaults
  | .createTable table columns => fun p =>
    if p.table = table then columns.any fun c => c.1 == p.column && c.2.default.isSome else d p
  | .dropTable table => fun p => d p && p.table != table
  | .addColumn table column definition => fun p => if p = ⟨table, column⟩ then definition.default.isSome else d p
  | .dropColumn table column | .dropDefault table column => fun p => d p && p != ⟨table, column⟩
  | .renameColumn table old new => fun p =>
    if p = ⟨table, new⟩ then d ⟨table, old⟩ else d p && p != ⟨table, old⟩
  | .setDefault table column _ => fun p => d p || p == ⟨table, column⟩
  | _ => d

/-- The statement declares a default. -/
def givesDefault : Statement → Bool
  | .createTable _ columns => columns.any (·.2.default.isSome)
  | .addColumn _ _ definition => definition.default.isSome
  | .setDefault .. => true
  | _ => false

theorem defaultsAfter_of_keepsRows {s : Statement} (h : s.keepsRows = true) (d : Defaults) : s.defaultsAfter d = d := by
  cases s <;> first | rfl | cases h

/-- Where there is no default, only the statements that declare one make one. -/
theorem defaultsAfter_none_iff {s : Statement} : s.defaultsAfter .none = .none ↔ s.givesDefault = false := by
  cases s with
  | createTable table columns =>
    constructor
    · intro after
      refine List.any_eq_false.mpr fun c hc gives => ?_
      have at_column := congrFun after ⟨table, c.1⟩
      simp only [defaultsAfter, if_true, Defaults.none, List.any_eq_false] at at_column
      exact at_column c hc (by simp [gives])
    · intro declares
      funext p
      have without := List.any_eq_false.mp declares
      simp only [defaultsAfter, Defaults.none, ite_eq_right_iff, List.any_eq_false]
      intro _ c hc there
      exact without c hc (Bool.and_eq_true_iff.mp there).2
  | addColumn table column definition =>
    constructor
    · intro after
      exact (if_pos rfl).symm.trans (congrFun after ⟨table, column⟩)
    · intro declares
      funext p
      exact ite_eq_right_iff.mpr fun _ => declares
  | setDefault table column literal =>
    refine ⟨fun after => ?_, fun h => absurd h (by simp [givesDefault])⟩
    have at_column := congrFun after ⟨table, column⟩
    simp [defaultsAfter, Defaults.none] at at_column
  | renameColumn table old new =>
    refine ⟨fun _ => rfl, fun _ => funext fun p => ?_⟩
    simp [defaultsAfter, Defaults.none]
  | _ => exact ⟨fun _ => rfl, fun _ => rfl⟩

theorem foldl_defaultsAfter_none {ss : List Statement} (h : ∀ s ∈ ss, s.givesDefault = false) :
    ss.foldl defaultsAfter .none = .none := by
  induction ss with
  | nil => rfl
  | cons s ss ih =>
    rw [List.foldl_cons, defaultsAfter_none_iff.mpr (h s List.mem_cons_self)]
    exact ih fun t ht => h t (List.mem_cons_of_mem s ht)

theorem addColumn_none {table column : Identifier} {definition : ColumnDefinition}
    (h : definition.default.isSome = true) :
    (Statement.addColumn table column definition).defaultsAfter .none = .only ⟨table, column⟩ := by
  funext p
  simp only [defaultsAfter, h, Defaults.only]
  by_cases there : p = ⟨table, column⟩
  · rw [if_pos there, there, beq_self_eq_true]
  · rw [if_neg there, beq_false_of_ne there]
    rfl

theorem setDefault_none (table column : Identifier) (default : Literal) :
    (Statement.setDefault table column default).defaultsAfter .none = .only ⟨table, column⟩ :=
  funext fun _ => Bool.false_or _

theorem dropDefault_only (table column : Identifier) :
    (Statement.dropDefault table column).defaultsAfter (.only ⟨table, column⟩) = .none :=
  funext fun _ => Bool.and_not_self _

end Statement

namespace Alteration

open Statement (defaultsAfter)

variable {a : Alteration} {e : Engine} {o : Options}

theorem renameStatements_give : ∀ s ∈ a.renameStatements e, s.givesDefault = false :=
  forall_renameStatements (fun _ => rfl) (fun _ _ => rfl) fun _ _ _ _ => rfl

/-- A column that is rebuilt is declared without its default. -/
theorem retypeStatements_give : ∀ s ∈ a.retypeStatements e, s.givesDefault = false :=
  forall_retypeStatements (fun _ _ => rfl) (fun _ _ => rfl) (fun _ => rfl) (fun _ _ => rfl) fun _ _ => rfl

/-- The default is given to the column under its new name, if at all. -/
theorem foldl_defaultStatements : (a.defaultStatements e o).foldl defaultsAfter .none =
    if a.setsDefault e o then .only ⟨a.tableIdentifier e, a.columnIdentifier e⟩ else .none := by
  have filled (d : Defaults) (default : Value) :
      (if a.fills e then [Statement.fillColumn (a.tableIdentifier e) (a.columnIdentifier e) default] else []).foldl
        defaultsAfter d = d := by
    split <;> rfl
  rw [defaultStatements]
  cases given : a.new.default with
  | none => rw [setsDefault, given]; rfl
  | some default =>
    dsimp only
    rw [List.foldl_append, filled]
    split
    · exact Statement.setDefault_none _ _ (Literal.ofValue e default)
    · rfl

theorem foldl_nullabilityStatements (d : Defaults) : (a.nullabilityStatements e).foldl defaultsAfter d = d := by
  unfold nullabilityStatements
  split
  · rfl
  · split <;> rfl

/-- Where there is no default and none is to stay, the statements leave none. -/
theorem foldl_columnStatements (drops : o.keepDbDefaults = false) :
    (a.columnStatements e o).foldl defaultsAfter .none = .none := by
  rw [columnStatements, List.foldl_append, List.foldl_append, List.foldl_append, List.foldl_append,
    Statement.foldl_defaultsAfter_none renameStatements_give,
    Statement.foldl_defaultsAfter_none retypeStatements_give, foldl_defaultStatements,
    foldl_nullabilityStatements]
  have clears : a.dropsDefault e o = a.setsDefault e o := by
    rw [dropsDefault, drops, Bool.not_false, Bool.and_true, Bool.false_and, Bool.false_and, Bool.or_false]
  rw [clearStatements, clears]
  split
  · exact Statement.dropDefault_only _ _
  · rfl

end Alteration

end FirebirdSql
