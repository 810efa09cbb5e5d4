import FirebirdSql.Editor.Alteration
import FirebirdSql.Proofs.PlainName
import FirebirdSql.Proofs.Rows

/-!
The statements that change a column keep what stands in it. However renaming, retyping, defaults and nullability come
together, the column ends with the values that it had, and rows without a value get the default where the column
becomes required.
-/

namespace FirebirdSql.Alteration

variable {n : Nat}

/-- What rows without a value get: the default, if the new field needs one. -/
def filler (a : Alteration) : Option Value := if a.new.isNullable then none else a.new.default

def filled (a : Alteration) (v : Fin n → Option Value) : Fin n → Option Value := fun r => (v r).or a.filler

/-- The table in which the column is under its new name. -/
def renamedRows (a : Alteration) (e : Engine) (t : TableRows n) (v : Fin n → Option Value) : TableRows n :=
  (t.drop (Identifier.quote e a.old.column)).put (a.columnIdentifier e) v

/-- The table after the alteration: but for the column, it is as it was. -/
def alteredRows (a : Alteration) (e : Engine) (t : TableRows n) (v : Fin n → Option Value) : TableRows n :=
  a.renamedRows e t (a.filled v)

/-- The table holds `v` in the column that is altered, and the alteration can be made: the names that it needs are
free, and what it requires is there. -/
structure Fits (a : Alteration) (e : Engine) (t : TableRows n) (v : Fin n → Option Value) : Prop where
  table : t.name = a.tableIdentifier e
  plain_old : Identifier.Plain a.old.column
  plain_new : Identifier.Plain a.new.column
  holds : t.columns (Identifier.quote e a.old.column) = some v
  /-- The content respects the old field. -/
  respected : a.old.isNullable = false → ∀ r, (v r).isSome
  default_not_null : a.new.default ≠ some .null
  name_free : a.renames = true → t.columns (a.columnIdentifier e) = none
  temporary_free : a.rebuilds e = true → t.columns (a.temporary e) = none ∧ a.temporary e ≠ a.columnIdentifier e
  /-- A column that becomes required without a default has a value in every row. -/
  complete : a.old.isNullable = true → a.new.isNullable = false → a.new.default = none → ∀ r, (v r).isSome

variable {a : Alteration} {e : Engine} {o : Options} {t : TableRows n} {v : Fin n → Option Value}

namespace Fits

theorem renamed_column : (a.renamedRows e t v).columns (a.columnIdentifier e) = some v :=
  TableRows.put_columns_self _ _ v

theorem renamed_table (h : a.Fits e t v) : (a.renamedRows e t v).name = a.tableIdentifier e := h.table

theorem renamed_free (h : a.Fits e t v) (hr : a.rebuilds e = true) :
    (a.renamedRows e t v).columns (a.temporary e) = none := by
  obtain ⟨hf, hne⟩ := h.temporary_free hr
  rw [renamedRows, TableRows.put_columns_of_ne _ hne]
  by_cases ho : a.temporary e = Identifier.quote e a.old.column
  · rw [ho, TableRows.drop_columns_self]
  · rw [TableRows.drop_columns_of_ne _ ho, hf]

theorem run_rename (h : a.Fits e t v) : t.run (a.renameStatements e) = some (a.renamedRows e t v) := by
  unfold renameStatements
  by_cases hr : a.renames = true
  · have rename := TableRows.apply_renameColumn h.table h.holds (h.name_free hr)
    by_cases hk : a.keepsCounting = true
    · have drop := t.apply_of_keepsRows (s := .dropTrigger (Sequence.ofTable e a.table).trigger) rfl
      have create := (a.renamedRows e t v).apply_of_keepsRows (s := .createTrigger (Sequence.ofTable e a.table).trigger
        (Sequence.ofTable e a.table).table (a.columnIdentifier e) (Sequence.ofTable e a.table).sequence) rfl
      simp only [renamedRows] at create
      simp [hr, hk, TableRows.run_cons, drop, rename, create, renamedRows]
    · simp [hr, hk, TableRows.run_cons, rename, renamedRows]
  · have hs : Text.sameAsciiLetters a.old.column.toList a.new.column.toList = true := by
      simpa [renames] using hr
    have hq := Identifier.quote_eq_of_sameAsciiLetters e h.plain_old h.plain_new hs
    have hself : a.renamedRows e t v = t := by
      rw [renamedRows, columnIdentifier, column, ← hq, TableRows.drop_put, TableRows.put_eq_self t h.holds]
    simp [hr, hself]

theorem run_retype (h : a.Fits e t v) :
    (a.renamedRows e t v).run (a.retypeStatements e) = some (a.renamedRows e t v) := by
  unfold retypeStatements
  by_cases hr : a.rebuilds e = true
  · simp only [hr, if_true]
    exact TableRows.run_rebuild h.renamed_table (h.temporary_free hr).2 renamed_column (h.renamed_free hr) _
  · by_cases hc : a.changesType e = true
    · simp [hr, hc, TableRows.run_cons, TableRows.apply_retypeColumn h.renamed_table renamed_column]
    · simp [hr, hc]

/-- Where no row is filled, every row has a value or may go without. -/
theorem filled_of_not_fills (h : a.Fits e t v) (hf : a.fills e = false) : a.filled v = v := by
  funext r
  unfold filled filler
  by_cases hn : a.new.isNullable = true
  · simp [hn]
  · cases hd : a.new.default with
    | none => simp
    | some d =>
      have ho : a.old.isNullable = false := by
        simp only [fills, isNullableBefore, hd, Option.isSome_some, Bool.and_true] at hf
        cases hi : a.old.isNullable <;> simp_all
      obtain ⟨x, hx⟩ := Option.isSome_iff_exists.mp (h.respected ho r)
      simp [hx]

theorem cell_default (h : a.Fits e t v) {d : Value} (hd : a.new.default = some d) : TableRows.cell d = some d := by
  have hn := h.default_not_null
  rw [hd] at hn
  cases d <;> simp_all [TableRows.cell]

theorem run_default (h : a.Fits e t v) :
    (a.renamedRows e t v).run (a.defaultStatements e o) = some (a.alteredRows e t v) := by
  have set (b : Bool) (l : Literal) : (a.renamedRows e t v).run
      (if b then [.setDefault (a.tableIdentifier e) (a.columnIdentifier e) l] else []) =
        some (a.renamedRows e t v) := by
    cases b
    · rfl
    · simp [TableRows.run_cons, TableRows.apply_setDefault h.renamed_table renamed_column]
  unfold defaultStatements
  cases hd : a.new.default with
  | none =>
    have hf : a.fills e = false := by simp [fills, hd]
    simp [alteredRows, h.filled_of_not_fills hf]
  | some d =>
    simp only [TableRows.run_append, set, Option.bind_some]
    by_cases hf : a.fills e = true
    · have hn : a.new.isNullable = false := by
        simp only [fills, Bool.and_eq_true, Bool.not_eq_true'] at hf
        exact hf.1.2
      have hfill : (fun r => (v r).or (TableRows.cell d)) = a.filled v := by
        rw [h.cell_default hd]
        unfold filled filler
        rw [hd, hn, if_neg Bool.false_ne_true]
      have fill := TableRows.apply_fillColumn h.renamed_table renamed_column d
      rw [hfill] at fill
      simp only [hf, if_true, TableRows.run_cons, fill, Option.bind_some, TableRows.run_nil]
      rw [renamedRows, TableRows.put_put]
      rfl
    · simp [hf, alteredRows, h.filled_of_not_fills (Bool.not_eq_true _ ▸ hf)]

theorem altered_column : (a.alteredRows e t v).columns (a.columnIdentifier e) = some (a.filled v) :=
  TableRows.put_columns_self _ _ _

theorem altered_table (h : a.Fits e t v) : (a.alteredRows e t v).name = a.tableIdentifier e := h.table

theorem filled_isSome (h : a.Fits e t v) (hn : a.new.isNullable = false) (r : Fin n) : (a.filled v r).isSome := by
  cases hd : a.new.default with
  | none =>
    have hv : (v r).isSome := by
      cases ho : a.old.isNullable with
      | true => exact h.complete ho hn hd r
      | false => exact h.respected ho r
    simp [filled, hv]
  | some d => simp [filled, filler, hn, hd]

theorem run_nullability (h : a.Fits e t v) :
    (a.alteredRows e t v).run (a.nullabilityStatements e) = some (a.alteredRows e t v) := by
  unfold nullabilityStatements
  split
  · rfl
  · split
    · simp [TableRows.run_cons, TableRows.apply_setNullable h.altered_table altered_column h.filled_isSome]
    · have hc : (a.alteredRows e t v).columns (.ofCatalogName (Identifier.catalogName e a.column)) =
          some (a.filled v) := by
        rw [Identifier.ofCatalogName_catalogName]
        exact altered_column
      simp [TableRows.run_cons, TableRows.apply_setNullFlag h.altered_table
        (Identifier.ofCatalogName_catalogName e a.table) hc h.filled_isSome]

theorem run_clear (h : a.Fits e t v) :
    (a.alteredRows e t v).run (a.clearStatements e o) = some (a.alteredRows e t v) := by
  unfold clearStatements
  split
  · simp [TableRows.run_cons, TableRows.apply_dropDefault h.altered_table altered_column]
  · rfl

/-- All statements about the column are legal, and leave the table with the column altered. -/
theorem run_columnStatements (h : a.Fits e t v) :
    t.run (a.columnStatements e o) = some (a.alteredRows e t v) := by
  simp only [columnStatements, TableRows.run_append, h.run_rename, h.run_retype, h.run_default, h.run_nullability,
    h.run_clear, Option.bind_some]

end Fits

end FirebirdSql.Alteration
