import FirebirdSql.Proofs.Subject
import Mathlib.Logic.Function.Basic

/-!
What statements do to the rows of a table. A table is its columns by their identifiers, and a column is what stands in
each row, if anything does. Types convert values without changing them.
-/

namespace FirebirdSql

/-- A table of `n` rows. A column that is not there has no content. -/
structure TableRows (n : Nat) where
  name : Identifier
  columns : Identifier → Option (Fin n → Option Value)

namespace TableRows

variable {n : Nat} (t : TableRows n)

def cell : Value → Option Value
  | .null => none
  | v => some v

def put (column : Identifier) (v : Fin n → Option Value) : TableRows n :=
  { t with columns := Function.update t.columns column (some v) }

def drop (column : Identifier) : TableRows n := { t with columns := Function.update t.columns column none }

/-- What a statement about the table makes of it, unless it is not legal there. -/
def change : Statement → Option (TableRows n)
  | .addColumn _ column _ => if (t.columns column).isNone then some (t.put column fun _ => none) else none
  | .dropColumn _ column => (t.columns column).map fun _ => t.drop column
  | .renameColumn _ old new =>
    if (t.columns new).isNone then (t.columns old).map fun v => (t.drop old).put new v else none
  | .retypeColumn _ column _ | .setDefault _ column _ | .dropDefault _ column => (t.columns column).map fun _ => t
  | .setNullable _ column nullable =>
    (t.columns column).bind fun v => if nullable ∨ ∀ r, (v r).isSome then some t else none
  | .setNullFlag _ column nullable =>
    (t.columns (.ofCatalogName column)).bind fun v => if nullable ∨ ∀ r, (v r).isSome then some t else none
  | .copyColumn _ source target =>
    (t.columns source).bind fun v => (t.columns target).map fun _ => t.put target v
  | .fillColumn _ column value => (t.columns column).map fun v => t.put column fun r => (v r).or (cell value)
  | _ => none

/-- What a statement makes of the table. Those about other tables, and those that leave rows alone, make nothing. -/
def apply (s : Statement) : Option (TableRows n) :=
  if s.keepsRows then some t
  else match s.table? with
    | some table => if table = t.name then t.change s else some t
    | none => none

def run (ss : List Statement) : Option (TableRows n) := ss.foldlM apply t

@[simp] theorem run_nil : t.run [] = some t := rfl

theorem run_append (ss rest : List Statement) : t.run (ss ++ rest) = (t.run ss).bind (·.run rest) :=
  List.foldlM_append

theorem run_cons (s : Statement) (rest : List Statement) : t.run (s :: rest) = (t.apply s).bind (·.run rest) := rfl

theorem apply_of_keepsRows {s : Statement} (h : s.keepsRows = true) : t.apply s = some t := if_pos h

theorem apply_of_table {s : Statement} (hk : s.keepsRows = false) (hs : s.table? = some t.name) :
    t.apply s = t.change s := by
  simp [apply, hk, hs]

@[simp] theorem put_columns_self (c : Identifier) (v : Fin n → Option Value) : (t.put c v).columns c = some v := by
  simp [put]

theorem put_columns_of_ne {c d : Identifier} (h : d ≠ c) (v : Fin n → Option Value) :
    (t.put c v).columns d = t.columns d := by
  simp [put, h]

@[simp] theorem put_put (c : Identifier) (v w : Fin n → Option Value) : (t.put c v).put c w = t.put c w := by
  simp [put]

theorem put_eq_self {c : Identifier} {v : Fin n → Option Value} (h : t.columns c = some v) : t.put c v = t := by
  simp [put, ← h]

@[simp] theorem drop_columns_self (c : Identifier) : (t.drop c).columns c = none := by simp [drop]

theorem drop_columns_of_ne {c d : Identifier} (h : d ≠ c) : (t.drop c).columns d = t.columns d := by simp [drop, h]

@[simp] theorem drop_put (c : Identifier) (v : Fin n → Option Value) : (t.drop c).put c v = t.put c v := by
  simp [drop, put]

@[simp] theorem put_drop (c : Identifier) (v : Fin n → Option Value) : (t.put c v).drop c = t.drop c := by
  simp [drop, put]

theorem drop_eq_self {c : Identifier} (h : t.columns c = none) : t.drop c = t := by simp [drop, ← h]

theorem put_drop_comm {c d : Identifier} (h : c ≠ d) (v : Fin n → Option Value) :
    (t.put c v).drop d = (t.drop d).put c v := by
  simp [drop, put, Function.update_comm h]

/-! Statements that are legal -/

section Legal

variable {t} {table c d : Identifier} {v : Fin n → Option Value} (ht : t.name = table)

include ht

attribute [local simp] change

theorem apply_about {s : Statement} (hk : s.keepsRows = false) (hs : s.table? = some table) : t.apply s = t.change s :=
  t.apply_of_table hk (hs.trans (congrArg some ht.symm))

theorem apply_addColumn (h : t.columns c = none) (definition : ColumnDefinition) :
    t.apply (.addColumn table c definition) = some (t.put c fun _ => none) := by
  rw [apply_about ht rfl rfl]
  simp [h]

theorem apply_copyColumn {w : Fin n → Option Value} (hc : t.columns c = some v) (hd : t.columns d = some w) :
    t.apply (.copyColumn table c d) = some (t.put d v) := by
  rw [apply_about ht rfl rfl]
  simp [hc, hd]

theorem apply_dropColumn (h : t.columns c = some v) : t.apply (.dropColumn table c) = some (t.drop c) := by
  rw [apply_about ht rfl rfl]
  simp [h]

theorem apply_renameColumn (hc : t.columns c = some v) (hd : t.columns d = none) :
    t.apply (.renameColumn table c d) = some ((t.drop c).put d v) := by
  rw [apply_about ht rfl rfl]
  simp [hc, hd]

theorem apply_retypeColumn (h : t.columns c = some v) (type : String) :
    t.apply (.retypeColumn table c type) = some t := by
  rw [apply_about ht rfl rfl]
  simp [h]

theorem apply_setDefault (h : t.columns c = some v) (default : Literal) :
    t.apply (.setDefault table c default) = some t := by
  rw [apply_about ht rfl rfl]
  simp [h]

theorem apply_dropDefault (h : t.columns c = some v) : t.apply (.dropDefault table c) = some t := by
  rw [apply_about ht rfl rfl]
  simp [h]

theorem apply_fillColumn (h : t.columns c = some v) (value : Value) :
    t.apply (.fillColumn table c value) = some (t.put c fun r => (v r).or (cell value)) := by
  rw [apply_about ht rfl rfl]
  simp [h]

/-- A column that holds a value in every row may become required. -/
theorem apply_setNullable {nullable : Bool} (h : t.columns c = some v)
    (hv : nullable = false → ∀ r, (v r).isSome) : t.apply (.setNullable table c nullable) = some t := by
  rw [apply_about ht rfl rfl]
  cases nullable <;> simp_all

theorem apply_setNullFlag {relation column : String} {nullable : Bool} (hr : .ofCatalogName relation = table)
    (h : t.columns (.ofCatalogName column) = some v) (hv : nullable = false → ∀ r, (v r).isSome) :
    t.apply (.setNullFlag relation column nullable) = some t := by
  subst hr
  rw [apply_about ht rfl rfl]
  cases nullable <;> simp_all

/-- A column is rebuilt by way of another one that is not there otherwise. -/
theorem run_rebuild (hne : d ≠ c) (hc : t.columns c = some v) (hd : t.columns d = none) (definition : ColumnDefinition) :
    t.run [.addColumn table d definition, .copyColumn table c d, .dropColumn table c, .renameColumn table d c] =
      some t := by
  have added : (t.put d fun _ => none).columns c = some v := by rw [put_columns_of_ne _ hne.symm, hc]
  have copied : (t.put d v).columns c = some v := by rw [put_columns_of_ne _ hne.symm, hc]
  have dropped : ((t.put d v).drop c).columns d = some v := by rw [drop_columns_of_ne _ hne, put_columns_self]
  have free : (t.drop c).columns d = none := by rw [drop_columns_of_ne _ hne, hd]
  simp only [run_cons, run_nil, apply_addColumn ht hd, Option.bind_some]
  rw [apply_copyColumn (t := t.put d fun _ => none) ht added (put_columns_self _ _ _)]
  simp only [put_put, Option.bind_some]
  rw [apply_dropColumn (t := t.put d v) ht copied]
  simp only [Option.bind_some]
  rw [apply_renameColumn (t := (t.put d v).drop c) ht dropped (drop_columns_self _ _)]
  simp only [Option.bind_some]
  rw [put_drop_comm t hne, put_drop, drop_eq_self _ free, drop_put, put_eq_self t hc]

end Legal

end TableRows

end FirebirdSql
