import FirebirdSql.Proofs.Along
import FirebirdSql.Proofs.Alteration.Statements
import FirebirdSql.Proofs.Columns
import FirebirdSql.Proofs.UpperCase

/-!
A column as the statements about it leave it: its name, its type, whether it may hold no value, and its default. The
statements by which an alteration changes a column lead from what the old field declares to what the new one declares,
however they are put together.
-/

namespace FirebirdSql

theorem Value.same_self {v : Value} (number : ∀ x, v = .float x → x.isNaN = false) : v.same v = true := by
  cases v with
  | float x => simp [same, Binary64.same, number x rfl]
  | decimal d => simp [same, Decimal.same]
  | _ => exact beq_self_eq_true _

structure ColumnState where
  type : String
  nullable : Bool
  default : Option Value
  deriving DecidableEq

/-- The columns of a table. -/
abbrev TableState : Type := List (Identifier × ColumnState)

namespace TableState

variable (t : TableState) (c new : Identifier) (f : ColumnState → ColumnState)

def update : TableState := t.map fun p => if p.1 = c then (p.1, f p.2) else p

def rename : TableState := t.map fun p => if p.1 = c then (new, p.2) else p

/-- A column of the name is there, and it has a default. -/
def HasDefault : Prop := ∃ p ∈ t, p.1 = c ∧ p.2.default.isSome = true

instance : Decidable (t.HasDefault c) := List.decidableBEx ..

@[simp] theorem update_singleton (s : ColumnState) : update [(c, s)] c f = [(c, f s)] := by simp [update]

@[simp] theorem rename_singleton (s : ColumnState) : rename [(c, s)] c new = [(new, s)] := by simp [rename]

@[simp] theorem hasDefault_singleton (s : ColumnState) : HasDefault [(c, s)] c ↔ s.default.isSome = true := by
  simp [HasDefault]

end TableState

namespace Statement

/-- What the statement does to the columns of the table that it names. A column that is added may hold no value unless
that is ruled out, and has the default that is declared with it. -/
def columnEffect (t : TableState) : Statement → TableState
  | .addColumn _ c d => t ++ [(c, ⟨d.type, !d.required, d.default.map (·.value)⟩)]
  | .dropColumn _ c => t.eraseP (·.1 == c)
  | .renameColumn _ old new => t.rename old new
  | .retypeColumn _ c type => t.update c fun s => { s with type := type }
  | .setDefault _ c d => t.update c fun s => { s with default := some d.value }
  | .dropDefault _ c => t.update c fun s => { s with default := none }
  | .setNullable _ c nullable => t.update c fun s => { s with nullable := nullable }
  | .setNullFlag _ c nullable => t.update (.ofCatalogName c) fun s => { s with nullable := nullable }
  | _ => t

def stateAfter (table : Identifier) (t : TableState) (s : Statement) : TableState :=
  if s.table? = some table then s.columnEffect t else t

/-- The column whose default the statement drops. -/
def droppedDefault? : Statement → Option Place
  | .dropDefault table c => some ⟨table, c⟩
  | _ => none

/-- A default that the statement drops is there. -/
def FindsDefault (table : Identifier) (t : TableState) (s : Statement) : Prop :=
  ∀ p ∈ s.droppedDefault?, p.table = table ∧ t.HasDefault p.column

instance (table : Identifier) (t : TableState) (s : Statement) : Decidable (s.FindsDefault table t) :=
  inferInstanceAs (Decidable (∀ p ∈ s.droppedDefault?, p.table = table ∧ t.HasDefault p.column))

variable {table c : Identifier} {t : TableState} {s : Statement}

theorem stateAfter_of_keepsRows (h : s.keepsRows = true) : s.stateAfter table t = t := by
  have nothing : s.columnEffect t = t := by cases s <;> first | rfl | cases h
  rw [stateAfter, nothing, ite_self]

theorem findsDefault_of_keepsRows (h : s.keepsRows = true) : s.FindsDefault table t := by
  have nothing : s.droppedDefault? = none := by cases s <;> first | rfl | cases h
  intro p dropped
  rw [nothing] at dropped
  cases dropped

theorem keepsRows_of_counts (h : s.counts = true) : s.keepsRows = true := by
  cases s <;> first | rfl | cases h

end Statement

namespace Alteration

open Identifier (isDelimited)
open Statement (stateAfter)

variable (a : Alteration) (e : Engine) (o : Options)

/-- A delimited name stays, or differs from the new one by more than the case of ASCII letters. -/
def Traceable : Prop := isDelimited a.old.column.toList = true → a.renames = true ∨ a.old.column = a.new.column

instance : Decidable a.Traceable := inferInstanceAs (Decidable (_ → _ ∨ _))

def initially : TableState :=
  [(Identifier.quote e a.old.column,
    ⟨a.old.type.definition e, a.old.isNullable, if o.keepDbDefaults then a.old.default else none⟩)]

/-- The default that is to stay goes with a column that is rebuilt, and no other one is set. -/
def losesDefault : Bool := o.keepDbDefaults && a.rebuilds e && a.old.default.isSome && a.new.default.isNone

/-- The default when the column has its type. -/
def defaultBefore : Option Value := if a.rebuilds e || !o.keepDbDefaults then none else a.old.default

/-- The default before the one that is not to stay is dropped. -/
def defaultBetween : Option Value := if a.setsDefault e o then a.new.default else a.defaultBefore e o

/-- The default that stays. -/
def defaultAfter : Option Value := if a.dropsDefault e o then none else a.defaultBetween e o

variable {a e o}

theorem Traceable.quote_eq (h : a.Traceable) (stays : a.renames = false) :
    Identifier.quote e a.old.column = a.columnIdentifier e := by
  have same : Text.sameAsciiLetters a.old.column.toList a.new.column.toList = true := by simpa [renames] using stays
  have key : Catalog.Cache.key a.old.column = Catalog.Cache.key a.new.column :=
    congrArg String.ofList (Text.upper_eq_of_sameAsciiLetters same)
  have names := (Identifier.catalogName_eq_iff_of_key e key).mpr fun delimited =>
    (h delimited).resolve_left fun renamed => Bool.false_ne_true (stays.symm.trans renamed)
  rw [← Identifier.ofCatalogName_catalogName, names, Identifier.ofCatalogName_catalogName]
  rfl

/-! What each part of the statements does to the column -/

theorem renameStatements_state (h : a.Traceable) (s : ColumnState) :
    (a.renameStatements e).foldl (stateAfter (a.tableIdentifier e)) [(Identifier.quote e a.old.column, s)] =
      [(a.columnIdentifier e, s)] := by
  unfold renameStatements
  cases renamed : a.renames with
  | false => exact congrArg (fun c => [(c, s)]) (h.quote_eq renamed)
  | true => cases a.keepsCounting <;> simp [stateAfter, Statement.table?, Statement.columnEffect]

theorem retypeStatements_state {s : ColumnState} (typed : s.type = a.old.type.definition e) :
    (a.retypeStatements e).foldl (stateAfter (a.tableIdentifier e)) [(a.columnIdentifier e, s)] =
      [(a.columnIdentifier e, ⟨a.new.type.definition e, s.nullable || a.rebuilds e,
        if a.rebuilds e then none else s.default⟩)] := by
  unfold retypeStatements
  cases rebuilt : a.rebuilds e with
  | true => simp [stateAfter, Statement.table?, Statement.columnEffect, ColumnDefinition.ofType]
  | false =>
    cases changed : a.changesType e with
    | true => simp [stateAfter, Statement.table?, Statement.columnEffect]
    | false =>
      have same : a.old.type.definition e = a.new.type.definition e := by simpa [changesType] using changed
      simp [← same, ← typed]

theorem defaultStatements_state (s : ColumnState) :
    (a.defaultStatements e o).foldl (stateAfter (a.tableIdentifier e)) [(a.columnIdentifier e, s)] =
      [(a.columnIdentifier e, { s with default := if a.setsDefault e o then a.new.default else s.default })] := by
  unfold defaultStatements
  cases given : a.new.default with
  | none => simp [setsDefault, given]
  | some default =>
    cases a.setsDefault e o <;> cases a.fills e <;>
      simp [stateAfter, Statement.table?, Statement.columnEffect, Literal.ofValue]

theorem nullabilityStatements_state {s : ColumnState} (before : s.nullable = a.isNullableBefore e) :
    (a.nullabilityStatements e).foldl (stateAfter (a.tableIdentifier e)) [(a.columnIdentifier e, s)] =
      [(a.columnIdentifier e, { s with nullable := a.new.isNullable })] := by
  unfold nullabilityStatements
  by_cases same : a.isNullableBefore e = a.new.isNullable
  · rw [if_pos same, ← same, ← before]
    rfl
  · rw [if_neg same]
    cases e.hasNotNullStatement with
    | true => simp [stateAfter, Statement.table?, Statement.columnEffect]
    | false =>
      have table := Identifier.ofCatalogName_catalogName e a.table
      have column := Identifier.ofCatalogName_catalogName e a.column
      simp [stateAfter, Statement.table?, Statement.columnEffect, tableIdentifier, columnIdentifier, table, column]

theorem clearStatements_state (s : ColumnState) :
    (a.clearStatements e o).foldl (stateAfter (a.tableIdentifier e)) [(a.columnIdentifier e, s)] =
      [(a.columnIdentifier e, { s with default := if a.dropsDefault e o then none else s.default })] := by
  unfold clearStatements
  cases a.dropsDefault e o <;> simp [stateAfter, Statement.table?, Statement.columnEffect]

theorem shapingStatements_state (h : a.Traceable) :
    (a.renameStatements e ++ a.retypeStatements e ++ a.defaultStatements e o ++ a.nullabilityStatements e).foldl
        (stateAfter (a.tableIdentifier e)) (a.initially e o) =
      [(a.columnIdentifier e, ⟨a.new.type.definition e, a.new.isNullable, a.defaultBetween e o⟩)] := by
  have lost : (if a.rebuilds e then none else if o.keepDbDefaults then a.old.default else none) = a.defaultBefore e o := by
    rw [defaultBefore]
    cases a.rebuilds e <;> cases o.keepDbDefaults <;> rfl
  rw [List.foldl_append, List.foldl_append, List.foldl_append, initially, renameStatements_state h,
    retypeStatements_state rfl, defaultStatements_state, nullabilityStatements_state rfl, lost]
  rfl

theorem columnStatements_state (h : a.Traceable) :
    (a.columnStatements e o).foldl (stateAfter (a.tableIdentifier e)) (a.initially e o) =
      [(a.columnIdentifier e, ⟨a.new.type.definition e, a.new.isNullable, a.defaultAfter e o⟩)] := by
  rw [columnStatements, List.foldl_append, shapingStatements_state h, clearStatements_state]
  rfl

/-! The default -/

theorem setsDefault_of_none (given : a.new.default = none) : a.setsDefault e o = false := by simp [setsDefault, given]

theorem defaultAfter_same (number : ∀ x, a.new.default = some (.float x) → x.isNaN = false) :
    Option.Rel (fun v w => v.same w = true) (a.defaultAfter e o) (if o.keepDbDefaults then a.new.default else none) := by
  unfold defaultAfter defaultBetween defaultBefore dropsDefault
  cases stays : o.keepDbDefaults with
  | false => cases a.setsDefault e o <;> simp
  | true =>
    cases given : a.new.default with
    | none =>
      rw [setsDefault_of_none given]
      cases a.old.default <;> simp
    | some default =>
      simp only [Bool.not_true, Bool.and_false, Bool.or_false, Option.isNone_some, Bool.false_eq_true, if_false, if_true]
      cases sets : a.setsDefault e o with
      | true => exact .some (Value.same_self fun x is => number x (given.trans (congrArg some is)))
      | false =>
        -- The default was not set, so the old one is the same value and still there.
        simp only [setsDefault, given, Option.any_some, stays, Bool.and_true, Bool.or_eq_false_iff,
          Bool.not_eq_false'] at sets
        obtain ⟨⟨keeps, -⟩, stands⟩ := sets
        obtain ⟨before, there, same⟩ := (Option.any_eq_true _ _).mp keeps
        simpa [stands, there] using same

theorem dropped_isSome_iff :
    (a.dropsDefault e o = true → (a.defaultBetween e o).isSome = true) ↔ a.losesDefault e o = false := by
  unfold losesDefault defaultBetween defaultBefore dropsDefault
  cases given : a.new.default with
  | none =>
    rw [setsDefault_of_none given]
    cases o.keepDbDefaults <;> cases a.rebuilds e <;> cases a.old.default <;> simp
  | some default => cases a.setsDefault e o <;> simp

theorem shapingStatements_drop_nothing :
    ∀ s ∈ a.renameStatements e ++ a.retypeStatements e ++ a.defaultStatements e o ++ a.nullabilityStatements e,
      s.droppedDefault? = none := by
  simp only [List.forall_mem_append]
  refine ⟨⟨⟨?_, ?_⟩, ?_⟩, ?_⟩
  · exact forall_renameStatements (fun _ => rfl) (fun _ _ => rfl) fun _ _ _ _ => rfl
  · exact forall_retypeStatements (fun _ _ => rfl) (fun _ _ => rfl) (fun _ => rfl) (fun _ _ => rfl) fun _ _ => rfl
  · exact forall_defaultStatements (fun _ _ => rfl) fun _ _ => rfl
  · exact forall_nullabilityStatements (fun _ _ => rfl) fun _ _ => rfl

theorem columnStatements_find_iff (h : a.Traceable) :
    Statement.Along (stateAfter (a.tableIdentifier e)) (fun t s => s.FindsDefault (a.tableIdentifier e) t)
      (a.initially e o) (a.columnStatements e o) ↔ a.losesDefault e o = false := by
  have shaping : Statement.Along (stateAfter (a.tableIdentifier e)) (fun t s => s.FindsDefault (a.tableIdentifier e) t)
      (a.initially e o)
      (a.renameStatements e ++ a.retypeStatements e ++ a.defaultStatements e o ++ a.nullabilityStatements e) := by
    refine Statement.along_of_forall fun s hs t p dropped => ?_
    rw [shapingStatements_drop_nothing s hs] at dropped
    cases dropped
  rw [columnStatements, Statement.along_append, and_iff_right shaping, shapingStatements_state h, ← dropped_isSome_iff,
    clearStatements]
  cases a.dropsDefault e o with
  | false => simp [Statement.Along]
  | true => simp [Statement.Along, Statement.FindsDefault, Statement.droppedDefault?]

end Alteration

end FirebirdSql
