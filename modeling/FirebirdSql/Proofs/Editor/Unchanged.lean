import FirebirdSql.Proofs.Alteration.ColumnState
import FirebirdSql.Proofs.Editor.Discipline

/-!
Altering a field to what it is. Every part of an alteration is there for something that differs between the two fields;
where nothing does, no part is left but the commit for connections that hold on to old columns.
-/

namespace FirebirdSql

/-- The second field declares what the first one does, over the same column: its name may differ in the case of ASCII
letters, and its default may be another spelling of the same value. -/
structure Field.Restates (f g : Field) : Prop where
  column : Text.sameAsciiLetters f.column.toList g.column.toList = true
  type : g.type = f.type
  null : g.null = f.null
  unique : g.unique = f.unique
  primaryKey : g.primaryKey = f.primaryKey
  indexed : g.indexed = f.indexed
  default : g.default = f.default ∨ Option.Rel (fun v w => v.same w = true) f.default g.default
  foreignKey : g.foreignKey = f.foreignKey
  check : g.check = f.check

namespace Field

variable {f g : Field}

theorem restates_withColumn (f : Field) {column : String}
    (same : Text.sameAsciiLetters f.column.toList column.toList = true) : f.Restates { f with column := column } :=
  ⟨same, rfl, rfl, rfl, rfl, rfl, .inl rfl, rfl, rfl⟩

/-- Only a default that is not a number differs from itself. -/
theorem Restates.default_same (h : f.Restates g) (number : ∀ x, f.default = some (.float x) → x.isNaN = false) :
    Option.Rel (fun v w => v.same w = true) f.default g.default := by
  rcases h.default with equal | same
  · rw [equal]
    cases given : f.default with
    | none => exact .none
    | some v => exact .some (Value.same_self fun x is => number x (given.trans (congrArg some is)))
  · exact same

end Field

namespace Alteration

open Identifier (isDelimited)

variable {a : Alteration} (h : a.old.Restates a.new)

/-! Nothing differs -/

include h

theorem changesType_of_restates (e : Engine) : a.changesType e = false := by simp [changesType, h.type]

theorem renames_of_restates : a.renames = false := by simp [renames, h.column]

theorem quote_of_restates (plain : isDelimited a.old.column.toList = false) (e : Engine) :
    Identifier.quote e a.new.column = Identifier.quote e a.old.column := by
  have traceable : a.Traceable := fun delimited => absurd (plain.symm.trans delimited) Bool.false_ne_true
  exact (traceable.quote_eq (renames_of_restates h)).symm

/-- The check of a type is over the column as it is quoted. -/
theorem check?_of_restates (plain : isDelimited a.old.column.toList = false) (e : Engine) :
    a.new.check? e = a.old.check? e := by
  have ofType : a.new.type.check? e a.new.column = a.old.type.check? e a.old.column := by
    rw [h.type]
    cases a.old.type <;> simp only [ColumnType.check?, quote_of_restates h plain e]
  rw [Field.check?, Field.check?, ofType, h.check]

theorem changesCheck_of_restates (plain : isDelimited a.old.column.toList = false) (e : Engine) :
    a.changesCheck e = false := by
  simp [changesCheck, changesType_of_restates h, check?_of_restates h plain]

theorem isNullable_of_restates : a.new.isNullable = a.old.isNullable := by
  simp only [Field.isNullable, h.null, h.primaryKey]

/-! Nothing is in the way -/

theorem dropsForeignKey_of_restates (e : Engine) : a.dropsForeignKey e = false := by
  simp [dropsForeignKey, changesType_of_restates h, h.foreignKey]

theorem dropsIncoming_of_restates (e : Engine) : a.dropsIncoming e = false := by
  simp [dropsIncoming, changesType_of_restates h, h.primaryKey]

theorem dropsUnique_of_restates (e : Engine) : a.dropsUnique e = false := by
  simp +contextual [dropsUnique, changesType_of_restates h, h.unique]

theorem dropsIndex_of_restates (e : Engine) : a.dropsIndex e = false := by
  simp +contextual [dropsIndex, hadIndex, changesType_of_restates h, h.indexed]

theorem dropsPrimaryKey_of_restates (e : Engine) : a.dropsPrimaryKey e = false := by
  simp [dropsPrimaryKey, changesType_of_restates h, h.primaryKey]

/-! The column stays -/

theorem rebuilds_of_restates (e : Engine) : a.rebuilds e = false := by
  simp [rebuilds, changesType_of_restates h]

theorem fills_of_restates (e : Engine) : a.fills e = false := by
  simp +contextual [fills, isNullableBefore, rebuilds_of_restates h, isNullable_of_restates h]

theorem setsDefault_of_restates (number : ∀ x, a.old.default = some (.float x) → x.isNaN = false) (e : Engine)
    (o : Options) : a.setsDefault e o = false := by
  have same := h.default_same number
  rw [setsDefault, fills_of_restates h, rebuilds_of_restates h]
  cases given : a.new.default with
  | none => rfl
  | some v =>
    rw [given] at same
    cases kept : a.old.default with
    | none =>
      rw [kept] at same
      cases same
    | some w =>
      rw [kept] at same
      cases same with
      | some same => simp [keepsDefault, kept, same]

theorem dropsDefault_of_restates (number : ∀ x, a.old.default = some (.float x) → x.isNaN = false) (e : Engine)
    (o : Options) : a.dropsDefault e o = false := by
  have same := h.default_same number
  rw [dropsDefault, setsDefault_of_restates h number]
  revert same
  cases a.old.default <;> cases a.new.default <;> simp

theorem columnStatements_of_restates (number : ∀ x, a.old.default = some (.float x) → x.isNaN = false) (e : Engine)
    (o : Options) : a.columnStatements e o = [] := by
  have renames : a.renameStatements e = [] := by simp [renameStatements, renames_of_restates h]
  have retypes : a.retypeStatements e = [] := by
    simp [retypeStatements, rebuilds_of_restates h, changesType_of_restates h]
  have defaults : a.defaultStatements e o = [] := by
    unfold defaultStatements
    cases a.new.default with
    | none => rfl
    | some v => simp [setsDefault_of_restates h number, fills_of_restates h]
  have nullability : a.nullabilityStatements e = [] := by
    simp [nullabilityStatements, isNullableBefore, rebuilds_of_restates h, isNullable_of_restates h]
  have clears : a.clearStatements e o = [] := by simp [clearStatements, dropsDefault_of_restates h number]
  simp [columnStatements, renames, retypes, defaults, nullability, clears]

/-! Nothing is missing -/

theorem createsUnique_of_restates (e : Engine) : a.createsUnique e = false := by
  simp +contextual [createsUnique, dropsUnique_of_restates h, h.unique, h.primaryKey]

theorem createsIndex_of_restates (e : Engine) : a.createsIndex e = false := by
  simp +contextual [createsIndex, hadIndex, changesType_of_restates h, h.unique, h.indexed, h.foreignKey]

theorem displacesPrimaryKey_of_restates : a.displacesPrimaryKey = false := by
  simp [displacesPrimaryKey, h.primaryKey]

theorem primaryKeyStatements_of_restates (e : Engine) : a.primaryKeyStatements e = [] := by
  simp +contextual [primaryKeyStatements, createsPrimaryKey, dropsPrimaryKey_of_restates h, h.primaryKey]

theorem newForeignKey?_of_restates (e : Engine) : a.newForeignKey? e = none := by
  simp only [newForeignKey?, dropsForeignKey_of_restates h, h.foreignKey]
  cases a.old.foreignKey <;> rfl

theorem checkStatements_of_restates (plain : isDelimited a.old.column.toList = false) (e : Engine) :
    a.checkStatements e = [] := by
  unfold checkStatements
  cases a.new.check? e with
  | none => rfl
  | some check => simp [changesCheck_of_restates h plain]

end Alteration

namespace Editor

open Identifier (isDelimited)

variable (ed : Editor σ)

theorem alterField_of_restates {a : Alteration} (h : a.old.Restates a.new) (plain : isDelimited a.old.column.toList = false)
    (number : ∀ x, a.old.default = some (.float x) → x.isNaN = false) : ed.alterField a = ed.refresh := by
  have foreignKey : ed.dropOwnForeignKey a = return () := by
    simp [dropOwnForeignKey, Alteration.dropsForeignKey_of_restates h]
  have incoming : ed.takeIncoming a = return [] := by
    rw [takeIncoming, Alteration.dropsIncoming_of_restates h]
    rfl
  have indexes : ed.dropOwnIndexes a = return () := by
    simp [dropOwnIndexes, Alteration.dropsUnique_of_restates h, Alteration.dropsIndex_of_restates h,
      Alteration.dropsPrimaryKey_of_restates h]
  have checks : ed.dropOwnChecks a = return () := by
    simp [dropOwnChecks, Alteration.dropsChecks, Alteration.changesCheck_of_restates h plain]
  have created : ed.createOwnIndexes a = return () := by
    simp [createOwnIndexes, Alteration.createsUnique_of_restates h, Alteration.createsIndex_of_restates h]
  have displaced : ed.displacePrimaryKey a = return [] := by
    simp [displacePrimaryKey, Alteration.displacesPrimaryKey_of_restates h]
  have returned : ed.returnIncoming a [] [] = return () := by
    unfold returnIncoming
    cases a.target? <;> rfl
  have ownKey : ed.createOwnForeignKey a = return () := by
    rw [createOwnForeignKey, Alteration.newForeignKey?_of_restates h]
    rfl
  have counting : ed.alterCounting a = return () := by
    simp [alterCounting, h.type]
  have nothing : ed.runAll a.table [] = return () := rfl
  simp only [alterField, foreignKey, incoming, indexes, checks, Alteration.columnStatements_of_restates h number, created,
    displaced, Alteration.primaryKeyStatements_of_restates h, returned, ownKey,
    Alteration.checkStatements_of_restates h plain, counting, nothing, pure_bind]

theorem logged_refresh_notes (x : State (Noted σ Logged)) :
    (ed.logged.refresh x).2.base.link.notes = x.base.link.notes ++
      if ed.options.persistsOldColumns && !ed.collects then [⟨.commit, failureOf (ed.logged.refresh x).1⟩] else [] := by
  have same : (ed.logged.options.persistsOldColumns && !ed.logged.collects) =
    (ed.options.persistsOldColumns && !ed.collects) := rfl
  unfold refresh
  rw [same]
  split
  · rfl
  · exact (List.append_nil _).symm

/-- A field is altered to what it is, over an undelimited column and with no default that is not a number. Whatever the
catalog and the options, this comes to a commit, if the options have the connection refreshed and statements are sent at
all, and to nothing otherwise: no statement is sent or put off, nothing is asked and nothing is forgotten. -/
theorem alterField_restated (m : Model) {f g : Field} (h : f.Restates g) (plain : isDelimited f.column.toList = false)
    (number : ∀ x, f.default = some (.float x) → x.isNaN = false) :
    (∀ x, ed.alterField ⟨m, f, g⟩ x =
      if ed.options.persistsOldColumns && !ed.collects then onLink ed.cursor.commit x else (.ok (), x)) ∧
    ∀ x : State (Noted σ Logged), let outcome := ed.logged.alterField ⟨m, f, g⟩ x
      outcome.2.base.link.notes = x.base.link.notes ++
        if ed.options.persistsOldColumns && !ed.collects then [⟨.commit, failureOf outcome.1⟩] else [] := by
  constructor
  · intro x
    rw [ed.alterField_of_restates (a := ⟨m, f, g⟩) h plain number, refresh]
    split <;> rfl
  · intro x
    dsimp only
    rw [ed.logged.alterField_of_restates (a := ⟨m, f, g⟩) h plain number]
    exact ed.logged_refresh_notes x

namespace Unchanged

/-- A flag that is checked to be one, and unless told otherwise is set. -/
def flag : Field :=
  { Field.ofType "active" .boolean with column := "is_active", unique := true, default := some (.bool true) }

/-- The same flag, its column in capitals. -/
def flagInCapitals : Field := { flag with column := "IS_ACTIVE" }

def users : Model := ⟨"users", [flag], [], [], []⟩

/-- An editor for connections that hold on to old columns. -/
def editor : Editor Unit :=
  ⟨.silent, ⟨⟨2, 5, 0, 0⟩⟩, { Options.standard with persistsOldColumns := true }, false⟩

theorem flag_restates : flag.Restates flagInCapitals := flag.restates_withColumn (by decide)

theorem alterField_restated_flag :
    flag.Restates flagInCapitals ∧ isDelimited flag.column.toList = false ∧
      (∀ x, flag.default = some (.float x) → x.isNaN = false) ∧
      (editor.logged.alterField ⟨users, flag, flagInCapitals⟩ (State.ofBase ⟨⟨(), []⟩, .empty⟩)).2.base.link.notes =
        [⟨.commit, none⟩] := by
  have plain : isDelimited flag.column.toList = false := by decide
  have number : ∀ x, flag.default = some (.float x) → x.isNaN = false := by
    rintro x ⟨⟩
  have restated := (editor.alterField_restated users flag_restates plain number).2 (State.ofBase ⟨⟨(), []⟩, .empty⟩)
  refine ⟨flag_restates, plain, number, restated.trans ?_⟩
  rw [editor.logged.alterField_of_restates (a := ⟨users, flag, flagInCapitals⟩) flag_restates plain number]
  rfl

end Unchanged

end Editor

end FirebirdSql
