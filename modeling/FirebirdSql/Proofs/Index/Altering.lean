import FirebirdSql.Proofs.Index.Creating

/-!
What an alteration leaves over the column, against what a new table puts over it. The conditions under which indexes
are dropped and created are not quite those under which a new table has them.
-/

namespace FirebirdSql

open Action (Triple)
open Identifier (Canonical Simple catalogName)

namespace Alteration

variable (a : Alteration) (e : Engine)

/-- A shape that is there under a condition. -/
def given (b : Bool) (shape : IndexShape) : List IndexShape := if b then [shape] else []

/-- The shapes that are left when one of them may be dropped. -/
def left (drops : Bool) (shape : IndexShape) (shapes : List IndexShape) : List IndexShape :=
  if drops then shapes.filter (fun s => !decide (s = shape)) else shapes

/-- What stays over the column while it changes. -/
def keptShapes : List IndexShape :=
  left (a.dropsPrimaryKey e) .primary (left (a.dropsIndex e) .plain (left (a.dropsUnique e) .unique a.old.shapes))

/-- What stands over the column in the end. -/
def finalShapes : List IndexShape :=
  left a.displacesPrimaryKey .primary
    (a.keptShapes e ++ given (a.createsUnique e) .unique ++ given (a.createsIndex e) .plain) ++
    given (a.createsPrimaryKey e) .primary

/-- The new field would have a plain index if it were no key. -/
def wantsIndex : Bool := a.new.indexed && !a.new.unique && a.new.foreignKey.isNone

/-- An index is dropped that a key never had. -/
def dropsAbsentIndex : Bool := a.dropsIndex e && a.old.primaryKey

/-- A key gets a plain index beside it. -/
def doublesKey : Bool := a.new.primaryKey && a.wantsIndex && !(a.hadIndex && !a.changesType e)

/-- The index is not created that a former key needs. -/
def missesIndex : Bool :=
  a.old.primaryKey && !a.new.primaryKey && a.hadIndex && a.wantsIndex && !a.changesType e

/-- A unique index stays beside the key. -/
def leavesUnique : Bool :=
  !a.old.primaryKey && a.old.unique && a.new.unique && a.new.primaryKey && !a.changesType e

/-- A plain index stays, though the new field is a key or unique or has a foreign key. -/
def leavesIndex : Bool :=
  !a.old.primaryKey && a.hadIndex && a.new.indexed && !a.changesType e &&
    (a.new.primaryKey || a.new.unique || !a.new.foreignKey.isNone)

/-- The alteration leaves other indexes than a new table has. -/
def differs : Bool := a.doublesKey e || a.missesIndex e || a.leavesUnique e || a.leavesIndex e

theorem shapes_eq (f : Field) :
    f.shapes = given f.primaryKey .primary ++ given (f.unique && !f.primaryKey) .unique ++
      given (f.indexed && !f.primaryKey && f.foreignKey.isNone && !f.unique) .plain := by
  unfold Field.shapes Field.keyShape? Field.indexShape?
  cases f.primaryKey <;> cases f.unique <;> cases f.indexed <;> cases f.foreignKey <;> rfl

theorem finalShapes_eq_iff (h : a.dropsAbsentIndex e = false) : a.finalShapes e = a.new.shapes ↔ a.differs e = false := by
  revert h
  rw [finalShapes, keptShapes, shapes_eq, shapes_eq]
  simp only [dropsAbsentIndex, differs, doublesKey, missesIndex, leavesUnique, leavesIndex, wantsIndex, dropsPrimaryKey,
    dropsIndex, dropsUnique, createsUnique, createsIndex, createsPrimaryKey, hadIndex, displacesPrimaryKey]
  generalize a.changesType e = retyped
  generalize a.old.primaryKey = key
  generalize a.new.primaryKey = key'
  generalize a.old.unique = unique
  generalize a.new.unique = unique'
  generalize a.old.indexed = indexed
  generalize a.new.indexed = indexed'
  generalize a.old.foreignKey.isNone = free
  generalize a.new.foreignKey.isNone = free'
  revert retyped key key' unique unique' indexed indexed' free free'
  decide +kernel

variable {a e}

theorem mem_given {b : Bool} {s t : IndexShape} : s ∈ given b t ↔ b = true ∧ s = t := by
  cases b <;> simp [given]

theorem mem_left {b : Bool} {s t : IndexShape} {shapes : List IndexShape} :
    s ∈ left b t shapes ↔ s ∈ shapes ∧ (b = true → s ≠ t) := by
  cases b <;> simp [left]

theorem unique_mem_shapes {f : Field} : .unique ∈ f.shapes ↔ f.unique = true ∧ f.primaryKey = false := by
  simp [shapes_eq, mem_given]

theorem plain_mem_shapes {f : Field} :
    .plain ∈ f.shapes ↔ f.indexed = true ∧ f.primaryKey = false ∧ f.foreignKey.isNone = true ∧ f.unique = false := by
  simp [shapes_eq, mem_given, and_assoc]

theorem primary_mem_shapes {f : Field} : .primary ∈ f.shapes ↔ f.primaryKey = true := by
  simp [shapes_eq, mem_given]

theorem unique_mem_of_drops (h : a.dropsUnique e = true) : .unique ∈ a.old.shapes := by
  rw [unique_mem_shapes]
  simp only [dropsUnique, Bool.and_eq_true, Bool.not_eq_true'] at h
  exact h.1

theorem plain_mem_left_iff (h : a.dropsIndex e = true) :
    .plain ∈ left (a.dropsUnique e) .unique a.old.shapes ↔ a.dropsAbsentIndex e = false := by
  rw [mem_left, plain_mem_shapes, dropsAbsentIndex, h]
  simp only [dropsIndex, hadIndex, Bool.and_eq_true, Bool.not_eq_true'] at h
  simp [h.1]

/-- A column that changes its type is free of indexes by then. -/
theorem keptShapes_of_changesType (h : a.changesType e = true) :
    a.keptShapes e = [] := by
  refine List.eq_nil_iff_forall_not_mem.mpr fun s hs => ?_
  simp only [keptShapes, mem_left, dropsPrimaryKey, dropsIndex, dropsUnique, hadIndex, h] at hs
  cases s with
  | primary => grind [primary_mem_shapes]
  | unique => grind [unique_mem_shapes]
  | plain => grind [plain_mem_shapes]

end Alteration

namespace Alteration

/-- The names of the table and of both columns are simple ones, and that of the old column is not cut. -/
structure SimpleNames (e : Engine) (a : Alteration) : Prop where
  table : Simple a.table
  old : Simple a.old.column
  new : Simple a.column
  oldFits : a.old.column.toList.length ≤ e.identifierLimit

end Alteration

namespace Store

variable {faults : Faults} {e : Engine} {o : Options} {a : Alteration} {column : String} {st st' : Store} {shapes : List IndexShape}

/-! The steps of an alteration -/

/-- The table has no constraints but keys and indexes, so others are dropped in vain. -/
theorem dropNone_at {p : Catalog.Constraint → Bool} (h : ∀ i : StoredIndex, p i.describe = false) (b : Bool) :
    Triple (At e a.table column shapes) (if b then (editor faults e o a.table).dropWhere a.table p else Pure.pure ())
      (fun _ => At e a.table column shapes) (fun error _ => Lost faults error) := by
  cases b with
  | true =>
    rintro x ⟨st, hp, hc, hs, hx⟩
    refine Triple.bind (constraintsWhere_has hp p) (fun found => ?_) x hx
    rintro y ⟨rfl, hy⟩
    have none : st.described.filter p = [] := by
      rw [List.filter_eq_nil_iff]
      intro c hm
      obtain ⟨i, -, rfl⟩ := mem_described.mp hm
      simp [h i]
    rw [none]
    exact Action.ends_ok.mpr ⟨st, hp, hc, hs, hy⟩
  | false => exact Triple.pure fun _ h => h

theorem incomingKeys_has (name : String) :
    Triple (Has a.table st) ((editor faults e o a.table).incomingKeys a.table name) (fun keys x => keys = [] ∧ Has a.table st x)
      (fun error _ => Lost faults error) := by
  intro x hx
  rw [Editor.incomingKeys, Editor.unlessCollecting, if_neg (by exact Bool.false_ne_true), Catalog.incomingKeys,
    Editor.onLink_bind]
  refine Triple.bind (ask_has fun _ h => by cases h) (fun rows => ?_) x hx
  rintro y ⟨rfl, hy⟩
  exact Action.ends_ok.mpr ⟨rfl, hy⟩

theorem takeIncoming_at :
    Triple (At e a.table column shapes) ((editor faults e o a.table).takeIncoming a)
      (fun keys x => keys = [] ∧ At e a.table column shapes x) (fun error _ => Lost faults error) := by
  unfold Editor.takeIncoming
  split
  · rintro x ⟨st, hp, hc, hs, hx⟩
    refine Triple.bind (incomingKeys_has _) (fun keys => ?_) x hx
    rintro y ⟨rfl, hy⟩
    exact Action.ends_ok.mpr ⟨rfl, st, hp, hc, hs, hy⟩
  · exact Triple.pure fun x hx => ⟨rfl, hx⟩

theorem dropOwnIndexes_at (hn : a.SimpleNames e) (h : a.dropsAbsentIndex e = false) :
    Triple (At e a.table (catalogName e a.old.column) a.old.shapes) ((editor faults e o a.table).dropOwnIndexes a)
      (fun _ => At e a.table (catalogName e a.old.column) (a.keptShapes e)) (fun error _ => error.Ordinary) := by
  let kept := Alteration.left (a.dropsUnique e) .unique a.old.shapes
  let left := Alteration.left (a.dropsIndex e) .plain kept
  have key : Triple (At e a.table (catalogName e a.old.column) left)
      (if a.dropsPrimaryKey e then
        (editor faults e o a.table).dropWhere a.table (Editor.isPrimaryKeyOver a.old.column)
      else Pure.pure ())
      (fun _ => At e a.table (catalogName e a.old.column) (a.keptShapes e)) (fun error _ => error.Ordinary) := by
    rw [show a.keptShapes e = Alteration.left (a.dropsPrimaryKey e) .primary left from rfl, Alteration.left]
    by_cases hd : a.dropsPrimaryKey e = true
    · rw [if_pos hd, if_pos hd]
      exact dropWhere_at hn.table fun i hi hc => isPrimaryKeyOver_describe hn.old hn.oldFits hi hc
    · rw [if_neg hd, if_neg hd]
      exact Triple.pure fun _ h => h
  refine Triple.when (R := At e a.table (catalogName e a.old.column) kept) (fun hd => ?_) (fun hd x hx => ?_) ?_
  · rw [show kept = _ from if_pos hd]
    exact dropIndexOver_at hn.table hn.old hn.oldFits (Alteration.unique_mem_of_drops hd)
  · rwa [show kept = _ from if_neg hd]
  · refine Triple.when (R := At e a.table (catalogName e a.old.column) left) (fun hd => ?_) (fun hd x hx => ?_) key
    · rw [show left = _ from if_pos hd]
      exact dropIndexOver_at hn.table hn.old hn.oldFits ((Alteration.plain_mem_left_iff hd).mpr h)
    · rwa [show left = _ from if_neg hd]

theorem dropOwnIndexes_missing (hn : a.SimpleNames e) (h : a.dropsAbsentIndex e = true) :
    Triple (At e a.table (catalogName e a.old.column) a.old.shapes) ((editor faults e o a.table).dropOwnIndexes a)
      (fun _ _ => False)
      (fun error _ => error = .catalogInconsistency (.missingIndex false a.table [a.old.column]) ∨ Lost faults error) := by
  obtain ⟨hd, hk⟩ := Bool.and_eq_true_iff.mp h
  have unique : a.dropsUnique e = false := by simp [Alteration.dropsUnique, hk]
  have absent : IndexShape.plain ∉ a.old.shapes := by simp [Alteration.plain_mem_shapes, hk]
  unfold Editor.dropOwnIndexes
  rw [if_neg (by exact (Bool.not_eq_true _).mpr unique), if_pos (by exact hd)]
  exact (dropIndexOver_missing hn.old hn.oldFits absent).bind fun _ _ h => h.elim

theorem runAll_has {table : String} {ss : List Statement} (hs : ∀ s ∈ ss, ∀ q, s ≠ .catalog q) :
    Triple (Has table st) ((editor faults e o table).runAll table ss)
      (fun _ x => ∃ st', ss.foldlM (exec (catalogName e table)) st = some st' ∧ Has table st' x)
      (fun error _ => error.Ordinary) := by
  induction ss generalizing st with
  | nil => exact Triple.pure fun x hx => ⟨st, rfl, hx⟩
  | cons s ss ih =>
    refine (run_has (hs s List.mem_cons_self)).bind fun _ => ?_
    rintro x ⟨next, hnext, hx⟩
    refine (ih (fun t ht => hs t (List.mem_cons_of_mem s ht)) x hx).mono ?_ fun _ _ => id
    rintro - y ⟨st', hst, hy⟩
    refine ⟨st', ?_, hy⟩
    rw [List.foldlM_cons, hnext]
    exact hst

theorem runAll_append {P Q : Editor.State Link → Prop} {R : Editor.State Link → Prop} {E : Error → Editor.State Link → Prop}
    {ed : Editor Link} {table : String} {ss ts : List Statement} (hs : Triple P (ed.runAll table ss) (fun _ => Q) E)
    (ht : Triple Q (ed.runAll table ts) (fun _ => R) E) : Triple P (ed.runAll table (ss ++ ts)) (fun _ => R) E := by
  rw [Editor.runAll, Action.forEach_append]
  exact hs.bind fun _ => ht

theorem renameColumn_at {old new : String} (ht : Simple a.table) (ho : Simple old) (hn : Simple new) :
    Triple (At e a.table (catalogName e old) shapes)
      ((editor faults e o a.table).run a.table
        (.renameColumn (a.tableIdentifier e) (Identifier.quote e old) (Identifier.quote e new)))
      (fun _ => At e a.table (catalogName e new) shapes) (fun error _ => error.Ordinary) := by
  refine run_at (fun _ h => by cases h) fun st st' hp hc hl hst => ?_
  rw [exec_about ht rfl, change, ho.stored_quote, hn.stored_quote] at hst
  split at hst
  · next h =>
    obtain rfl := Option.some.inj hst
    refine ⟨hp.renameColumn hn.canonical h.2, ?_, ?_⟩
    · exact List.mem_map.mpr ⟨_, hc, if_pos rfl⟩
    · rw [onColumn_renameColumn hp h.2, hl]
  · exact absurd hst (by simp)

theorem renameStatements_at (hn : a.SimpleNames e) :
    Triple (At e a.table (catalogName e a.old.column) shapes)
      ((editor faults e o a.table).runAll a.table (a.renameStatements e))
      (fun _ => At e a.table (catalogName e a.column) shapes) (fun error _ => error.Ordinary) := by
  have renamed : Triple (At e a.table (catalogName e a.old.column) shapes) ((editor faults e o a.table).runAll a.table
      [.renameColumn (a.tableIdentifier e) (Identifier.quote e a.old.column) (a.columnIdentifier e)])
      (fun _ => At e a.table (catalogName e a.column) shapes) (fun error _ => error.Ordinary) :=
    (renameColumn_at hn.table hn.old hn.new).bind fun _ => Triple.pure fun _ h => h
  unfold Alteration.renameStatements
  split
  · next h =>
    have same : catalogName e a.old.column = catalogName e a.column := by
      have letters : Text.sameAsciiLetters a.old.column.toList a.column.toList = true := by
        simpa [Alteration.renames, Alteration.column] using h
      have quoted := Identifier.quote_eq_of_sameAsciiLetters e hn.old.plain hn.new.plain letters
      rw [← hn.old.stored_quote, ← hn.new.stored_quote, quoted]
    rw [same]
    exact Triple.pure fun _ h => h
  · split
    · refine Triple.bind (run_keeps rfl) fun _ => runAll_append renamed (runAll_keeps ?_)
      simp [Statement.keepsIndexes]
    · exact renamed

theorem onColumn_of_notMem (hp : st.Proper e) (hc : column ∉ st.columns) : st.onColumn column = [] := by
  have none : st.indexes.filter (·.columns = [column]) = [] := by
    rw [List.filter_eq_nil_iff]
    intro i hi h
    exact hc (hp.covered i hi column (by simp [of_decide_eq_true h]))
  rw [onColumn, none, List.map_nil]

/-- A column that takes the values of another one, and then its name, does not take its indexes. -/
theorem rebuild {table : String} {old new : Identifier} {definition : ColumnDefinition} (ht : Simple table)
    (hp : st.Proper e) (ho : Canonical e old.stored) (hn : Canonical e new.stored) (hk : definition.primaryKey = false)
    (h : [.addColumn (Identifier.quote e table) new definition, .copyColumn (Identifier.quote e table) old new,
      .dropColumn (Identifier.quote e table) old, .renameColumn (Identifier.quote e table) new old].foldlM
        (exec (catalogName e table)) st = some st') :
    st'.Proper e ∧ old.stored ∈ st'.columns ∧ st'.onColumn old.stored = [] := by
  simp only [List.foldlM_cons, List.foldlM_nil, Option.bind_eq_bind, Option.bind_eq_some_iff] at h
  obtain ⟨added, hadd, copied, hcopy, dropped, hdrop, renamed, hrename, h⟩ := h
  obtain rfl := Option.some.inj h
  rw [exec_about (s := .addColumn ..) ht rfl, change] at hadd
  rw [exec_about (s := .dropColumn ..) ht rfl, change] at hdrop
  rw [exec_about (s := .renameColumn ..) ht rfl, change] at hrename
  have keeps : (Statement.copyColumn (Identifier.quote e table) old new).keepsIndexes = true := rfl
  rw [exec_of_keepsIndexes keeps] at hcopy
  obtain rfl := Option.some.inj hcopy
  have fresh : new.stored ∉ st.columns := by
    intro hm
    rw [if_pos hm] at hadd
    exact absurd hadd (by simp)
  rw [if_neg fresh, hk, if_neg Bool.false_ne_true] at hadd
  obtain rfl := Option.some.inj hadd
  split at hdrop
  case isFalse => exact absurd hdrop (by simp)
  obtain rfl := Option.some.inj hdrop
  split at hrename
  case isFalse => exact absurd hrename (by simp)
  next hc =>
  obtain rfl := Option.some.inj hrename
  have proper := (hp.addColumn hn).dropColumn old.stored
  refine ⟨proper.renameColumn ho hc.2, List.mem_map.mpr ⟨_, hc.1, if_pos rfl⟩, ?_⟩
  rw [onColumn_renameColumn proper hc.2]
  have none := onColumn_of_notMem (hp.filter fun i => old.stored ∉ i.columns) fresh
  exact none

theorem retypeStatements_at (hn : a.SimpleNames e) (h : a.changesType e = true → shapes = []) :
    Triple (At e a.table (catalogName e a.column) shapes)
      ((editor faults e o a.table).runAll a.table (a.retypeStatements e))
      (fun _ => At e a.table (catalogName e a.column) shapes) (fun error _ => error.Ordinary) := by
  unfold Alteration.retypeStatements
  by_cases hr : a.rebuilds e = true
  · rw [if_pos hr, h (Bool.and_eq_true_iff.mp hr).1]
    rintro x ⟨st, hp, -, -, hx⟩
    refine (runAll_has ?_ x hx).mono ?_ fun _ _ => id
    · simp
    rintro - y ⟨st', hst, hy⟩
    have stored : (a.columnIdentifier e).stored = catalogName e a.column := hn.new.stored_quote
    have suffix : ∀ c ∈ "_tmp".toList, Text.Visible c := Text.visible_of_all (by decide)
    have temporary : Simple (a.column ++ "_tmp") := by
      refine ⟨by simp [hn.new.1], fun c hc => ?_⟩
      rw [String.toList_append] at hc
      rcases List.mem_append.mp hc with hc | hc
      · exact hn.new.2 c hc
      · exact suffix c hc
    obtain ⟨hp', hc', hl'⟩ := rebuild hn.table hp (stored ▸ hn.new.canonical)
      (temporary.stored_quote ▸ temporary.canonical) rfl hst
    rw [stored] at hc' hl'
    exact ⟨st', hp', hc', hl', hy⟩
  · rw [if_neg hr]
    split
    · exact runAll_keeps (by simp [Statement.keepsIndexes])
    · exact runAll_keeps (by simp)

theorem columnStatements_at (hn : a.SimpleNames e) (h : a.changesType e = true → shapes = []) :
    Triple (At e a.table (catalogName e a.old.column) shapes)
      ((editor faults e o a.table).runAll a.table (a.columnStatements e o))
      (fun _ => At e a.table (catalogName e a.column) shapes) (fun error _ => error.Ordinary) := by
  have defaults : ∀ s ∈ a.defaultStatements e o, s.keepsIndexes = true :=
    Alteration.forall_defaultStatements (fun _ _ => rfl) fun _ _ => rfl
  have nullability : ∀ s ∈ a.nullabilityStatements e, s.keepsIndexes = true :=
    Alteration.forall_nullabilityStatements (fun _ _ => rfl) fun _ _ => rfl
  have clear : ∀ s ∈ a.clearStatements e o, s.keepsIndexes = true :=
    Alteration.forall_clearStatements fun _ => rfl
  refine runAll_append (runAll_append (runAll_append ?_ (runAll_keeps defaults)) (runAll_keeps nullability))
    (runAll_keeps clear)
  exact runAll_append (renameStatements_at hn) (retypeStatements_at hn h)

theorem createOwn_at (faults : Faults) (o : Options) (hn : a.SimpleNames e) (b unique : Bool) :
    Triple (At e a.table (catalogName e a.column) shapes)
      (if b then (editor faults e o a.table).createDerivedIndex a.table [a.column] unique else Pure.pure ())
      (fun _ => At e a.table (catalogName e a.column) (shapes ++ Alteration.given b (shapeOf unique)))
      (fun error _ => error.Ordinary) := by
  have single : ∀ c ∈ [a.column], Simple c := by simpa using hn.new
  cases b with
  | true =>
    have added : adds e (catalogName e a.column) [a.column] (shapeOf unique) = [shapeOf unique] := if_pos rfl
    have created : Triple (At e a.table (catalogName e a.column) shapes)
        ((editor faults e o a.table).createDerivedIndex a.table [a.column] unique) _ _ :=
      createDerivedIndex_at hn.table single unique
    rwa [added] at created
  | false =>
    rw [show Alteration.given false (shapeOf unique) = [] from rfl, List.append_nil]
    exact Triple.pure fun _ h => h

theorem createOwnIndexes_at (hn : a.SimpleNames e) :
    Triple (At e a.table (catalogName e a.column) shapes) ((editor faults e o a.table).createOwnIndexes a)
      (fun _ => At e a.table (catalogName e a.column)
        (shapes ++ Alteration.given (a.createsUnique e) .unique ++ Alteration.given (a.createsIndex e) .plain))
      (fun error _ => error.Ordinary) := by
  have unique : Triple (At e a.table (catalogName e a.column) shapes) _ _ _ :=
    createOwn_at faults o hn (a.createsUnique e) true
  have plain : Triple (At e a.table (catalogName e a.column) (shapes ++ Alteration.given (a.createsUnique e) .unique)) _ _ _ :=
    createOwn_at faults o hn (a.createsIndex e) false
  unfold Editor.createOwnIndexes
  by_cases hu : a.createsUnique e = true
  · rw [if_pos hu] at unique
    exact Triple.when (fun _ => unique) (fun h => absurd hu h) plain
  · rw [if_neg hu] at unique
    exact Triple.when (fun h => absurd h hu) (fun _ x hx => (unique x hx).of_ok _ _ rfl) plain

theorem displaceKey_has (ht : Simple a.table) (hp : st.Proper e) {c : Catalog.Constraint} (hc : c ∈ st.described)
    (done : List Catalog.Constraint) :
    Triple (Has a.table (st.without done)) ((editor faults e o a.table).displaceKey a.table c)
      (fun keys x => keys = [] ∧ Has a.table (st.without (done ++ [c])) x) (fun error _ => error.Ordinary) := by
  have asked : Triple (Has a.table (st.without done))
      (c.columns.mapM ((editor faults e o a.table).incomingKeys a.table)) _ _ :=
    Action.mapM_triple incomingKeys_has c.columns
  refine (ordinary_of_lost asked).bind fun keys => ?_
  rintro x ⟨none, hx⟩
  have flat : keys.flatten = [] := List.flatten_eq_nil_iff.mpr none
  rw [flat]
  refine Triple.bind (R := fun _ => Has a.table (st.without done)) (Triple.pure fun _ h => h) (fun _ => ?_) x hx
  exact (dropConstraint_has ht hp hc done).bind fun _ => Triple.pure fun _ h => ⟨rfl, h⟩

theorem displaceKeys_has (ht : Simple a.table) (hp : st.Proper e) {found : List Catalog.Constraint}
    (hf : ∀ c ∈ found, c ∈ st.described) (done : List Catalog.Constraint) :
    Triple (Has a.table (st.without done)) (found.mapM ((editor faults e o a.table).displaceKey a.table))
      (fun keys x => keys.flatten = [] ∧ Has a.table (st.without (done ++ found)) x) (fun error _ => error.Ordinary) := by
  induction found generalizing done with
  | nil =>
    rw [List.append_nil, List.mapM_nil]
    exact Triple.pure fun _ h => ⟨rfl, h⟩
  | cons c found ih =>
    rw [List.append_cons, List.mapM_cons]
    refine (displaceKey_has ht hp (hf c List.mem_cons_self) done).bind fun keys => ?_
    rintro x ⟨rfl, hx⟩
    refine Triple.bind (ih (fun c hm => hf c (List.mem_cons_of_mem _ hm)) (done ++ [c])) (fun rest => ?_) x hx
    exact Triple.pure fun y hy => ⟨by rw [List.flatten_cons, hy.1, List.nil_append], hy.2⟩

theorem displacePrimaryKey_at (hn : a.SimpleNames e) :
    Triple (At e a.table (catalogName e a.column) shapes) ((editor faults e o a.table).displacePrimaryKey a)
      (fun keys x => keys = [] ∧
        At e a.table (catalogName e a.column) (Alteration.left a.displacesPrimaryKey .primary shapes) x)
      (fun error _ => error.Ordinary) := by
  unfold Editor.displacePrimaryKey Alteration.left
  by_cases hd : a.displacesPrimaryKey = true
  · rw [if_pos hd, if_pos hd]
    rintro x ⟨st, hp, hc, hs, hx⟩
    refine Triple.bind (ordinary_of_lost (constraintsWhere_has hp _))
      (fun found => ?_) x hx
    rintro x ⟨rfl, hx⟩
    have member : ∀ c ∈ st.described.filter (·.kind == .primaryKey), c ∈ st.described :=
      fun c hm => (List.mem_filter.mp hm).1
    have displaced : Triple (Has a.table (st.without []))
        (List.mapM ((editor faults e o a.table).displaceKey a.table) _) (fun _ x => _ ∧ Has a.table (st.without ([] ++ _)) x) _ :=
      displaceKeys_has hn.table hp member []
    rw [without_nil, List.nil_append] at displaced
    refine Triple.bind displaced (fun keys => ?_) x hx
    refine Triple.pure fun y hy => ⟨hy.1, st.without _, hp.without _, hc, ?_, hy.2⟩
    rw [onColumn_without (r := fun s => decide (s = .primary)) fun i _ _ => ?_, hs]
    have kind : i.describe.kind = i.shape.kind := rfl
    rw [kind]
    cases i.shape <;> decide
  · rw [if_neg hd, if_neg hd]
    exact Triple.pure fun _ h => ⟨rfl, h⟩

theorem addPrimaryKey_at {table name own : String} (ht : Simple table) (hn : Simple name) (ho : Simple own) :
    Triple (At e table (catalogName e own) shapes) ((editor faults e o table).run table
      (.addConstraint (Identifier.quote e table) (Identifier.quote e name) (.primaryKey [Identifier.quote e own])))
      (fun _ => At e table (catalogName e own) (shapes ++ [.primary])) (fun error _ => error.Ordinary) := by
  have direct (st : Store) : st.exec (catalogName e table) (.addConstraint (Identifier.quote e table)
      (Identifier.quote e name) (.primaryKey [Identifier.quote e own])) =
        st.insert ⟨catalogName e name, .primary, [catalogName e own]⟩ := by
    rw [exec_about ht rfl, change, hn.stored_quote, List.map_singleton, ho.stored_quote]
  have inserted : Triple (At e table (catalogName e own) shapes) ((editor faults e o table).run table _) _ _ :=
    run_insert (fun q h => by cases h) hn.canonical direct
  rwa [if_pos rfl] at inserted

theorem primaryKeyStatements_at (hn : a.SimpleNames e) :
    Triple (At e a.table (catalogName e a.column) shapes)
      ((editor faults e o a.table).runAll a.table (a.primaryKeyStatements e))
      (fun _ => At e a.table (catalogName e a.column) (shapes ++ Alteration.given (a.createsPrimaryKey e) .primary))
      (fun error _ => error.Ordinary) := by
  unfold Alteration.primaryKeyStatements Alteration.given
  by_cases hc : a.createsPrimaryKey e = true
  · rw [if_pos hc, if_pos hc]
    have suffix : ∀ c ∈ "_pk".toList, Text.Visible c := Text.visible_of_all (by decide)
    have single : ∀ c ∈ [a.column], Simple c := by simpa using hn.new
    have name := Identifier.simple_derivedName (e := e) hn.table single suffix
    exact (addPrimaryKey_at hn.table name hn.new).bind fun _ => Triple.pure fun _ h => h
  · rw [if_neg hc, if_neg hc, List.append_nil]
    exact Triple.pure fun _ h => h

theorem returnNothing_at :
    Triple (At e a.table column shapes) ((editor faults e o a.table).returnIncoming a [] [])
      (fun _ => At e a.table column shapes) (fun error _ => error.Ordinary) := by
  unfold Editor.returnIncoming
  split
  · exact Triple.pure fun _ h => h
  · exact Triple.pure fun _ h => h

theorem createOwnForeignKey_at :
    Triple (At e a.table column shapes) ((editor faults e o a.table).createOwnForeignKey a)
      (fun _ => At e a.table column shapes) (fun error _ => error.Ordinary) := by
  refine runAll_keeps fun s hs => ?_
  obtain ⟨key, -, rfl⟩ := List.mem_map.mp hs
  rfl

theorem checkStatements_at :
    Triple (At e a.table column shapes) ((editor faults e o a.table).runAll a.table (a.checkStatements e))
      (fun _ => At e a.table column shapes) (fun error _ => error.Ordinary) := by
  refine runAll_keeps fun s hs => ?_
  unfold Alteration.checkStatements at hs
  split at hs
  · split at hs
    · obtain rfl := List.mem_singleton.mp hs
      rfl
    · exact absurd hs List.not_mem_nil
  · exact absurd hs List.not_mem_nil

theorem dropListed_at {q : CatalogQuery} (hq : ∀ relation, q ≠ .indexes relation) (s : Statement) :
    Triple (At e a.table column shapes)
      (do
        let rows ← Editor.onLink (Catalog.ask (editor faults e o a.table).cursor q)
        if !rows.isEmpty then (editor faults e o a.table).run a.table s)
      (fun _ => At e a.table column shapes) (fun error _ => error.Ordinary) := by
  rintro x ⟨st, hp, hc, hl, hx⟩
  refine Triple.bind (ordinary_of_lost (ask_has hq)) (fun rows => ?_) x hx
  rintro y ⟨rfl, hy⟩
  exact Action.ends_ok.mpr ⟨st, hp, hc, hl, hy⟩

theorem dropCounting_at :
    Triple (At e a.table column shapes) ((editor faults e o a.table).dropCounting a.table)
      (fun _ => At e a.table column shapes) (fun error _ => error.Ordinary) := by
  have trigger : Triple (At e a.table column shapes) ((editor faults e o a.table).dropTrigger a.table)
      (fun _ => At e a.table column shapes) (fun error _ => error.Ordinary) := by
    rw [Editor.dropTrigger, Editor.triggerExists, Editor.unlessCollecting, if_neg (by exact Bool.false_ne_true),
      Catalog.triggerExists, Editor.onLink_bind, bind_assoc]
    exact dropListed_at (fun _ h => by cases h) _
  have sequence : Triple (At e a.table column shapes) ((editor faults e o a.table).dropSequence a.table)
      (fun _ => At e a.table column shapes) (fun error _ => error.Ordinary) := by
    rw [Editor.dropSequence, Editor.sequenceExists, Editor.unlessCollecting, if_neg (by exact Bool.false_ne_true),
      Catalog.sequenceExists, Editor.onLink_bind, bind_assoc]
    exact dropListed_at (fun _ h => by cases h) _
  exact trigger.bind fun _ => sequence

theorem alterCounting_at :
    Triple (At e a.table column shapes) ((editor faults e o a.table).alterCounting a)
      (fun _ => At e a.table column shapes) (fun error _ => error.Ordinary) := by
  unfold Editor.alterCounting
  split
  · refine runAll_keeps ?_
    simp [Sequence.setUp, Statement.keepsIndexes]
  · split
    · exact dropCounting_at
    · exact Triple.pure fun _ h => h

theorem refresh_at :
    Triple (At e a.table column shapes) (editor faults e o a.table).refresh (fun _ => At e a.table column shapes)
      (fun error _ => error.Ordinary) := by
  unfold Editor.refresh
  split
  · rintro x ⟨st, hp, hc, hs, hx⟩
    have committed : Triple (fun link : Link => link.store = st) (editor faults e o a.table).cursor.commit
        (fun _ link => link.store = st) (fun error _ => error.Ordinary) :=
      call_triple (fun _ _ h => h) (fun _ h => Action.ends_ok.mpr h) fun _ _ h _ => h.ordinary
    exact onLink_triple (P := Has a.table st) committed (fun _ => Has.store)
      (fun y _ link hy hl => ⟨st, hp, hc, hs, hl, hy.cache⟩) x hx
  · exact Triple.pure fun _ h => h

/-- Before the indexes nothing is dropped. -/
theorem alterField_from {Q : Unit → Editor.State Link → Prop} {E : Error → Editor.State Link → Prop}
    (he : ∀ error x, Lost faults error → E error x)
    (h : Triple (At e a.table column shapes)
      (do
        (editor faults e o a.table).dropOwnIndexes a
        (editor faults e o a.table).dropOwnChecks a
        (editor faults e o a.table).runAll a.table (a.columnStatements e o)
        (editor faults e o a.table).createOwnIndexes a
        let displaced ← (editor faults e o a.table).displacePrimaryKey a
        (editor faults e o a.table).runAll a.table (a.primaryKeyStatements e)
        (editor faults e o a.table).returnIncoming a [] displaced
        (editor faults e o a.table).createOwnForeignKey a
        (editor faults e o a.table).runAll a.table (a.checkStatements e)
        (editor faults e o a.table).alterCounting a
        (editor faults e o a.table).refresh) Q E) :
    Triple (At e a.table column shapes) ((editor faults e o a.table).alterField a) Q E := by
  refine ((dropNone_at (isForeignKeyOver_describe a.old.column) _).weaken (fun _ => id) (fun _ _ => id) he).bind
    fun _ => ?_
  refine (takeIncoming_at.weaken (fun _ => id) (fun _ _ => id) he).bind fun incoming => ?_
  rintro x ⟨rfl, hx⟩
  exact h x hx

/-- An alteration leaves the final shapes over its column, if it drops no index that is not there. -/
theorem alterField_at (hn : a.SimpleNames e) (h : a.dropsAbsentIndex e = false) :
    Triple (At e a.table (catalogName e a.old.column) a.old.shapes) ((editor faults e o a.table).alterField a)
      (fun _ => At e a.table (catalogName e a.column) (a.finalShapes e)) (fun error _ => error.Ordinary) := by
  have changed : a.changesType e = true → a.keptShapes e = [] := Alteration.keptShapes_of_changesType
  refine alterField_from (fun _ _ => Lost.ordinary) ((dropOwnIndexes_at hn h).bind fun _ => ?_)
  refine (ordinary_of_lost (dropNone_at (isCheckOn_describe a.old.column) _)).bind fun _ => ?_
  refine (columnStatements_at hn changed).bind fun _ => ?_
  refine (createOwnIndexes_at hn).bind fun _ => ?_
  refine (displacePrimaryKey_at hn).bind fun displaced => ?_
  rintro y ⟨rfl, hy⟩
  refine Triple.bind (primaryKeyStatements_at hn) (fun _ => ?_) y hy
  refine returnNothing_at.bind fun _ => createOwnForeignKey_at.bind fun _ => ?_
  exact checkStatements_at.bind fun _ => alterCounting_at.bind fun _ => refresh_at

/-- An alteration that drops an index that is not there fails for that reason, unless a call fails before. -/
theorem alterField_missing (hn : a.SimpleNames e) (h : a.dropsAbsentIndex e = true) :
    Triple (At e a.table (catalogName e a.old.column) a.old.shapes) ((editor faults e o a.table).alterField a)
      (fun _ _ => False)
      (fun error _ => error = .catalogInconsistency (.missingIndex false a.table [a.old.column]) ∨ Lost faults error) :=
  alterField_from (fun _ _ => .inr) ((dropOwnIndexes_missing hn h).bind fun _ _ h => h.elim)

end Store

end FirebirdSql
