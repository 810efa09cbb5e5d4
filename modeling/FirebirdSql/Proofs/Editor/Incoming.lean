import FirebirdSql.Proofs.Editor.Course

/-!
Foreign keys of other tables while a field is altered: all that are dropped are put back, once what they reference is
as it will be.
-/

namespace FirebirdSql

open Catalog (IncomingKey)
open Exchange (changes reported)

/-- Names or types a column anew, or makes a primary key: what a foreign key has to wait for. -/
def Statement.shapesKey : Statement → Bool
  | .addColumn .. | .dropColumn .. | .renameColumn .. | .retypeColumn .. | .copyColumn ..
  | .addConstraint _ _ (.primaryKey _) => true
  | _ => false

/-- What altering a field sends, cut where incoming foreign keys are dropped and put back. -/
structure AlterationCourse where
  foreignKeyDrops : List Statement
  taken : List IncomingKey
  drops : List Statement
  indexes : List Statement
  /-- The primary keys of other columns, each with the keys that reference it. -/
  displaced : List (Catalog.Constraint × List IncomingKey)
  /-- The keys that are put back, with the columns that they reference then. -/
  returned : List (IncomingKey × String)
  counting : List Statement

namespace AlterationCourse

variable (ed : Editor σ) (a : Alteration) (c : AlterationCourse)

/-- The incoming keys that are dropped. -/
def dropped : List IncomingKey := c.taken ++ c.displaced.flatMap (·.2)

def dropOf (key : IncomingKey) : Statement := .dropConstraint (ed.quote key.table) (ed.quote key.name)

def returnOf (key : IncomingKey) (target : String) : Statement :=
  .addConstraint (ed.quote key.table) (ed.quote key.name)
    (.foreignKey [ed.quote key.column] (ed.quote a.table) [ed.quote target] (explicitRule? key.updateRule)
      (explicitRule? key.deleteRule))

/-- What is sent until the column and the primary key are as they will be. -/
def shaping : List Statement :=
  c.foreignKeyDrops ++ c.taken.map (dropOf ed) ++ c.drops ++ a.columnStatements ed.engine ed.options ++ c.indexes ++
    c.displaced.flatMap (fun (key, incoming) => incoming.map (dropOf ed) ++ [ed.dropStatement a.table key]) ++
    a.primaryKeyStatements ed.engine

def returning : List Statement := c.returned.map fun (key, target) => returnOf ed a key target

def closing : List Statement :=
  (a.newForeignKey? ed.engine).toList.map (ed.foreignKeyStatement a.table a.column) ++ a.checkStatements ed.engine ++
    c.counting

/-- What is dropped is put back, and what else is sent does not touch foreign keys of other tables. -/
structure Conserves : Prop where
  returned : (c.returned.map (·.1)).Perm c.dropped
  /-- The new column is referenced, or else the primary key if it is another column. -/
  targets : ∀ r ∈ c.returned, r.2 = a.column ∨
    ∃ f, a.model.primaryKey? = some f ∧ f.column ≠ a.old.column ∧ r.2 = f.column
  foreignKeyDrops : ∀ s ∈ c.foreignKeyDrops, s.drops = true
  drops : ∀ s ∈ c.drops, s.drops = true
  indexes : ∀ s ∈ c.indexes, s.createsIndex = true
  counting : ∀ s ∈ c.counting, s.counts = true

end AlterationCourse

namespace Alteration

variable (a : Alteration) (e : Engine)

theorem shapesKey_checkStatements {s : Statement} (hs : s ∈ a.checkStatements e) : s.shapesKey = false := by
  unfold checkStatements at hs
  split at hs
  · split at hs
    · obtain rfl := List.mem_singleton.mp hs
      rfl
    · exact absurd hs List.not_mem_nil
  · exact absurd hs List.not_mem_nil

/-- The incoming keys have a target if the new field is unique, or another column is the primary key. -/
theorem target?_eq (h : a.new.isUnique = true ∨ ∃ f, a.model.primaryKey? = some f ∧ f.column ≠ a.old.column) :
    ∃ target, a.target? = some target ∧ (target = a.column ∨
      ∃ f, a.model.primaryKey? = some f ∧ f.column ≠ a.old.column ∧ target = f.column) := by
  unfold target?
  by_cases hu : a.new.isUnique = true
  · exact ⟨a.column, if_pos hu, .inl rfl⟩
  · obtain ⟨f, hf, hne⟩ := h.resolve_left hu
    refine ⟨f.column, ?_, .inr ⟨f, hf, hne, rfl⟩⟩
    rw [if_neg hu, hf, Option.filter_some, if_pos (by simpa using hne)]
    rfl

end Alteration

namespace Editor

open AlterationCourse (dropOf returnOf)

section Execution

variable {ed : Editor σ} (hc : ed.collects = false) (a : Alteration)

include hc

theorem dropIncoming_leaves (keys : List IncomingKey) : Leaves State.notes (ed.traced.dropIncoming keys)
    fun _ ss found => ss = keys.map (dropOf ed) ∧ found = [] :=
  forEach_run_leaves hc _ _ keys

theorem addIncoming_leaves (target : String) (keys : List IncomingKey) :
    Leaves State.notes (ed.traced.addIncoming a.table target keys)
      fun _ ss found => ss = keys.map (returnOf ed a · target) ∧ found = [] :=
  forEach_run_leaves hc _ _ keys

theorem takeIncoming_leaves : Leaves State.notes (ed.traced.takeIncoming a)
    fun keys ss found => ss = keys.map (dropOf ed) ∧ found = keys := by
  refine Leaves.ite (fun _ => ?_) fun _ => Leaves.pure ⟨rfl, rfl⟩
  intro s keys t h
  obtain ⟨found, u, ha, h⟩ := Action.bind_ok h
  obtain ⟨_, v, hd, h⟩ := Action.bind_ok h
  obtain ⟨hr, rfl⟩ := Prod.mk.inj h
  obtain rfl := Except.ok.inj hr
  obtain ⟨xs, hxs, nothing, reported⟩ := incomingKeys_leaves a.table hc a.old.column s found u ha
  obtain ⟨ys, hys, dropped, none⟩ := dropIncoming_leaves hc found u _ v hd
  refine ⟨xs ++ ys, hxs.trans hys, ?_, ?_⟩
  · rw [Exchange.changes_append, nothing, dropped, List.nil_append]
  · rw [Exchange.reported_append, reported, none, List.append_nil]

/-- The keys that reference any column of a key. -/
theorem incomingOf_leaves (table : String) (columns : List String) :
    Leaves State.notes (columns.mapM (ed.traced.incomingKeys table)) fun found ss keys =>
      ss = [] ∧ keys = found.flatten := by
  induction columns with
  | nil => exact Leaves.pure ⟨rfl, rfl⟩
  | cons column columns ih =>
    rw [List.mapM_cons]
    intro s found t h
    obtain ⟨first, u, hf, h⟩ := Action.bind_ok h
    obtain ⟨others, v, ho, h⟩ := Action.bind_ok h
    obtain ⟨hr, rfl⟩ := Prod.mk.inj h
    obtain rfl := Except.ok.inj hr
    obtain ⟨xs, hxs, nothing, reported⟩ := incomingKeys_leaves table hc column s first u hf
    obtain ⟨ys, hys, nothing', reported'⟩ := ih u others v ho
    refine ⟨xs ++ ys, hxs.trans hys, ?_, ?_⟩
    · rw [Exchange.changes_append, nothing, nothing', List.nil_append]
    · rw [Exchange.reported_append, reported, reported', List.flatten_cons]

/-- What is sent for a primary key of other columns. -/
theorem displaceKey_leaves (table : String) (key : Catalog.Constraint) :
    Leaves State.notes (ed.traced.displaceKey table key) fun keys ss found =>
      ss = keys.map (dropOf ed) ++ [ed.dropStatement table key] ∧ found = keys := by
  intro s keys t h
  obtain ⟨found, u, ha, h⟩ := Action.bind_ok h
  obtain ⟨_, v, hd, h⟩ := Action.bind_ok h
  obtain ⟨_, w, hk, h⟩ := Action.bind_ok h
  obtain ⟨hr, rfl⟩ := Prod.mk.inj h
  obtain rfl := Except.ok.inj hr
  obtain ⟨xs, hxs, nothing, reported⟩ := incomingOf_leaves hc table key.columns s found u ha
  obtain ⟨ys, hys, dropped, none⟩ := dropIncoming_leaves hc found.flatten u _ v hd
  obtain ⟨zs, hzs, last, none'⟩ := run_leaves hc table (ed.dropStatement table key) v _ w hk
  refine ⟨xs ++ ys ++ zs, (hxs.trans hys).trans hzs, ?_, ?_⟩
  · rw [Exchange.changes_append, Exchange.changes_append, nothing, dropped, last, List.nil_append]
  · rw [Exchange.reported_append, Exchange.reported_append, reported, none, none', List.append_nil, List.append_nil]

theorem displaceKeys_leaves (table : String) (keys : List Catalog.Constraint) :
    Leaves State.notes (keys.mapM (ed.traced.displaceKey table)) fun found ss reported =>
      ∃ displaced : List (Catalog.Constraint × List IncomingKey), found = displaced.map (·.2) ∧
        ss = displaced.flatMap (fun (key, incoming) => incoming.map (dropOf ed) ++ [ed.dropStatement table key]) ∧
        reported = displaced.flatMap (·.2) := by
  induction keys with
  | nil => exact Leaves.pure ⟨[], rfl, rfl, rfl⟩
  | cons key keys ih =>
    rw [List.mapM_cons]
    intro s found t h
    obtain ⟨first, u, hf, h⟩ := Action.bind_ok h
    obtain ⟨others, v, ho, h⟩ := Action.bind_ok h
    obtain ⟨hr, rfl⟩ := Prod.mk.inj h
    obtain rfl := Except.ok.inj hr
    obtain ⟨xs, hxs, dropped, reported⟩ := displaceKey_leaves hc table key s first u hf
    obtain ⟨ys, hys, displaced, rfl, dropped', reported'⟩ := ih u others v ho
    refine ⟨xs ++ ys, hxs.trans hys, (key, first) :: displaced, rfl, ?_, ?_⟩
    · rw [Exchange.changes_append, dropped, dropped', List.flatMap_cons]
    · rw [Exchange.reported_append, reported, reported', List.flatMap_cons]

theorem displacePrimaryKey_leaves : Leaves State.notes (ed.traced.displacePrimaryKey a) fun keys ss found =>
    ∃ displaced : List (Catalog.Constraint × List IncomingKey), keys = displaced.flatMap (·.2) ∧
      ss = displaced.flatMap (fun (key, incoming) => incoming.map (dropOf ed) ++ [ed.dropStatement a.table key]) ∧
      found = displaced.flatMap (·.2) := by
  refine Leaves.ite (fun _ => ?_) fun _ => Leaves.pure ⟨[], rfl, rfl, rfl⟩
  refine (constraintsWhere_quiet a.table _).bind fun keys => ?_
  intro s found t h
  obtain ⟨lists, u, hd, h⟩ := Action.bind_ok h
  obtain ⟨hr, rfl⟩ := Prod.mk.inj h
  obtain rfl := Except.ok.inj hr
  obtain ⟨xs, hxs, displaced, rfl, sent, reported⟩ := displaceKeys_leaves hc a.table keys s lists u hd
  exact ⟨xs, hxs, displaced, (List.flatMap_def ..).symm, sent, reported⟩

theorem returnIncoming_leaves {target : String} (ht : a.target? = some target) (incoming displaced : List IncomingKey) :
    Leaves State.notes (ed.traced.returnIncoming a incoming displaced) fun _ ss keys =>
      ss = incoming.map (returnOf ed a · target) ++ displaced.map (returnOf ed a · a.column) ∧ keys = [] := by
  unfold returnIncoming
  rw [ht]
  refine (addIncoming_leaves hc a target incoming).bind (fun _ => addIncoming_leaves hc a a.column displaced) ?_
  rintro - - ss keys ss' keys' ⟨rfl, rfl⟩ ⟨rfl, rfl⟩
  exact ⟨rfl, rfl⟩

/-- What follows once the keys are back is about the table's own foreign key, checks and counting. -/
theorem close_leaves : Leaves State.notes
    (do
      ed.traced.createOwnForeignKey a
      ed.traced.runAll a.table (a.checkStatements ed.engine)
      ed.traced.alterCounting a
      ed.traced.refresh)
    fun _ ss keys => keys = [] ∧ ∃ counting, (∀ s ∈ counting, s.counts = true) ∧
      ss = (a.newForeignKey? ed.engine).toList.map (ed.foreignKeyStatement a.table a.column) ++
        a.checkStatements ed.engine ++ counting := by
  intro s _ t h
  obtain ⟨_, s₁, h₁, h⟩ := Action.bind_ok h
  obtain ⟨_, s₂, h₂, h⟩ := Action.bind_ok h
  obtain ⟨_, s₃, h₃, h₄⟩ := Action.bind_ok h
  obtain ⟨x₁, p₁, c₁, r₁⟩ := runAll_leaves a.table hc _ s _ s₁ h₁
  obtain ⟨x₂, p₂, c₂, r₂⟩ := runAll_leaves a.table hc _ s₁ _ s₂ h₂
  obtain ⟨x₃, p₃, counting, r₃⟩ := alterCounting_sends hc a s₂ _ s₃ h₃
  obtain ⟨x₄, p₄, c₄, r₄⟩ := refresh_quiet s₃ _ t h₄
  refine ⟨_, ((p₁.trans p₂).trans p₃).trans p₄, ?_, changes x₃, counting, ?_⟩
  · simp [r₁, r₂, r₃, r₄]
  · rw [Exchange.changes_append, Exchange.changes_append, Exchange.changes_append, c₁, c₂, c₄, List.append_nil]
    rfl

omit hc in
theorem shapesKey_closing {c : AlterationCourse} (h : ∀ s ∈ c.counting, s.counts = true) :
    ∀ s ∈ c.closing ed a, s.shapesKey = false := by
  intro s hs
  rcases List.mem_append.mp hs with hs | hs
  · rcases List.mem_append.mp hs with hs | hs
    · obtain ⟨key, -, rfl⟩ := List.mem_map.mp hs
      rfl
    · exact a.shapesKey_checkStatements ed.engine hs
  · have counts := h s hs
    cases s <;> first | rfl | cases counts

/-- An alteration that succeeds drops just the incoming keys that the catalog reports, and puts all of them back with
their rules, after it has shaped the column and the primary key. -/
theorem alterField_returns_keys
    (ht : a.new.isUnique = true ∨ ∃ f, a.model.primaryKey? = some f ∧ f.column ≠ a.old.column)
    {x y : State (Noted σ Entry)} (h : ed.traced.alterField a x = (.ok (), y)) :
    ∃ xs c, Passes State.notes x y xs ∧
      changes xs = AlterationCourse.shaping ed a c ++ AlterationCourse.returning ed a c ++ AlterationCourse.closing ed a c ∧
      reported xs = c.dropped ∧ c.Conserves a ∧ ∀ s ∈ AlterationCourse.closing ed a c, s.shapesKey = false := by
  obtain ⟨target, target?, valid⟩ := a.target?_eq ht
  -- The states between the steps of the alteration, in the order of the steps.
  obtain ⟨_, s₁, h₁, h⟩ := Action.bind_ok h
  obtain ⟨taken, s₂, h₂, h⟩ := Action.bind_ok h
  obtain ⟨_, s₃, h₃, h⟩ := Action.bind_ok h
  obtain ⟨_, s₄, h₄, h⟩ := Action.bind_ok h
  obtain ⟨_, s₅, h₅, h⟩ := Action.bind_ok h
  obtain ⟨_, s₆, h₆, h⟩ := Action.bind_ok h
  obtain ⟨found, s₇, h₇, h⟩ := Action.bind_ok h
  obtain ⟨_, s₈, h₈, h⟩ := Action.bind_ok h
  obtain ⟨_, s₉, h₉, h₁₀⟩ := Action.bind_ok h
  obtain ⟨x₁, p₁, foreignKeyDrops, r₁⟩ := dropOwnForeignKey_sends hc a x _ s₁ h₁
  obtain ⟨x₂, p₂, c₂, r₂⟩ := takeIncoming_leaves hc a s₁ taken s₂ h₂
  obtain ⟨x₃, p₃, indexDrops, r₃⟩ := dropOwnIndexes_sends hc a s₂ _ s₃ h₃
  obtain ⟨x₄, p₄, checkDrops, r₄⟩ := dropOwnChecks_sends hc a s₃ _ s₄ h₄
  obtain ⟨x₅, p₅, c₅, r₅⟩ := runAll_leaves a.table hc _ s₄ _ s₅ h₅
  obtain ⟨x₆, p₆, indexes, r₆⟩ := createOwnIndexes_sends hc a s₅ _ s₆ h₆
  obtain ⟨x₇, p₇, displaced, rfl, c₇, r₇⟩ := displacePrimaryKey_leaves hc a s₆ found s₇ h₇
  obtain ⟨x₈, p₈, c₈, r₈⟩ := runAll_leaves a.table hc _ s₇ _ s₈ h₈
  obtain ⟨x₉, p₉, c₉, r₉⟩ := returnIncoming_leaves hc a target? taken _ s₈ _ s₉ h₉
  obtain ⟨x₁₀, p₁₀, r₁₀, ending, counting, c₁₀⟩ := close_leaves hc a s₉ _ y h₁₀
  -- Keys that were taken go to the target, and those that were displaced to the new column.
  let course : AlterationCourse :=
    ⟨changes x₁, taken, changes x₃ ++ changes x₄, changes x₆, displaced,
      taken.map (·, target) ++ (displaced.flatMap (·.2)).map (·, a.column), ending⟩
  have passes := (((((((((p₁.trans p₂).trans p₃).trans p₄).trans p₅).trans p₆).trans p₇).trans p₈).trans p₉).trans p₁₀)
  refine ⟨_, course, passes, ?_, ?_, ⟨?_, ?_, foreignKeyDrops, ?_, indexes, counting⟩, shapesKey_closing a counting⟩
  · simp only [Exchange.changes_append, c₂, c₅, c₇, c₈, c₉, c₁₀, AlterationCourse.shaping, AlterationCourse.returning,
      AlterationCourse.closing, course, List.append_assoc, List.map_append, List.map_map]
    rfl
  · simp [r₁, r₂, r₃, r₄, r₅, r₆, r₇, r₈, r₉, r₁₀, AlterationCourse.dropped, course]
  · simp [AlterationCourse.dropped, course, List.map_map, Function.comp_def]
  · intro r hr
    rcases List.mem_append.mp hr with hr | hr
    · obtain ⟨key, -, rfl⟩ := List.mem_map.mp hr
      exact valid
    · obtain ⟨key, -, rfl⟩ := List.mem_map.mp hr
      exact .inl rfl
  · intro s hs
    exact (List.mem_append.mp hs).elim (indexDrops s) (checkDrops s)

end Execution

namespace Returning

/-- A connection to an engine where a foreign key of books references the key of authors, with the rows that are still
to be fetched. -/
def cursor : Cursor (List Row) where
  execute s := Action.modify fun _ =>
    match s with
    | .catalog (.incomingKeys "AUTHOR" "ID") =>
      [⟨[.text "BOOK", .text "BOOK_AUTHOR_FK", .text "AUTHOR", .text "ID", .text "RESTRICT", .text "CASCADE"]⟩]
    | _ => []
  fetchOne := return (← Action.get).head?
  fetchAll := Action.get
  start _ := return ()
  commit := return ()
  rollback := return ()
  serverVersion := return ""

def editor : Editor (List Row) := ⟨cursor, ⟨⟨3, 0, 0, 0⟩⟩, Options.standard, false⟩

def key : Field := { Field.ofType "id" .integer with primaryKey := true }

/-- The key of authors gets a wider type. -/
def widened : Alteration := ⟨⟨"author", [key], [], [], []⟩, key, { key with type := .bigInteger }⟩

def start : State (Noted (List Row) Entry) := .ofBase ⟨⟨[], []⟩, .empty⟩

end Returning

theorem alterField_returns_keys_author :
    ∃ y xs c, Returning.editor.traced.alterField Returning.widened Returning.start = (.ok (), y) ∧
      Passes State.notes Returning.start y xs ∧
      changes xs = AlterationCourse.shaping Returning.editor Returning.widened c ++
        AlterationCourse.returning Returning.editor Returning.widened c ++
        AlterationCourse.closing Returning.editor Returning.widened c ∧
      reported xs = c.dropped ∧ c.Conserves Returning.widened := by
  have ok : (Returning.editor.traced.alterField Returning.widened Returning.start).1.isOk = true := by decide +kernel
  cases h : Returning.editor.traced.alterField Returning.widened Returning.start with
  | mk r y =>
    rw [h] at ok
    cases r with
    | error e => exact absurd ok Bool.false_ne_true
    | ok _ =>
      obtain ⟨xs, c, passes, sent, reported, conserves, -⟩ := alterField_returns_keys rfl Returning.widened (.inl rfl) h
      exact ⟨y, xs, c, rfl, passes, sent, reported, conserves⟩

end Editor

end FirebirdSql
