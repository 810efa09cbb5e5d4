import FirebirdSql.Proofs.Editor.Rehearsal
import FirebirdSql.Proofs.Inert
import Mathlib.Data.List.Basic

/-!
Models that are created one after another. Each gets its table, what counts in it and its indexes at once; its foreign
keys wait until the editor finishes, so that models may reference each other in any order.
-/

namespace FirebirdSql

namespace Model

variable (e : Engine) (m : Model)

/-- The index over some columns of the model's table, under the name that is derived from them. -/
def indexOver (unique : Bool) (columns : List String) : Statement :=
  .createIndex unique (.quote e (Identifier.derivedName e m.table columns (if unique then "_uniq" else "_idx")))
    (.quote e m.table) (columns.map (Identifier.quote e))

/-- The index of a single field. A primary key has none, and a foreign key only one that is unique. -/
def fieldIndex? (f : Field) : Option Statement :=
  if f.unique && !f.primaryKey then some (m.indexOver e true [f.column])
  else if f.indexed && !f.primaryKey && f.foreignKey.isNone then some (m.indexOver e false [f.column])
  else none

/-- The sequence and the trigger of the first field that counts by itself, if there is one. -/
def counting : List Statement :=
  let s := Sequence.ofTable e m.table
  match m.fields.find? (·.type.isAuto) with
  | some f => [.createSequence s.sequence, .createTrigger s.trigger s.table (.quote e f.column) s.sequence]
  | none => []

/-- The table with a definition for each field, what counts in it, and the indexes of fields, of columns that are
unique or indexed together, and of the model. -/
def creation : List Statement :=
  .createTable (.quote e m.table) (m.fields.map fun f => (.quote e f.column, .ofField e f true)) ::
    (m.counting e ++ m.fields.filterMap (m.fieldIndex? e) ++ m.uniqueTogether.map (m.indexOver e true) ++
      m.indexTogether.map (m.indexOver e false) ++
      m.indexes.map fun i => .createIndex false (.quote e i.name) (.quote e m.table) (i.columns.map (Identifier.quote e)))

/-- The foreign key of a field that has one. -/
def foreignKey? (f : Field) : Option Statement :=
  f.foreignKey.map fun key =>
    .addConstraint (.quote e m.table) (.quote e (Identifier.derivedName e m.table [f.column] "_fk"))
      (.foreignKey [.quote e f.column] (.quote e key.table) [.quote e key.column] none
        (explicitRule? key.onDelete.keyword))

def foreignKeys : List Statement := m.fields.filterMap (m.foreignKey? e)

/-- No name has a double quote, and every condition closes its quotes and has no placeholder outside of them. -/
structure Wellnamed (m : Model) : Prop where
  table : Identifier.Unquoted m.table
  columns : ∀ f ∈ m.fields, Identifier.Unquoted f.column
  references : ∀ f ∈ m.fields, ∀ key ∈ f.foreignKey, Identifier.Unquoted key.table ∧ Identifier.Unquoted key.column
  checks : ∀ f ∈ m.fields, ∀ check ∈ f.check, Fragment.Inert check
  together : ∀ columns ∈ m.uniqueTogether ++ m.indexTogether, ∀ column ∈ columns, Identifier.Unquoted column
  indexes : ∀ i ∈ m.indexes, Identifier.Unquoted i.name ∧ ∀ column ∈ i.columns, Identifier.Unquoted column

instance (m : Model) : Decidable m.Wellnamed :=
  decidable_of_iff (Identifier.Unquoted m.table ∧ (∀ f ∈ m.fields, Identifier.Unquoted f.column) ∧
      (∀ f ∈ m.fields, ∀ key ∈ f.foreignKey, Identifier.Unquoted key.table ∧ Identifier.Unquoted key.column) ∧
      (∀ f ∈ m.fields, ∀ check ∈ f.check, Fragment.Inert check) ∧
      (∀ columns ∈ m.uniqueTogether ++ m.indexTogether, ∀ column ∈ columns, Identifier.Unquoted column) ∧
      ∀ i ∈ m.indexes, Identifier.Unquoted i.name ∧ ∀ column ∈ i.columns, Identifier.Unquoted column)
    ⟨fun ⟨table, columns, references, checks, together, indexes⟩ =>
      ⟨table, columns, references, checks, together, indexes⟩,
    fun h => ⟨h.table, h.columns, h.references, h.checks, h.together, h.indexes⟩⟩

variable {e m}

theorem not_isForeignKey_of_mem_creation {s : Statement} (h : s ∈ m.creation e) : s.isForeignKey = false := by
  simp only [creation, List.mem_cons, List.mem_append] at h
  rcases h with rfl | (((h | h) | h) | h) | h
  · rfl
  · unfold counting at h
    split at h
    · simp only [List.mem_cons, List.not_mem_nil, or_false] at h
      rcases h with rfl | rfl <;> rfl
    · cases h
  · obtain ⟨f, -, h⟩ := List.mem_filterMap.mp h
    unfold fieldIndex? at h
    split at h
    · obtain rfl := Option.some.inj h
      rfl
    · split at h
      · obtain rfl := Option.some.inj h
        rfl
      · cases h
  all_goals
    obtain ⟨_, -, rfl⟩ := List.mem_map.mp h
    rfl

theorem isForeignKey_of_mem_foreignKeys {s : Statement} (h : s ∈ m.foreignKeys e) : s.isForeignKey = true := by
  obtain ⟨f, -, h⟩ := List.mem_filterMap.mp h
  obtain ⟨key, -, rfl⟩ := Option.map_eq_some_iff.mp h
  rfl

namespace Wellnamed

theorem createTable (h : m.Wellnamed) : (Statement.createTable (.quote e m.table)
    (m.fields.map fun f => (.quote e f.column, .ofField e f true))).fragment.validate = .ok () := by
  refine Statement.validate_createTable (h.table.inert_quote e) fun column hm => ?_
  obtain ⟨f, hf, rfl⟩ := List.mem_map.mp hm
  exact ⟨(h.columns f hf).inert_quote e, ColumnDefinition.inert_ofField e (h.columns f hf) (h.checks f hf) true⟩

theorem counting (h : m.Wellnamed) : ∀ s ∈ m.counting e, s.fragment.validate = .ok () := by
  have stem (suffix : String) (plain : Identifier.Unquoted suffix) :
      Fragment.Inert (Identifier.quote e (Sequence.stem e m.table ++ suffix)).text :=
    ((h.table.stem e).append plain).inert_quote e
  intro s hs
  dsimp only [Model.counting, Sequence.ofTable] at hs
  split at hs
  · next f found =>
    have column := (h.columns f (List.mem_of_find?_eq_some found)).inert_quote e
    simp only [List.mem_cons, List.not_mem_nil, or_false] at hs
    rcases hs with rfl | rfl
    · exact Statement.validate_createSequence (stem "_SQ" (by decide))
    · exact Statement.validate_createTrigger (stem "_PK" (by decide)) (h.table.inert_quote e) column
        (stem "_SQ" (by decide))
  · cases hs

theorem createIndex (h : m.Wellnamed) {name : String} {columns : List String} (hn : Identifier.Unquoted name)
    (hc : ∀ column ∈ columns, Identifier.Unquoted column) (unique : Bool) :
    (Statement.createIndex unique (.quote e name) (.quote e m.table) (columns.map (Identifier.quote e))).fragment.validate =
      .ok () :=
  Statement.validate_createIndex unique (hn.inert_quote e) (h.table.inert_quote e) (Identifier.inert_identifiers e hc)

theorem indexOver (h : m.Wellnamed) {columns : List String} (hc : ∀ column ∈ columns, Identifier.Unquoted column)
    (unique : Bool) : (m.indexOver e unique columns).fragment.validate = .ok () := by
  refine h.createIndex (Identifier.Unquoted.derivedName e h.table hc ?_) hc unique
  cases unique <;> decide

theorem foreignKeys (h : m.Wellnamed) : ∀ s ∈ m.foreignKeys e, s.fragment.validate = .ok () := by
  have single {name : String} (hn : Identifier.Unquoted name) :
      Fragment.Inert (Statement.identifiers [Identifier.quote e name]) :=
    @Identifier.inert_identifiers e [name] (List.forall_mem_singleton.mpr hn)
  intro s hs
  obtain ⟨f, hf, hs⟩ := List.mem_filterMap.mp hs
  obtain ⟨key, declared, rfl⟩ := Option.map_eq_some_iff.mp hs
  have target := h.references f hf key declared
  have name : Identifier.Unquoted (Identifier.derivedName e m.table [f.column] "_fk") :=
    Identifier.Unquoted.derivedName e h.table (List.forall_mem_singleton.mpr (h.columns f hf)) (by decide)
  exact Statement.validate_addForeignKey (h.table.inert_quote e) (name.inert_quote e) (single (h.columns f hf))
    (target.1.inert_quote e) (single target.2) (by simp) (Fragment.inert_explicitRule key.onDelete)

end Wellnamed

end Model

namespace Editor

/-- From every state the program succeeds, sends the statements `ss` and puts off the statements `ds`. -/
def Performs (x : Edit (Noted σ Logged) Unit) (ss ds : List Statement) : Prop :=
  ∀ s, (x s).1 = .ok () ∧ Logged.sent (x s).2.base.link.notes = Logged.sent s.base.link.notes ++ ss ∧
    (x s).2.deferred = s.deferred ++ ds

namespace Performs

theorem pure : Performs (Pure.pure () : Edit (Noted σ Logged) Unit) [] [] :=
  fun _ => ⟨rfl, (List.append_nil _).symm, (List.append_nil _).symm⟩

theorem defer (ds : List Statement) : Performs (Editor.defer ds : Edit (Noted σ Logged) Unit) [] ds :=
  fun _ => ⟨rfl, (List.append_nil _).symm, rfl⟩

theorem bind {x y : Edit (Noted σ Logged) Unit} {ss ss' ds ds' : List Statement} (hx : Performs x ss ds)
    (hy : Performs y ss' ds') : Performs (x >>= fun _ => y) (ss ++ ss') (ds ++ ds') := by
  intro s
  obtain ⟨done, sent, waits⟩ := hx s
  rw [Action.bind_apply]
  revert done sent waits
  obtain ⟨r, t⟩ := x s
  rintro ⟨rfl⟩ sent waits
  obtain ⟨done, sent', waits'⟩ := hy t
  refine ⟨done, ?_, ?_⟩
  · rw [← List.append_assoc]
    exact sent'.trans (congrArg (· ++ ss') sent)
  · rw [← List.append_assoc]
    exact waits'.trans (congrArg (· ++ ds') waits)

/-- What is done in case of a failure is not done. -/
theorem attempt_bind {x : Edit (Noted σ Logged) Unit} {f : Except Error Unit → Edit (Noted σ Logged) Unit}
    {ss ss' ds ds' : List Statement} (hx : Performs x ss ds) (hf : Performs (f (.ok ())) ss' ds') :
    Performs (x.attempt >>= f) (ss ++ ss') (ds ++ ds') := by
  intro s
  have both := hx.bind hf s
  have done := (hx s).1
  rw [Action.bind_apply, Action.attempt_apply]
  dsimp only
  rw [Action.bind_apply] at both
  revert both done
  obtain ⟨r, t⟩ := x s
  rintro both ⟨rfl⟩
  exact both

theorem forEach {f : α → Edit (Noted σ Logged) Unit} {ss ds : α → List Statement} {as : List α}
    (h : ∀ a ∈ as, Performs (f a) (ss a) (ds a)) : Performs (Action.forEach f as) (as.flatMap ss) (as.flatMap ds) := by
  induction as with
  | nil => exact pure
  | cons a as ih =>
    rw [List.flatMap_cons, List.flatMap_cons]
    exact (h a List.mem_cons_self).bind (ih fun b hb => h b (List.mem_cons_of_mem a hb))

/-- A program that puts nothing off for any member. -/
theorem forEach_quiet {f : α → Edit (Noted σ Logged) Unit} {ss : α → List Statement} {as : List α}
    (h : ∀ a ∈ as, Performs (f a) (ss a) []) : Performs (Action.forEach f as) (as.flatMap ss) [] := by
  have all := forEach h
  rwa [List.flatMap_eq_nil_iff.mpr fun _ _ => rfl] at all

/-- One action after another, none of which fails. -/
theorem after {f : ι → Edit (Noted σ Logged) Unit} {ss ds : ι → List Statement} {is : List ι}
    (h : ∀ i ∈ is, Performs (f i) (ss i) (ds i)) (s : State (Noted σ Logged)) :
    (∀ r ∈ Action.results f is s, r = .ok ()) ∧
      Logged.sent (Action.after f is s).base.link.notes = Logged.sent s.base.link.notes ++ is.flatMap ss ∧
      (Action.after f is s).deferred = s.deferred ++ is.flatMap ds := by
  induction is generalizing s with
  | nil => exact ⟨by simp [Action.results], (List.append_nil _).symm, (List.append_nil _).symm⟩
  | cons i is ih =>
    obtain ⟨done, sent, waits⟩ := h i List.mem_cons_self s
    obtain ⟨rest, sent', waits'⟩ := ih (fun j hj => h j (List.mem_cons_of_mem i hj)) (f i s).2
    refine ⟨List.forall_mem_cons.mpr ⟨done, rest⟩, ?_, ?_⟩
    · rw [List.flatMap_cons, ← List.append_assoc, ← sent]
      exact sent'
    · rw [List.flatMap_cons, ← List.append_assoc, ← waits]
      exact waits'

variable {ed : Editor σ} (h : ed.cursor.Accepts)

include h

theorem execute {s : Statement} (change : s.isCatalogRead = false) (valid : s.fragment.validate = .ok ()) :
    Performs (ed.logged.sending.execute s) [s] [] := by
  intro x
  have done : (ed.logged.send s x.base.link).1 = .ok () := h.logged.send s x.base.link
  unfold Editor.execute
  rw [Action.bind_apply, Action.lift_apply, valid]
  exact ⟨done, ed.logged_send_sent change x.base.link, (List.append_nil _).symm⟩

theorem run (table : String) {s : Statement} (change : s.isCatalogRead = false)
    (valid : s.fragment.validate = .ok ()) : Performs (ed.logged.sending.run table s) [s] [] := by
  intro x
  rw [run_apply]
  exact execute h change valid x

theorem runAll (table : String) {ss : List Statement} (change : ∀ s ∈ ss, s.isCatalogRead = false)
    (valid : ∀ s ∈ ss, s.fragment.validate = .ok ()) : Performs (ed.logged.sending.runAll table ss) ss [] := by
  have all : Performs (ed.logged.sending.runAll table ss) (ss.flatMap fun s => [s]) [] :=
    forEach_quiet fun s hs => run h table (change s hs) (valid s hs)
  rwa [← List.map_eq_flatMap, List.map_id'] at all

/-- An index that is created at once is not tried over its hash. -/
theorem createIndex {table name : String} {columns : List String} {unique : Bool}
    (valid : (Statement.createIndex unique (ed.quote name) (ed.quote table) (ed.quoteAll columns)).fragment.validate =
      .ok ()) :
    Performs (ed.logged.sending.createIndex table name columns unique)
      [.createIndex unique (ed.quote name) (ed.quote table) (ed.quoteAll columns)] [] :=
  (run h table rfl valid).attempt_bind pure

theorem createDerivedIndex {m : Model} (named : m.Wellnamed) {columns : List String}
    (hc : ∀ column ∈ columns, Identifier.Unquoted column) (unique : Bool) :
    Performs (ed.logged.sending.createDerivedIndex m.table columns unique) [m.indexOver ed.engine unique columns] [] :=
  createIndex h (named.indexOver hc unique)

theorem createFieldIndex {m : Model} (named : m.Wellnamed) {f : Field} (hf : f ∈ m.fields) :
    Performs (ed.logged.sending.createFieldIndex m.table f) (m.fieldIndex? ed.engine f).toList [] := by
  have index (unique : Bool) :=
    createDerivedIndex h named (List.forall_mem_singleton.mpr (named.columns f hf)) unique
  unfold Editor.createFieldIndex Model.fieldIndex?
  split
  · exact index true
  · split
    · exact index false
    · exact pure

theorem createModel {m : Model} (named : m.Wellnamed) :
    Performs (ed.logged.sending.createModel m) (m.creation ed.engine) (m.foreignKeys ed.engine) := by
  have counting : Performs (ed.logged.sending.runAll m.table (Sequence.setUpModel ed.engine m)) (m.counting ed.engine) [] := by
    refine runAll h m.table (fun s hs => ?_) named.counting
    change s ∈ m.counting ed.engine at hs
    unfold Model.counting at hs
    split at hs
    · simp only [List.mem_cons, List.not_mem_nil, or_false] at hs
      rcases hs with rfl | rfl <;> rfl
    · cases hs
  have table : Performs (ed.logged.sending.run m.table (ed.logged.sending.createTableStatement m))
      [.createTable (ed.quote m.table) (m.fields.map ed.columnOf)] [] := run h m.table rfl named.createTable
  have fields : Performs (Action.forEach (ed.logged.sending.createFieldIndex m.table) m.fields)
      (m.fields.filterMap (m.fieldIndex? ed.engine)) [] := by
    rw [List.filterMap_eq_flatMap_toList]
    exact forEach_quiet fun f hf => createFieldIndex h named hf
  have together (unique : Bool) {lists : List (List String)} (sub : lists ⊆ m.uniqueTogether ++ m.indexTogether) :
      Performs (Action.forEach (ed.logged.sending.createDerivedIndex m.table · unique) lists)
        (lists.map (m.indexOver ed.engine unique)) [] := by
    rw [List.map_eq_flatMap]
    exact forEach_quiet fun columns hc => createDerivedIndex h named (named.together columns (sub hc)) unique
  have indexes : Performs (Action.forEach (ed.logged.sending.addIndex m) m.indexes)
      (m.indexes.map fun i => .createIndex false (ed.quote i.name) (ed.quote m.table) (ed.quoteAll i.columns)) [] := by
    rw [List.map_eq_flatMap]
    exact forEach_quiet fun i hi =>
      createIndex h (named.createIndex (named.indexes i hi).1 (named.indexes i hi).2 false)
  have all := (defer (ed.logged.sending.foreignKeyStatements m.table m.fields)).bind <| table.bind <| counting.bind <|
    fields.bind <| (together true (List.subset_append_left _ _)).bind <|
    (together false (List.subset_append_right _ _)).bind indexes
  simp only [List.append_nil, List.nil_append, ← List.append_assoc] at all
  exact all

end Performs

/-- On a connection where nothing fails, every model is created, whatever models reference each other: one statement makes
its table with a definition for each field, others make what counts in it and its indexes, and none of them is a foreign
key. To finish sends one foreign key for each field that has one, in the order in which they were declared. -/
theorem createModels_then_finish {c : Cursor σ} (h : c.Accepts) (e : Engine) (o : Options) {models : List Model}
    (named : ∀ m ∈ models, m.Wellnamed) (link : σ) (cache : Catalog.Cache) :
    let ed : Editor (Noted σ Logged) := ⟨c.logged, e, o, false⟩
    let start := State.ofBase ⟨⟨link, []⟩, cache⟩
    let created := Action.after ed.createModel models start
    let finished := Request.finish.run ed created
    (∀ r ∈ Action.results ed.createModel models start, r = .ok ()) ∧
      Logged.sent created.base.link.notes = models.flatMap (Model.creation e) ∧
      (∀ s ∈ Logged.sent created.base.link.notes, s.isForeignKey = false) ∧
      finished.1 = .ok () ∧
      Logged.sent finished.2.base.link.notes = Logged.sent created.base.link.notes ++ models.flatMap (Model.foreignKeys e) ∧
      ∀ s ∈ models.flatMap (Model.foreignKeys e), s.isForeignKey = true := by
  intro ed start created finished
  have accepts : (⟨c, e, o, false⟩ : Editor σ).cursor.Accepts := h
  have each (m : Model) (hm : m ∈ models) : Performs (ed.createModel m) (m.creation e) (m.foreignKeys e) :=
    Performs.createModel accepts (named m hm)
  obtain ⟨outcomes, sent, waits⟩ := Performs.after each start
  have keys : ∀ s ∈ models.flatMap (Model.foreignKeys e), s.isForeignKey = true ∧ s.fragment.validate = .ok () := by
    intro s hs
    obtain ⟨m, hm, hs⟩ := List.mem_flatMap.mp hs
    exact ⟨Model.isForeignKey_of_mem_foreignKeys hs, (named m hm).foreignKeys s hs⟩
  have executed : Performs (Action.forEach ed.execute (models.flatMap (Model.foreignKeys e)))
      ((models.flatMap (Model.foreignKeys e)).flatMap fun s => [s]) [] :=
    Performs.forEach_quiet fun s hs => Performs.execute accepts (Statement.isCatalogRead_of_isForeignKey (keys s hs).1) (keys s hs).2
  rw [← List.map_eq_flatMap, List.map_id'] at executed
  have ended : finished = Action.forEach ed.execute (models.flatMap (Model.foreignKeys e)) { created with deferred := [] } :=
    (finish_apply ed created).trans (congrArg (Action.forEach ed.execute · _) waits)
  obtain ⟨done, sentKeys, -⟩ := executed { created with deferred := [] }
  refine ⟨outcomes, sent, fun s hs => ?_, ended ▸ done, ended ▸ sentKeys, fun s hs => (keys s hs).1⟩
  rw [sent] at hs
  obtain ⟨m, -, hs⟩ := List.mem_flatMap.mp hs
  exact Model.not_isForeignKey_of_mem_creation hs

namespace Creation

/-- Books have an author, and authors may have a best book. -/
def books : Model where
  table := "book"
  fields := [.autoKey "id", { Field.ofType "isbn" .bigInteger with unique := true },
    { Field.ofType "year" .integer with indexed := true },
    { Field.ofType "author_id" .integer with indexed := true, foreignKey := some ⟨"author", "id", .cascade⟩ }]
  uniqueTogether := [["author_id", "isbn"]]
  indexTogether := []
  indexes := [⟨"by_year", ["year", "isbn"]⟩]

def authors : Model where
  table := "author"
  fields := [{ Field.ofType "id" .integer with primaryKey := true },
    { Field.ofType "born" .integer with check := some "born > 1000" },
    { Field.ofType "best_id" .integer with null := true, foreignKey := some ⟨"book", "id", .setNull⟩ }]
  uniqueTogether := []
  indexTogether := []
  indexes := []

/-- Two models that reference each other are both there before either foreign key is. -/
theorem createModels_then_finish_library :
    let ed : Editor (Noted (List Row) Logged) :=
      ⟨(Catalog.clerk fun _ => []).logged, ⟨⟨3, 0, 0, 0⟩⟩, Options.standard, false⟩
    let created := Action.after ed.createModel [books, authors] (State.ofBase ⟨⟨[], []⟩, .empty⟩)
    (Catalog.clerk fun _ => []).Accepts ∧ (∀ m ∈ [books, authors], m.Wellnamed) ∧
      (Logged.sent (Request.finish.run ed created).2.base.link.notes).map (·.fragment.template) =
        ["CREATE TABLE \"BOOK\" (\"ID\" INTEGER NOT NULL PRIMARY KEY, \"ISBN\" BIGINT NOT NULL, " ++
            "\"YEAR\" INTEGER NOT NULL, \"AUTHOR_ID\" INTEGER NOT NULL)",
          "CREATE SEQUENCE \"BOOK_SQ\"",
          "CREATE TRIGGER \"BOOK_PK\" FOR \"BOOK\"\nBEFORE INSERT AS\nBEGIN\n   IF (new.\"ID\" IS NULL) THEN\n" ++
            "      new.\"ID\" = NEXT VALUE FOR \"BOOK_SQ\";\nEND",
          "CREATE UNIQUE INDEX \"BOOK_ISBN_C48548E9_UNIQ\" ON \"BOOK\" (\"ISBN\")",
          "CREATE INDEX \"BOOK_YEAR_435DEA99_IDX\" ON \"BOOK\" (\"YEAR\")",
          "CREATE UNIQUE INDEX \"BOOK_AUTHOR_ID_ISBN_3B8A37B6_UNIQ\" ON \"BOOK\" (\"AUTHOR_ID\", \"ISBN\")",
          "CREATE INDEX \"BY_YEAR\" ON \"BOOK\" (\"YEAR\", \"ISBN\")",
          "CREATE TABLE \"AUTHOR\" (\"ID\" INTEGER NOT NULL PRIMARY KEY, " ++
            "\"BORN\" INTEGER NOT NULL CHECK (born > 1000), \"BEST_ID\" INTEGER)",
          "ALTER TABLE \"BOOK\" ADD CONSTRAINT \"BOOK_AUTHOR_ID_3DCDC2D0_FK\" FOREIGN KEY (\"AUTHOR_ID\") " ++
            "REFERENCES \"AUTHOR\" (\"ID\") ON DELETE CASCADE",
          "ALTER TABLE \"AUTHOR\" ADD CONSTRAINT \"AUTHOR_BEST_ID_C2CAC6C3_FK\" FOREIGN KEY (\"BEST_ID\") " ++
            "REFERENCES \"BOOK\" (\"ID\") ON DELETE SET NULL"] := by
  intro ed created
  have accepts := (Rehearsal.clerk_obliges fun _ => []).accepts
  have named : ∀ m ∈ [books, authors], m.Wellnamed := by decide
  obtain ⟨-, sent, -, -, sentKeys, -⟩ :=
    createModels_then_finish accepts ⟨⟨3, 0, 0, 0⟩⟩ Options.standard named [] .empty
  refine ⟨accepts, named, ?_⟩
  rw [sentKeys, sent]
  decide +kernel

end Creation

end Editor

end FirebirdSql
