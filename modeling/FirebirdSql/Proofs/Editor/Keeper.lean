import FirebirdSql.Editor.Alter
import FirebirdSql.Proofs.Alteration.Statements
import FirebirdSql.Proofs.Catalog.Cache
import FirebirdSql.Proofs.Subject
import FirebirdSql.Proofs.Triple

/-!
Everything an editor does is made of a few steps: it runs a statement about a table, it reads the catalog, it commits
or it puts statements off. What these steps keep, every operation keeps.
-/

namespace FirebirdSql.Editor

open Action (Keeps Triple)

/-- The steps by which an editor runs statements and reads the catalog keep `I`, as long as the statements that are run
about a table are of those that `Ok` allows. -/
structure Runner (ed : Editor σ) (I : State σ → Prop) (Ok : String → Statement → Prop) : Prop where
  run : ∀ t s, Ok t s → Keeps I (ed.run t s)
  ask : ∀ q, Keeps I (onLink (Catalog.ask ed.cursor q))
  constraints : ∀ t, Keeps I (onBase (Catalog.Cached.constraints ed.cursor ed.engine t))
  commit : Keeps I (onLink ed.cursor.commit)

/-- All steps of an editor keep `I`, and the keys that the catalog gives as incoming ones are `Listed`. -/
structure Keeper (ed : Editor σ) (I : State σ → Prop) (Ok : String → Statement → Prop)
    (Listed : Catalog.IncomingKey → Prop) : Prop extends Runner ed I Ok where
  incoming : ∀ t column, Triple I (ed.incomingKeys t column) (fun keys s => (∀ k ∈ keys, Listed k) ∧ I s) (fun _ => I)
  putOff : ∀ ss, Keeps I (defer ss)

/-- Statements that leave rows alone are allowed about the table. -/
def AllowsQuiet (ed : Editor σ) (Ok : String → Statement → Prop) (table : String) : Prop :=
  ∀ s : Statement, s.Concerns ed.engine table → s.keepsRows = true → Ok table s

/-- Statements that also leave alone what counts for a table are allowed about it. -/
def AllowsAside (ed : Editor σ) (Ok : String → Statement → Prop) (table : String) : Prop :=
  ∀ s : Statement, s.Concerns ed.engine table → s.isAside = true → Ok table s

theorem AllowsQuiet.aside {ed : Editor σ} {Ok : String → Statement → Prop} {table : String} (h : ed.AllowsQuiet Ok table) :
    ed.AllowsAside Ok table := fun s concerns aside => h s concerns (Statement.keepsRows_of_isAside aside)

def Allows (ed : Editor σ) (Ok : String → Statement → Prop) (table : String) : Prop :=
  ∀ s : Statement, s.Concerns ed.engine table → Ok table s

/-- Statements about the tables of incoming keys are allowed that make or drop a constraint. -/
def AllowsKeys (ed : Editor σ) (Ok : String → Statement → Prop) (Listed : Catalog.IncomingKey → Prop) : Prop :=
  ∀ k, Listed k → ∀ s : Statement, s.table? = some (ed.quote k.table) → s.keepsRows = true → Ok k.table s

theorem onLink_bind (x : Action σ α) (f : α → Action σ β) :
    (onLink (x >>= f) : Edit σ β) = onLink x >>= fun a => onLink (f a) := by
  funext s
  simp only [onLink, onBase, Catalog.Cached.onLink, Action.within_apply, Action.bind_apply]
  obtain ⟨r, t⟩ := x s.base.link
  cases r <;> rfl

theorem onLink_lift (r : Except Error α) : (onLink (Action.lift r) : Edit σ α) = Action.lift r := rfl

theorem run_apply (ed : Editor σ) (table : String) (s : Statement) (x : State σ) :
    ed.run table s x = ((ed.execute s x).1,
      { (ed.execute s x).2 with base :=
        { (ed.execute s x).2.base with cache := (ed.execute s x).2.base.cache.invalidate table } }) := rfl

/-- What does not depend on the cache is kept when constraints are read, if it is kept when the catalog is asked. -/
theorem keeps_constraints {I : State σ → Prop} {c : Cursor σ}
    (blind : ∀ s cache, I s → I { s with base := { s.base with cache := cache } })
    (ask : ∀ q, Keeps I (onLink (Catalog.ask c q))) (e : Engine) (table : String) :
    Keeps I (onBase (Catalog.Cached.constraints c e table)) := by
  have read : Keeps I (onLink (Catalog.readConstraints c e table)) := by
    unfold Catalog.readConstraints
    rw [onLink_bind]
    refine (ask _).bind fun rows => ?_
    rw [onLink_bind, onLink_lift]
    refine (Keeps.lift _).bind fun constraints => ?_
    rw [onLink_bind]
    refine (ask _).bind fun rows => ?_
    rw [onLink_bind, onLink_lift]
    exact (Keeps.lift _).bind fun checks => Keeps.pure _
  intro s hs
  have done := read s hs
  rw [onBase, Action.within_apply]
  cases hit : s.base.cache.constraints? table with
  | some constraints =>
    rw [Catalog.Cached.constraints_hit _ _ _ _ hit]
    exact hs
  | none =>
    rw [Catalog.Cached.constraints_miss _ _ _ _ hit]
    rw [onLink, onBase, Action.within_apply, Catalog.Cached.onLink, Action.within_apply] at done
    revert done
    obtain ⟨r, link⟩ := Catalog.readConstraints c e table s.base.link
    cases r with
    | ok constraints => exact blind _ _
    | error error => exact id

namespace Runner

variable {ed : Editor σ} {I : State σ → Prop} {Ok : String → Statement → Prop} {table : String}
variable (k : Runner ed I Ok)

include k

theorem read {q : CatalogQuery} {f : List Row → Action σ α} (h : ∀ rows, Keeps I (onLink (f rows))) :
    Keeps I (onLink (Catalog.ask ed.cursor q >>= f)) := by
  rw [onLink_bind]
  exact (k.ask q).bind h

theorem runAll {ss : List Statement} (h : ∀ s ∈ ss, Ok table s) : Keeps I (ed.runAll table ss) :=
  Keeps.forEach fun s hs => k.run table s (h s hs)

theorem refresh : Keeps I ed.refresh := Keeps.ite (fun _ => k.commit) fun _ => Keeps.pure ()

omit k in
theorem unlessCollecting {given : α} {x : Edit σ α} (h : Keeps I x) : Keeps I (ed.unlessCollecting given x) :=
  Keeps.ite (fun _ => Keeps.pure given) fun _ => h

theorem constraintsWhere (select : Catalog.Constraint → Bool) : Keeps I (ed.constraintsWhere table select) :=
  (k.constraints table).bind fun cs => Keeps.pure (cs.filter select)

/-! Indexes -/

theorem dropConstraint (h : ed.AllowsAside Ok table) (c : Catalog.Constraint) : Keeps I (ed.dropConstraint table c) := by
  refine k.run table _ ?_
  unfold dropStatement
  split
  · exact h _ (Statement.concerns_of_none rfl) rfl
  · exact h _ (Statement.concerns_of_some rfl) rfl

theorem dropWhere (h : ed.AllowsAside Ok table) (select : Catalog.Constraint → Bool) :
    Keeps I (ed.dropWhere table select) :=
  (k.constraintsWhere select).bind fun _ => Keeps.forEach fun c _ => k.dropConstraint h c

theorem createIndex (h : ed.AllowsAside Ok table) (name : String) (columns : List String) (unique : Bool) :
    Keeps I (ed.createIndex table name columns unique) := by
  refine (k.run table _ ?_).attempt.bind fun r => ?_
  · exact h _ (Statement.concerns_of_some rfl) rfl
  · cases r with
    | ok _ => exact Keeps.pure ()
    | error e =>
      refine Keeps.ite (fun _ => k.run table _ ?_) fun _ => Keeps.fail e
      exact h _ (Statement.concerns_of_some rfl) rfl

theorem createDerivedIndex (h : ed.AllowsAside Ok table) (columns : List String) (unique : Bool) :
    Keeps I (ed.createDerivedIndex table columns unique) :=
  k.createIndex h _ columns unique

theorem dropIndexOver (h : ed.AllowsAside Ok table) (columns : List String) (unique : Bool) :
    Keeps I (ed.dropIndexOver table columns unique) := by
  refine (k.constraintsWhere _).bind fun found => Keeps.ite (fun _ => ?_) fun _ => ?_
  · refine (k.read fun rows => Keeps.lift _).bind fun name => ?_
    cases name with
    | some name => exact k.run table _ (h _ (Statement.concerns_of_none rfl) rfl)
    | none => exact Keeps.fail _
  · exact Keeps.forEach fun c _ => k.dropConstraint h c

theorem addIndex {m : Model} (h : ed.AllowsQuiet Ok m.table) (index : Index) : Keeps I (ed.addIndex m index) :=
  k.createIndex h.aside _ _ _

theorem removeIndex {m : Model} (h : ed.AllowsQuiet Ok m.table) (index : Index) : Keeps I (ed.removeIndex m index) :=
  k.run m.table _ (h _ (Statement.concerns_of_none rfl) rfl)

theorem alterTogether {m : Model} (h : ed.AllowsQuiet Ok m.table) (unique : Bool) (old new : List (List String)) :
    Keeps I (ed.alterTogether unique m old new) :=
  Keeps.bind (Keeps.forEach fun columns _ => k.dropIndexOver h.aside columns unique) fun _ =>
    Keeps.forEach fun columns _ => k.createDerivedIndex h.aside columns unique

/-! Tables and what counts for them -/

theorem sequenceExists (t : String) : Keeps I (ed.sequenceExists t) :=
  unlessCollecting (k.read fun _ => Keeps.pure _)

theorem triggerExists (t : String) : Keeps I (ed.triggerExists t) :=
  unlessCollecting (k.read fun _ => Keeps.pure _)

theorem hasDefault (t column : String) : Keeps I (ed.hasDefault t column) := by
  refine unlessCollecting (k.read fun rows => ?_)
  cases rows with
  | nil => exact Keeps.pure false
  | cons r _ => exact Keeps.lift _

theorem dropSequence (h : ed.AllowsQuiet Ok table) : Keeps I (ed.dropSequence table) :=
  (k.sequenceExists table).bind fun _ =>
    Keeps.ite (fun _ => k.run table _ (h _ (Statement.concerns_of_none rfl) rfl)) fun _ => Keeps.pure ()

theorem dropTrigger (h : ed.AllowsQuiet Ok table) : Keeps I (ed.dropTrigger table) :=
  (k.triggerExists table).bind fun _ =>
    Keeps.ite (fun _ => k.run table _ (h _ (Statement.concerns_of_none rfl) rfl)) fun _ => Keeps.pure ()

theorem dropCounting (h : ed.AllowsQuiet Ok table) : Keeps I (ed.dropCounting table) :=
  (k.dropTrigger h).bind fun _ => k.dropSequence h

theorem setUp (h : ed.AllowsQuiet Ok table) (t column : String) :
    Keeps I (ed.runAll table (Sequence.setUp ed.engine t column)) := by
  refine k.runAll fun s hs => ?_
  simp only [Sequence.setUp, List.mem_cons, List.not_mem_nil, or_false] at hs
  rcases hs with rfl | rfl
  · exact h _ (Statement.concerns_of_none rfl) rfl
  · exact h _ (Statement.concerns_of_none rfl) rfl

theorem createFieldIndex (h : ed.AllowsAside Ok table) (f : Field) : Keeps I (ed.createFieldIndex table f) :=
  Keeps.ite (fun _ => k.createDerivedIndex h _ _) fun _ =>
    Keeps.ite (fun _ => k.createDerivedIndex h _ _) fun _ => Keeps.pure ()

omit k in
/-- The program that creates a model puts its foreign keys off, then makes its table, then what counts in it, and what
comes after that keeps `L`. -/
theorem createModel_counting_triple {m : Model} {P J L : State σ → Prop} {E : Error → State σ → Prop}
    (k : Runner ed L Ok) (h : ed.AllowsAside Ok m.table)
    (hdefer : Triple P (defer (ed.foreignKeyStatements m.table m.fields)) (fun _ => I) E)
    (htable : Triple I (ed.run m.table (ed.createTableStatement m)) (fun _ => J) E)
    (hcounting : Triple J (ed.runAll m.table (Sequence.setUpModel ed.engine m)) (fun _ => L) E)
    (hl : ∀ e s, L s → E e s) : Triple P (ed.createModel m) (fun _ => L) E := by
  refine hdefer.bind fun _ => htable.bind fun _ => hcounting.bind fun _ => ?_
  suffices indexed : Keeps L (do
      Action.forEach (ed.createFieldIndex m.table) m.fields
      Action.forEach (ed.createDerivedIndex m.table · true) m.uniqueTogether
      Action.forEach (ed.createDerivedIndex m.table · false) m.indexTogether
      Action.forEach (ed.addIndex m) m.indexes) from
    indexed.ending hl
  refine (Keeps.forEach fun f _ => k.createFieldIndex h f).bind fun _ => ?_
  refine (Keeps.forEach fun columns _ => k.createDerivedIndex h columns true).bind fun _ => ?_
  refine (Keeps.forEach fun columns _ => k.createDerivedIndex h columns false).bind fun _ => ?_
  exact Keeps.forEach fun index _ => k.createIndex h _ _ _

omit k in
/-- The program that creates a model puts its foreign keys off, then makes its table, and what comes after that keeps
`J`. -/
theorem createModel_triple {m : Model} {P J : State σ → Prop} {E : Error → State σ → Prop} (k : Runner ed J Ok)
    (h : ed.AllowsQuiet Ok m.table) (hdefer : Triple P (defer (ed.foreignKeyStatements m.table m.fields)) (fun _ => I) E)
    (htable : Triple I (ed.run m.table (ed.createTableStatement m)) (fun _ => J) E) (hj : ∀ e s, J s → E e s) :
    Triple P (ed.createModel m) (fun _ => J) E := by
  have counting : Keeps J (ed.runAll m.table (Sequence.setUpModel ed.engine m)) := by
    unfold Sequence.setUpModel
    split
    · exact k.setUp h _ _
    · exact Keeps.pure ()
  exact createModel_counting_triple k h.aside hdefer htable
    (counting.ending hj) hj

omit k in
/-- Once the table is dropped, `J` is kept. -/
theorem deleteModel_triple {m : Model} {J : State σ → Prop} {E : Error → State σ → Prop} (k : Runner ed J Ok)
    (h : ed.AllowsQuiet Ok m.table) (htable : Triple I (ed.run m.table (.dropTable (ed.quote m.table))) (fun _ => J) E)
    (hj : ∀ e s, J s → E e s) : Triple I (ed.deleteModel m) (fun _ => J) E :=
  htable.bind fun _ => (k.dropSequence h).ending hj

theorem deleteModel {m : Model} (h : ed.Allows Ok m.table) : Keeps I (ed.deleteModel m) := by
  refine Action.keeps_iff_triple.mpr (deleteModel_triple k (fun s hs _ => h s hs) ?_ fun _ _ => id)
  exact Action.keeps_iff_triple.mp (k.run m.table _ (h _ (Statement.concerns_of_some rfl)))

/-! Fields -/

theorem createAddedIndex (h : ed.AllowsQuiet Ok table) (f : Field) : Keeps I (ed.createAddedIndex table f) :=
  Keeps.ite (fun _ => k.createDerivedIndex h.aside _ _) fun _ =>
    Keeps.ite (fun _ => k.createDerivedIndex h.aside _ _) fun _ => Keeps.pure ()

omit k in
/-- The program that adds a field adds its column first. From there on it keeps `J`, until the foreign key of the field
is put off. -/
theorem addField_triple {m : Model} {f : Field} {J R : State σ → Prop} {E : Error → State σ → Prop}
    (k : Runner ed J Ok) (h : ed.AllowsQuiet Ok m.table)
    (hdefault : Ok m.table (.dropDefault (ed.quote m.table) (ed.quote f.column)))
    (hcolumn : Triple I (ed.run m.table (.addColumn (ed.quote m.table) (ed.quote f.column)
      (ColumnDefinition.ofField ed.engine f true))) (fun _ => J) E)
    (hdefer : Triple J (defer (ed.foreignKeyStatements m.table [f])) (fun _ => R) E) (hrefresh : Keeps R ed.refresh)
    (hj : ∀ e s, J s → E e s) (hr : ∀ e s, R s → E e s) : Triple I (ed.addField m f) (fun _ => R) E := by
  have finish : Triple J (do
      ed.createAddedIndex m.table f
      defer (ed.foreignKeyStatements m.table [f])
      ed.refresh) (fun _ => R) E :=
    ((k.createAddedIndex h f).ending hj).bind fun _ => hdefer.bind fun _ => hrefresh.ending hr
  have rest : Triple J (do
      if f.type.isAuto then ed.runAll m.table (Sequence.setUp ed.engine m.table f.column)
      ed.createAddedIndex m.table f
      defer (ed.foreignKeyStatements m.table [f])
      ed.refresh) (fun _ => R) E :=
    Triple.when (fun _ => (k.setUp h _ _).ending hj) (fun _ _ => id) finish
  refine hcolumn.bind fun _ => ?_
  by_cases drops : f.default.isSome && !ed.options.keepDbDefaults
  · rw [if_pos drops]
    refine ((k.hasDefault _ _).ending hj).bind fun there => ?_
    exact Triple.when (fun _ => (k.run m.table _ hdefault).ending hj) (fun _ _ => id) rest
  · rw [if_neg drops]
    exact rest

omit k in
/-- What goes before the column is dropped keeps `I`, and what comes after keeps `J`. -/
theorem removeField_triple {m : Model} {f : Field} {J : State σ → Prop} {E : Error → State σ → Prop}
    (ki : Runner ed I Ok) (kj : Runner ed J Ok) (h : ed.AllowsQuiet Ok m.table)
    (hcolumn : Triple I (ed.run m.table (.dropColumn (ed.quote m.table) (ed.quote f.column))) (fun _ => J) E)
    (hi : ∀ e s, I s → E e s) (hj : ∀ e s, J s → E e s) : Triple I (ed.removeField m f) (fun _ => J) E := by
  have rest : Triple I (do
      ed.dropWhere m.table (isForeignKeyOn f.column)
      let indexes ← onLink (Catalog.columnIndexes ed.cursor ed.engine m.table f.column)
      ed.runAll m.table (indexes.map fun name => .dropIndex (ed.quote name))
      ed.run m.table (.dropColumn (ed.quote m.table) (ed.quote f.column))
      ed.refresh) (fun _ => J) E := by
    refine ((ki.dropWhere h.aside _).ending hi).bind fun _ => ((ki.read fun _ => Keeps.lift _).ending hi).bind fun indexes => ?_
    refine ((ki.runAll fun s hs => ?_).ending hi).bind fun _ => ?_
    · obtain ⟨name, -, rfl⟩ := List.mem_map.mp hs
      exact h _ (Statement.concerns_of_none rfl) rfl
    · exact hcolumn.bind fun _ => kj.refresh.ending hj
  exact Triple.when (fun _ => (ki.dropCounting h).ending hi) (fun _ _ => id) rest

theorem removeField {m : Model} (h : ed.Allows Ok m.table) (f : Field) : Keeps I (ed.removeField m f) := by
  refine Action.keeps_iff_triple.mpr
    (removeField_triple k k (fun s hs _ => h s hs) ?_ (fun _ _ => id) fun _ _ => id)
  exact Action.keeps_iff_triple.mp (k.run m.table _ (h _ (Statement.concerns_of_some rfl)))

/-! Incoming keys -/

theorem dropIncoming {Listed : Catalog.IncomingKey → Prop} (h : ed.AllowsKeys Ok Listed)
    {keys : List Catalog.IncomingKey} (hk : ∀ key ∈ keys, Listed key) :
    Keeps I (ed.dropIncoming keys) :=
  Keeps.forEach fun key hm => k.run key.table _ (h key (hk key hm) _ rfl rfl)

theorem addIncoming {Listed : Catalog.IncomingKey → Prop} (h : ed.AllowsKeys Ok Listed)
    {keys : List Catalog.IncomingKey} (hk : ∀ key ∈ keys, Listed key)
    (t target : String) : Keeps I (ed.addIncoming t target keys) :=
  Keeps.forEach fun key hm => k.run key.table _ (h key (hk key hm) _ rfl rfl)

/-! Alterations -/

variable {a : Alteration}

theorem dropOwnForeignKey (h : ed.AllowsAside Ok a.table) : Keeps I (ed.dropOwnForeignKey a) :=
  Keeps.ite (fun _ => k.dropWhere h _) fun _ => Keeps.pure ()

theorem dropOwnIndexes (h : ed.AllowsAside Ok a.table) : Keeps I (ed.dropOwnIndexes a) := by
  have key : Keeps I (do if a.dropsPrimaryKey ed.engine then ed.dropWhere a.table (isPrimaryKeyOver a.old.column)) :=
    Keeps.ite (fun _ => k.dropWhere h _) fun _ => Keeps.pure ()
  have plain : Keeps I (do
      if a.dropsIndex ed.engine then ed.dropIndexOver a.table [a.old.column] false
      if a.dropsPrimaryKey ed.engine then ed.dropWhere a.table (isPrimaryKeyOver a.old.column)) :=
    Keeps.ite (fun _ => (k.dropIndexOver h _ _).bind fun _ => key) fun _ => key
  exact Keeps.ite (fun _ => (k.dropIndexOver h _ _).bind fun _ => plain) fun _ => plain

theorem dropOwnChecks (h : ed.AllowsAside Ok a.table) : Keeps I (ed.dropOwnChecks a) :=
  Keeps.ite (fun _ => k.dropWhere h _) fun _ => Keeps.pure ()

theorem createOwnIndexes (h : ed.AllowsAside Ok a.table) : Keeps I (ed.createOwnIndexes a) := by
  have plain : Keeps I (do if a.createsIndex ed.engine then ed.createDerivedIndex a.table [a.column] false) :=
    Keeps.ite (fun _ => k.createDerivedIndex h _ _) fun _ => Keeps.pure ()
  exact Keeps.ite (fun _ => (k.createDerivedIndex h _ _).bind fun _ => plain) fun _ => plain

theorem runConstraint (h : ed.AllowsAside Ok a.table) {ss : List Statement} (suffix : String)
    (hs : ∀ s ∈ ss, ∃ d, s = a.constraintStatement ed.engine suffix d) : Keeps I (ed.runAll a.table ss) := by
  refine k.runAll fun s hm => ?_
  obtain ⟨d, rfl⟩ := hs s hm
  exact h _ (Statement.concerns_of_some rfl) rfl

theorem createPrimaryKey (h : ed.AllowsAside Ok a.table) :
    Keeps I (ed.runAll a.table (a.primaryKeyStatements ed.engine)) := by
  refine k.runConstraint h "_pk" fun s hs => ?_
  unfold Alteration.primaryKeyStatements at hs
  split at hs
  · exact ⟨_, List.mem_singleton.mp hs⟩
  · exact absurd hs List.not_mem_nil

theorem createCheck (h : ed.AllowsAside Ok a.table) : Keeps I (ed.runAll a.table (a.checkStatements ed.engine)) := by
  refine k.runConstraint h "_check" fun s hs => ?_
  unfold Alteration.checkStatements at hs
  split at hs
  · split at hs
    · exact ⟨_, List.mem_singleton.mp hs⟩
    · exact absurd hs List.not_mem_nil
  · exact absurd hs List.not_mem_nil

theorem createOwnForeignKey (h : ed.AllowsAside Ok a.table) : Keeps I (ed.createOwnForeignKey a) := by
  refine k.runAll fun s hs => ?_
  obtain ⟨key, -, rfl⟩ := List.mem_map.mp hs
  exact h _ (Statement.concerns_of_some rfl) rfl

theorem returnIncoming {Listed : Catalog.IncomingKey → Prop} (hk : ed.AllowsKeys Ok Listed)
    {incoming displaced : List Catalog.IncomingKey}
    (hi : ∀ key ∈ incoming, Listed key) (hd : ∀ key ∈ displaced, Listed key) :
    Keeps I (ed.returnIncoming a incoming displaced) := by
  unfold Editor.returnIncoming
  split
  · exact (k.addIncoming hk hi _ _).bind fun _ => k.addIncoming hk hd _ _
  · exact k.addIncoming hk hd _ _

theorem alterCounting (h : ed.AllowsQuiet Ok a.table) : Keeps I (ed.alterCounting a) :=
  Keeps.ite (fun _ => k.setUp h _ _) fun _ => Keeps.ite (fun _ => k.dropCounting h) fun _ => Keeps.pure ()

end Runner

namespace Keeper

variable {ed : Editor σ} {I : State σ → Prop} {Ok : String → Statement → Prop}
variable {Listed : Catalog.IncomingKey → Prop} {table : String} {a : Alteration}
variable (k : Keeper ed I Ok Listed)

/-- An invariant that sees neither the cache nor what is put off is kept by all steps, if it is kept where statements are
run, the catalog is asked and a transaction is committed. Nothing is said of the incoming keys. -/
theorem of_blind (blind : ∀ s cache deferred, I s → I { s with base := { s.base with cache := cache }, deferred := deferred })
    (run : ∀ t s, Ok t s → Keeps I (ed.run t s)) (ask : ∀ q, Keeps I (onLink (Catalog.ask ed.cursor q)))
    (commit : Keeps I (onLink ed.cursor.commit)) : Keeper ed I Ok fun _ => True where
  run := run
  ask := ask
  constraints := keeps_constraints (fun s cache => blind s cache s.deferred) ask ed.engine
  commit := commit
  putOff ss := Keeps.modify fun s => blind s s.base.cache (s.deferred ++ ss)
  incoming t column := by
    have asked : Keeps I (ed.incomingKeys t column) := by
      refine Runner.unlessCollecting ?_
      rw [Catalog.incomingKeys, onLink_bind]
      exact (ask _).bind fun _ => Keeps.lift _
    exact asked.triple fun _ _ _ _ _ => trivial

include k

theorem createModel {m : Model} (h : ed.Allows Ok m.table) : Keeps I (ed.createModel m) := by
  refine Action.keeps_iff_triple.mpr (Runner.createModel_triple k.toRunner (fun s hs _ => h s hs)
    (Action.keeps_iff_triple.mp (k.putOff _)) ?_ fun _ _ => id)
  exact Action.keeps_iff_triple.mp (k.run m.table _ (h _ (Statement.concerns_of_some rfl)))

theorem addField {m : Model} (h : ed.Allows Ok m.table) (f : Field) : Keeps I (ed.addField m f) := by
  refine Action.keeps_iff_triple.mpr (Runner.addField_triple k.toRunner (fun s hs _ => h s hs)
    (h _ (Statement.concerns_of_some rfl)) ?_ (Action.keeps_iff_triple.mp (k.putOff _)) k.refresh (fun _ _ => id)
    fun _ _ => id)
  exact Action.keeps_iff_triple.mp (k.run m.table _ (h _ (Statement.concerns_of_some rfl)))

theorem takeIncoming (h : ed.AllowsKeys Ok Listed) (a : Alteration) :
    Triple I (ed.takeIncoming a) (fun keys s => (∀ key ∈ keys, Listed key) ∧ I s) (fun _ => I) := by
  unfold Editor.takeIncoming
  split
  · refine (k.incoming _ _).bind fun keys s hs => ?_
    refine Triple.bind (R := fun _ => I) ?_ (fun _ => Triple.pure fun s hi => ⟨hs.1, hi⟩) s hs.2
    exact Action.keeps_iff_triple.mp (k.dropIncoming h hs.1)
  · exact Triple.pure fun s hs => ⟨by simp, hs⟩

theorem displaceKey (hq : ed.AllowsAside Ok table) (h : ed.AllowsKeys Ok Listed) (c : Catalog.Constraint) :
    Triple I (ed.displaceKey table c) (fun keys s => (∀ key ∈ keys, Listed key) ∧ I s) (fun _ => I) := by
  have asked := Action.mapM_triple (fun column => k.incoming table column) c.columns
  refine asked.bind fun keys s hs => ?_
  have listed : ∀ key ∈ keys.flatten, Listed key := by
    intro key hm
    obtain ⟨l, hl, hkey⟩ := List.mem_flatten.mp hm
    exact hs.1 l hl key hkey
  refine Triple.bind (R := fun _ => I) (Action.keeps_iff_triple.mp (k.dropIncoming h listed)) (fun _ => ?_) s hs.2
  refine Triple.bind (R := fun _ => I) (Action.keeps_iff_triple.mp (k.dropConstraint hq c)) fun _ => ?_
  exact Triple.pure fun s hi => ⟨listed, hi⟩

theorem displacePrimaryKey (h : ed.AllowsAside Ok a.table) (hk : ed.AllowsKeys Ok Listed) :
    Triple I (ed.displacePrimaryKey a) (fun keys s => (∀ key ∈ keys, Listed key) ∧ I s) (fun _ => I) := by
  unfold Editor.displacePrimaryKey
  split
  · refine Triple.bind (R := fun _ => I) (Action.keeps_iff_triple.mp (k.constraintsWhere _)) fun cs => ?_
    refine (Action.mapM_triple (fun c => k.displaceKey h hk c) cs).bind fun keys => Triple.pure fun s hs => ?_
    refine ⟨fun key hm => ?_, hs.2⟩
    obtain ⟨l, hl, hkey⟩ := List.mem_flatten.mp hm
    exact hs.1 l hl key hkey
  · exact Triple.pure fun s hs => ⟨by simp, hs⟩

omit k in
/-- Two kinds of statements take an alteration further: those that change the column itself take it from `I` to `J`, and
what makes the column count or stop to count from `J` to `L`. -/
theorem alterField_counting_triple {J L : State σ → Prop} {E : Error → State σ → Prop} (ki : Keeper ed I Ok Listed)
    (kj : Keeper ed J Ok Listed) (h : ed.AllowsAside Ok a.table) (hk : ed.AllowsKeys Ok Listed)
    (hcolumn : Triple I (ed.runAll a.table (a.columnStatements ed.engine ed.options)) (fun _ => J) E)
    (hcounting : Triple J (ed.alterCounting a) (fun _ => L) E) (hrefresh : Keeps L ed.refresh)
    (hi : ∀ e s, I s → E e s) (hj : ∀ e s, J s → E e s) (hl : ∀ e s, L s → E e s) :
    Triple I (ed.alterField a) (fun _ => L) E := by
  refine ((ki.dropOwnForeignKey h).ending hi).bind fun _ => ?_
  refine ((ki.takeIncoming hk a).weaken (fun _ => id) (fun _ _ => id) hi).bind fun incoming s hs => ?_
  have hin := hs.1
  refine Triple.bind ((ki.dropOwnIndexes h).ending hi) (fun _ => ?_) s hs.2
  refine ((ki.dropOwnChecks h).ending hi).bind fun _ => hcolumn.bind fun _ => ?_
  refine ((kj.createOwnIndexes h).ending hj).bind fun _ => ?_
  refine ((kj.displacePrimaryKey h hk).weaken (fun _ => id) (fun _ _ => id) hj).bind fun displaced s hs => ?_
  refine Triple.bind ((kj.createPrimaryKey h).ending hj) (fun _ => ?_) s hs.2
  refine ((kj.returnIncoming hk hin hs.1).ending hj).bind fun _ => ?_
  refine ((kj.createOwnForeignKey h).ending hj).bind fun _ => ((kj.createCheck h).ending hj).bind fun _ => ?_
  exact hcounting.bind fun _ => hrefresh.ending hl

omit k in
/-- Only the statements that change the column itself take an alteration from `I` to `J`: what goes before keeps `I`,
and what comes after keeps `J`. -/
theorem alterField_triple {J : State σ → Prop} {E : Error → State σ → Prop} (ki : Keeper ed I Ok Listed)
    (kj : Keeper ed J Ok Listed) (h : ed.AllowsQuiet Ok a.table) (hk : ed.AllowsKeys Ok Listed)
    (hcolumn : Triple I (ed.runAll a.table (a.columnStatements ed.engine ed.options)) (fun _ => J) E)
    (hi : ∀ e s, I s → E e s) (hj : ∀ e s, J s → E e s) : Triple I (ed.alterField a) (fun _ => J) E :=
  alterField_counting_triple ki kj h.aside hk hcolumn
    ((kj.alterCounting h).ending hj) kj.refresh hi hj hj

omit k in
/-- The statements that change the column are about its table, or about the trigger of its table. -/
theorem columnStatements_concern (a : Alteration) (e : Engine) (o : Options) :
    ∀ s ∈ a.columnStatements e o, s.Concerns e a.table := by
  intro s hs
  cases Alteration.changesColumn_of_mem hs with
  | dropTrigger | createTrigger => exact Statement.concerns_of_none rfl
  | setNullFlag => exact Statement.concerns_of_some (congrArg some (Identifier.ofCatalogName_catalogName e a.table))
  | add | copy | drop | rename | retype | setDefault | dropDefault | fill | setNullable =>
    exact Statement.concerns_of_some rfl

theorem alterField (h : ed.Allows Ok a.table) (hk : ed.AllowsKeys Ok Listed) : Keeps I (ed.alterField a) := by
  refine Action.keeps_iff_triple.mpr (alterField_triple k k (fun s hs _ => h s hs) hk ?_ (fun _ _ => id) fun _ _ => id)
  exact Action.keeps_iff_triple.mp (k.runAll fun s hs => h s (columnStatements_concern a ed.engine ed.options s hs))

end Keeper

end FirebirdSql.Editor
