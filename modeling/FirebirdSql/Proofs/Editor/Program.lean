import FirebirdSql.Proofs.Editor.Keeper
import FirebirdSql.Proofs.Editor.Request
import FirebirdSql.Proofs.Log

/-!
An editor that only collects and one that sends take the same steps: what one collects the other sends, and both read
the catalog alike. They differ where an answer of the catalog is taken as given, and in the commit at the end.
-/

namespace FirebirdSql

/-- What is taken as given while statements are only collected: no keys come in, what counts is there, and a column has
its default. -/
def CatalogQuery.Foreseen : CatalogQuery → List Row → Prop
  | .incomingKeys .., rows => rows = []
  | .sequence _, rows | .trigger _, rows => rows ≠ []
  | .columnDefault .., rows => ∃ r rest default, rows = r :: rest ∧ r.getName? 0 = .ok (some default)
  | _, _ => True

/-- The constraints of a description of them. -/
def Catalog.Description.constraintsOf : Description → List Constraint
  | .constraints read => read
  | .columns _ => []

namespace Editor

def collecting (ed : Editor σ) : Editor σ := { ed with collects := true }

def sending (ed : Editor σ) : Editor σ := { ed with collects := false }

/-- What a program of a collecting editor and the same program of a sending one are made of. Answers are taken as given
for the questions that `P` allows. -/
inductive InStep (ed : Editor σ) (P : CatalogQuery → Prop) : {α : Type} → Edit σ α → Edit σ α → Prop where
  | lift (r : Except Error α) : InStep ed P (Action.lift r) (Action.lift r)
  | bind : InStep ed P x y → (∀ a, InStep ed P (f a) (g a)) → InStep ed P (x >>= f) (y >>= g)
  | execute (s : Statement) : s.isSingle = true → InStep ed P (ed.collecting.execute s) (ed.sending.execute s)
  | run (table : String) (s : Statement) : s.isSingle = true →
      InStep ed P (ed.collecting.run table s) (ed.sending.run table s)
  | createIndex (table name : String) (columns : List String) (unique : Bool) :
      InStep ed P (ed.collecting.createIndex table name columns unique)
        (ed.sending.createIndex table name columns unique)
  | ask (q : CatalogQuery) : InStep ed P (onLink (Catalog.ask ed.cursor q)) (onLink (Catalog.ask ed.cursor q))
  /-- What the cache does not have is read. -/
  | inquire (i : Catalog.Inquiry) :
      InStep ed P (onLink (i.direct ed.cursor ed.engine)) (onLink (i.direct ed.cursor ed.engine)) →
      InStep ed P (onBase (i.cached ed.cursor ed.engine)) (onBase (i.cached ed.cursor ed.engine))
  | presume (q : CatalogQuery) (read : List Row → Except Error α) (given : α) : P q →
      (∀ rows, q.Foreseen rows → read rows = .ok given) →
      InStep ed P (return given) (onLink (Catalog.ask ed.cursor q >>= fun rows => Action.lift (read rows)))
  | defer (ss : List Statement) : (∀ s ∈ ss, s.isSingle = true) → InStep ed P (defer ss) (defer ss)
  /-- What was put off is executed in the end. -/
  | finish : (∀ ss : List Statement, (∀ s ∈ ss, s.isSingle = true) →
        InStep ed P (Action.forEach ed.collecting.execute ss) (Action.forEach ed.sending.execute ss)) →
      InStep ed P (do let _ ← ed.collecting.finish; return ()) (do let _ ← ed.sending.finish; return ())

/-- Programs that refresh the connection when they are through. -/
inductive Ending (ed : Editor σ) (P : CatalogQuery → Prop) : Edit σ Unit → Edit σ Unit → Prop where
  | refresh : Ending ed P ed.collecting.refresh ed.sending.refresh
  | bind {x y : Edit σ α} : InStep ed P x y → (∀ a, Ending ed P (f a) (g a)) → Ending ed P (x >>= f) (y >>= g)

variable {ed : Editor σ} {P : CatalogQuery → Prop}

/-- Reading changes the connection only. -/
theorem onBase_map (f : α → β) (x : Action (Catalog.Cached σ) α) : (onBase (f <$> x) : Edit σ β) = f <$> onBase x := by
  funext s
  simp only [onBase, Action.within_apply, map_eq_pure_bind, Action.bind_apply]
  obtain ⟨r, b⟩ := x s.base
  cases r <;> rfl

namespace InStep

theorem pure (a : α) : InStep ed P (return a) (return a) := .lift (.ok a)

theorem fail (e : Error) : InStep ed P (Action.fail e : Edit σ α) (Action.fail e) := .lift (.error e)

theorem map {x y : Edit σ α} (f : α → β) (h : InStep ed P x y) : InStep ed P (f <$> x) (f <$> y) :=
  h.bind fun a => .lift (.ok (f a))

theorem ite {c : Prop} [Decidable c] {x x' y y' : Edit σ α} (h : c → InStep ed P x y) (h' : ¬c → InStep ed P x' y') :
    InStep ed P (if c then x else x') (if c then y else y') := by
  split
  · next hc => exact h hc
  · next hc => exact h' hc

/-- What is done on a condition, before the rest. -/
theorem when {c : Prop} [Decidable c] {x x' : Edit σ Unit} {y y' : Edit σ α} (h : InStep ed P x x')
    (h' : InStep ed P y y') : InStep ed P (if c then x >>= fun _ => y else y) (if c then x' >>= fun _ => y' else y') :=
  ite (fun _ => h.bind fun _ => h') fun _ => h'

theorem forEach {f g : ι → Edit σ Unit} {is : List ι} (h : ∀ i ∈ is, InStep ed P (f i) (g i)) :
    InStep ed P (Action.forEach f is) (Action.forEach g is) := by
  induction is with
  | nil => exact pure ()
  | cons i is ih => exact (h i List.mem_cons_self).bind fun _ => ih fun j hj => h j (List.mem_cons_of_mem i hj)

theorem mapM {f g : ι → Edit σ α} (h : ∀ i, InStep ed P (f i) (g i)) (is : List ι) :
    InStep ed P (is.mapM f) (is.mapM g) := by
  induction is with
  | nil => exact pure []
  | cons i is ih =>
    rw [List.mapM_cons, List.mapM_cons]
    exact (h i).bind fun a => ih.bind fun as => pure (a :: as)

theorem runAll {table : String} {ss : List Statement} (h : ∀ s ∈ ss, s.isSingle = true) :
    InStep ed P (ed.collecting.runAll table ss) (ed.sending.runAll table ss) :=
  forEach fun s hs => .run table s (h s hs)

/-! Reading -/

theorem link {x : Action σ α} {f : α → Action σ β} (h : InStep ed P (onLink x) (onLink x))
    (hf : ∀ a, InStep ed P (onLink (f a)) (onLink (f a))) : InStep ed P (onLink (x >>= f)) (onLink (x >>= f)) := by
  rw [onLink_bind]
  exact h.bind hf

theorem direct (i : Catalog.Inquiry) :
    InStep ed P (onLink (i.direct ed.cursor ed.engine)) (onLink (i.direct ed.cursor ed.engine)) := by
  cases i with
  | columns table => exact link (link (ask _) fun _ => lift _) fun _ => lift (.ok _)
  | constraints table =>
    refine link ?_ fun _ => lift (.ok _)
    exact link (ask _) fun _ => link (lift _) fun _ => link (ask _) fun _ => link (lift _) fun _ => lift (.ok _)

theorem constraintsWhere (table : String) (select : Catalog.Constraint → Bool) :
    InStep ed P (ed.collecting.constraintsWhere table select) (ed.sending.constraintsWhere table select) := by
  have read : InStep ed P (onBase (Catalog.Cached.constraints ed.cursor ed.engine table))
      (onBase (Catalog.Cached.constraints ed.cursor ed.engine table)) := by
    have described : InStep ed P _ _ := (inquire (.constraints table) (direct _)).map Catalog.Description.constraintsOf
    rwa [Catalog.Inquiry.cached, ← onBase_map, ← comp_map, show Catalog.Description.constraintsOf ∘ _ = id from rfl,
      id_map] at described
  exact read.bind fun found => pure (found.filter select)

/-! Indexes -/

theorem dropConstraint (table : String) (c : Catalog.Constraint) :
    InStep ed P (ed.collecting.dropConstraint table c) (ed.sending.dropConstraint table c) := by
  refine run table (ed.dropStatement table c) ?_
  unfold dropStatement
  split <;> rfl

theorem dropWhere (table : String) (select : Catalog.Constraint → Bool) :
    InStep ed P (ed.collecting.dropWhere table select) (ed.sending.dropWhere table select) :=
  (constraintsWhere table select).bind fun _ => forEach fun c _ => dropConstraint table c

theorem createDerivedIndex (table : String) (columns : List String) (unique : Bool) :
    InStep ed P (ed.collecting.createDerivedIndex table columns unique)
      (ed.sending.createDerivedIndex table columns unique) :=
  createIndex table _ columns unique

theorem dropIndexOver (table : String) (columns : List String) (unique : Bool) :
    InStep ed P (ed.collecting.dropIndexOver table columns unique) (ed.sending.dropIndexOver table columns unique) := by
  refine (constraintsWhere table _).bind fun found => ite (fun _ => ?_) fun _ => ?_
  · refine (link (ask _) fun _ => lift _).bind fun name => ?_
    cases name with
    | some name => exact run table _ rfl
    | none => exact fail _
  · exact forEach fun c _ => dropConstraint table c

theorem addIndex (m : Model) (index : Index) :
    InStep ed P (ed.collecting.addIndex m index) (ed.sending.addIndex m index) :=
  createIndex m.table _ _ false

theorem alterTogether (m : Model) (unique : Bool) (old new : List (List String)) :
    InStep ed P (ed.collecting.alterTogether unique m old new) (ed.sending.alterTogether unique m old new) :=
  (forEach fun columns _ => dropIndexOver m.table columns unique).bind fun _ =>
    forEach fun columns _ => createDerivedIndex m.table columns unique

/-! Tables and what counts for them -/

theorem dropSequence {table : String} (h : P (.sequence (ed.sequence table).sequenceCatalogName)) :
    InStep ed P (ed.collecting.dropSequence table) (ed.sending.dropSequence table) := by
  have there : InStep ed P (ed.collecting.sequenceExists table) (ed.sending.sequenceExists table) :=
    presume _ (fun rows => .ok !rows.isEmpty) true h fun rows found => by
      rw [List.isEmpty_eq_false_iff.mpr found, Bool.not_false]
  exact there.bind fun _ => ite (fun _ => run table _ rfl) fun _ => pure ()

theorem dropTrigger {table : String} (h : P (.trigger (ed.sequence table).triggerCatalogName)) :
    InStep ed P (ed.collecting.dropTrigger table) (ed.sending.dropTrigger table) := by
  have there : InStep ed P (ed.collecting.triggerExists table) (ed.sending.triggerExists table) :=
    presume _ (fun rows => .ok !rows.isEmpty) true h fun rows found => by
      rw [List.isEmpty_eq_false_iff.mpr found, Bool.not_false]
  exact there.bind fun _ => ite (fun _ => run table _ rfl) fun _ => pure ()

theorem dropCounting {table : String} (h : ∀ q, (ed.sequence table).IsAsked q → P q) :
    InStep ed P (ed.collecting.dropCounting table) (ed.sending.dropCounting table) :=
  (dropTrigger (h _ (.inl rfl))).bind fun _ => dropSequence (h _ (.inr rfl))

theorem setUp (t table column : String) : InStep ed P (ed.collecting.runAll t (Sequence.setUp ed.engine table column))
    (ed.sending.runAll t (Sequence.setUp ed.engine table column)) :=
  runAll (by simp [Sequence.setUp, Statement.isSingle, Statement.isCatalogRead, Statement.retry?])

theorem deferKeys (table : String) (fields : List Field) : InStep ed P
    (Editor.defer (ed.collecting.foreignKeyStatements table fields))
    (Editor.defer (ed.sending.foreignKeyStatements table fields)) := by
  refine defer _ fun s hs => ?_
  obtain ⟨f, -, hf⟩ := List.mem_filterMap.mp hs
  obtain ⟨key, -, rfl⟩ := Option.map_eq_some_iff.mp hf
  rfl

theorem createFieldIndex (table : String) (f : Field) :
    InStep ed P (ed.collecting.createFieldIndex table f) (ed.sending.createFieldIndex table f) :=
  ite (fun _ => createDerivedIndex table _ true) fun _ =>
    ite (fun _ => createDerivedIndex table _ false) fun _ => pure ()

theorem createModel (m : Model) : InStep ed P (ed.collecting.createModel m) (ed.sending.createModel m) := by
  refine (deferKeys m.table m.fields).bind fun _ => (run m.table _ rfl).bind fun _ => ?_
  have counting : InStep ed P (ed.collecting.runAll m.table (Sequence.setUpModel ed.engine m))
      (ed.sending.runAll m.table (Sequence.setUpModel ed.engine m)) := by
    unfold Sequence.setUpModel
    split
    · exact setUp m.table _ _
    · exact pure ()
  refine counting.bind fun _ => (forEach fun f _ => createFieldIndex m.table f).bind fun _ => ?_
  refine (forEach fun columns _ => createDerivedIndex m.table columns true).bind fun _ => ?_
  refine (forEach fun columns _ => createDerivedIndex m.table columns false).bind fun _ => ?_
  exact forEach fun index _ => addIndex m index

theorem deleteModel {m : Model} (h : P (.sequence (ed.sequence m.table).sequenceCatalogName)) :
    InStep ed P (ed.collecting.deleteModel m) (ed.sending.deleteModel m) :=
  (run m.table _ rfl).bind fun _ => dropSequence h

/-! Fields -/

theorem hasDefault {table column : String}
    (h : P (.columnDefault (Identifier.catalogName ed.engine table) (Identifier.catalogName ed.engine column))) :
    InStep ed P (ed.collecting.hasDefault table column) (ed.sending.hasDefault table column) := by
  let read (rows : List Row) : Except Error Bool := rows.head?.elim (.ok false) fun r => Option.isSome <$> r.getName? 0
  have reads : Catalog.hasDefault ed.cursor ed.engine table column =
      Catalog.ask ed.cursor _ >>= fun rows => Action.lift (read rows) :=
    congrArg _ (funext fun rows => by cases rows <;> rfl)
  have there : InStep ed P (return true) (onLink (Catalog.hasDefault ed.cursor ed.engine table column)) := by
    rw [reads]
    refine presume _ read true h fun rows found => ?_
    obtain ⟨r, rest, default, rfl, hr⟩ := found
    change Option.isSome <$> r.getName? 0 = .ok true
    rw [hr]
    rfl
  exact there

theorem createAddedIndex (table : String) (f : Field) :
    InStep ed P (ed.collecting.createAddedIndex table f) (ed.sending.createAddedIndex table f) :=
  ite (fun _ => createDerivedIndex table _ true) fun _ =>
    ite (fun _ => createDerivedIndex table _ false) fun _ => pure ()

/-! Incoming keys -/

theorem incomingKeys {table column : String}
    (h : P (.incomingKeys (Identifier.catalogName ed.engine table) (Identifier.catalogName ed.engine column))) :
    InStep ed P (ed.collecting.incomingKeys table column) (ed.sending.incomingKeys table column) :=
  presume _ (List.mapM Catalog.IncomingKey.ofRow) [] h fun rows empty => by
    obtain rfl : rows = [] := empty
    rfl

theorem dropIncoming (keys : List Catalog.IncomingKey) :
    InStep ed P (ed.collecting.dropIncoming keys) (ed.sending.dropIncoming keys) :=
  forEach fun key _ => run key.table _ rfl

theorem addIncoming (table target : String) (keys : List Catalog.IncomingKey) :
    InStep ed P (ed.collecting.addIncoming table target keys) (ed.sending.addIncoming table target keys) :=
  forEach fun key _ => run key.table _ rfl

theorem displaceKey {table : String} (h : ∀ column, P (.incomingKeys (Identifier.catalogName ed.engine table) column))
    (c : Catalog.Constraint) :
    InStep ed P (ed.collecting.displaceKey table c) (ed.sending.displaceKey table c) :=
  (mapM (fun _ => incomingKeys (h _)) c.columns).bind fun keys => (dropIncoming keys.flatten).bind fun _ =>
    (dropConstraint table c).bind fun _ => pure keys.flatten

/-! The steps of an alteration -/

variable {a : Alteration}

theorem dropOwnForeignKey : InStep ed P (ed.collecting.dropOwnForeignKey a) (ed.sending.dropOwnForeignKey a) :=
  ite (fun _ => dropWhere a.table _) fun _ => pure ()

theorem takeIncoming (h : ∀ column, P (.incomingKeys (Identifier.catalogName ed.engine a.table) column)) :
    InStep ed P (ed.collecting.takeIncoming a) (ed.sending.takeIncoming a) := by
  have dropped {x y : Edit σ (List Catalog.IncomingKey)} (taken : InStep ed P x y) :
      InStep ed P (x >>= fun keys => ed.collecting.dropIncoming keys >>= fun _ => return keys)
        (y >>= fun keys => ed.sending.dropIncoming keys >>= fun _ => return keys) :=
    taken.bind fun keys => (dropIncoming keys).bind fun _ => pure keys
  exact ite (fun _ => dropped (incomingKeys (h _))) fun _ => dropped (pure [])

theorem dropOwnIndexes : InStep ed P (ed.collecting.dropOwnIndexes a) (ed.sending.dropOwnIndexes a) :=
  when (dropIndexOver a.table _ true) (when (dropIndexOver a.table _ false)
    (ite (fun _ => dropWhere a.table _) fun _ => pure ()))

theorem dropOwnChecks : InStep ed P (ed.collecting.dropOwnChecks a) (ed.sending.dropOwnChecks a) :=
  ite (fun _ => dropWhere a.table _) fun _ => pure ()

theorem columnStatements : InStep ed P (ed.collecting.runAll a.table (a.columnStatements ed.engine ed.options))
    (ed.sending.runAll a.table (a.columnStatements ed.engine ed.options)) := by
  refine runAll fun s hs => ?_
  cases Alteration.changesColumn_of_mem hs <;> rfl

theorem createOwnIndexes : InStep ed P (ed.collecting.createOwnIndexes a) (ed.sending.createOwnIndexes a) :=
  when (createDerivedIndex a.table _ true) (ite (fun _ => createDerivedIndex a.table _ false) fun _ => pure ())

theorem displacePrimaryKey (h : ∀ column, P (.incomingKeys (Identifier.catalogName ed.engine a.table) column)) :
    InStep ed P (ed.collecting.displacePrimaryKey a) (ed.sending.displacePrimaryKey a) :=
  ite (fun _ => (constraintsWhere a.table _).bind fun keys =>
    (mapM (displaceKey h) keys).bind fun displaced => pure displaced.flatten) fun _ => pure []

theorem createPrimaryKey : InStep ed P (ed.collecting.runAll a.table (a.primaryKeyStatements ed.engine))
    (ed.sending.runAll a.table (a.primaryKeyStatements ed.engine)) := by
  unfold Alteration.primaryKeyStatements
  split
  · exact runAll (List.forall_mem_singleton.mpr rfl)
  · exact pure ()

theorem returnIncoming (incoming displaced : List Catalog.IncomingKey) :
    InStep ed P (ed.collecting.returnIncoming a incoming displaced)
      (ed.sending.returnIncoming a incoming displaced) := by
  unfold Editor.returnIncoming
  split
  · exact (addIncoming a.table _ incoming).bind fun _ => addIncoming a.table _ displaced
  · exact addIncoming a.table _ displaced

theorem createOwnForeignKey : InStep ed P (ed.collecting.createOwnForeignKey a) (ed.sending.createOwnForeignKey a) := by
  refine runAll fun s hs => ?_
  obtain ⟨key, -, rfl⟩ := List.mem_map.mp hs
  rfl

theorem createCheck : InStep ed P (ed.collecting.runAll a.table (a.checkStatements ed.engine))
    (ed.sending.runAll a.table (a.checkStatements ed.engine)) := by
  unfold Alteration.checkStatements
  split
  · split
    · exact runAll (List.forall_mem_singleton.mpr rfl)
    · exact pure ()
  · exact pure ()

theorem alterCounting (h : a.old.type.isAuto = true → ∀ q, (ed.sequence a.table).IsAsked q → P q) :
    InStep ed P (ed.collecting.alterCounting a) (ed.sending.alterCounting a) := by
  refine ite (fun _ => setUp a.table a.table a.column) fun _ => ite (fun lost => ?_) fun _ => pure ()
  exact dropCounting (h (Bool.and_eq_true_iff.mp lost).1)

end InStep

/-! Whole alterations, which end in a refresh -/

namespace Ending

theorem ite {c : Prop} [Decidable c] {x x' y y' : Edit σ Unit} (h : c → Ending ed P x y) (h' : ¬c → Ending ed P x' y') :
    Ending ed P (if c then x else x') (if c then y else y') := by
  split
  · next hc => exact h hc
  · next hc => exact h' hc

theorem addField {m : Model} {f : Field} (h : f.default.isSome = true →
      P (.columnDefault (Identifier.catalogName ed.engine m.table) (Identifier.catalogName ed.engine f.column))) :
    Ending ed P (ed.collecting.addField m f) (ed.sending.addField m f) := by
  have finish : Ending ed P
      (do
        ed.collecting.createAddedIndex m.table f
        defer (ed.collecting.foreignKeyStatements m.table [f])
        ed.collecting.refresh)
      (do
        ed.sending.createAddedIndex m.table f
        defer (ed.sending.foreignKeyStatements m.table [f])
        ed.sending.refresh) :=
    .bind (InStep.createAddedIndex m.table f) fun _ => .bind (InStep.deferKeys m.table [f]) fun _ => .refresh
  have rest := ite (c := f.type.isAuto = true) (fun _ => .bind (InStep.setUp m.table m.table f.column) fun _ => finish)
    fun _ => finish
  refine .bind (.run m.table _ rfl) fun _ => ite (fun set => ?_) fun _ => rest
  have there := InStep.hasDefault (h (Bool.and_eq_true_iff.mp set).1)
  exact .bind there fun _ => ite (fun _ => .bind (.run m.table _ rfl) fun _ => rest) fun _ => rest

theorem removeField {m : Model} {f : Field} (h : f.type.isAuto = true → ∀ q, (ed.sequence m.table).IsAsked q → P q) :
    Ending ed P (ed.collecting.removeField m f) (ed.sending.removeField m f) := by
  have rest : Ending ed P
      (do
        ed.collecting.dropWhere m.table (isForeignKeyOn f.column)
        let indexes ← onLink (Catalog.columnIndexes ed.cursor ed.engine m.table f.column)
        ed.collecting.runAll m.table (indexes.map fun name => .dropIndex (ed.quote name))
        ed.collecting.run m.table (.dropColumn (ed.quote m.table) (ed.quote f.column))
        ed.collecting.refresh)
      (do
        ed.sending.dropWhere m.table (isForeignKeyOn f.column)
        let indexes ← onLink (Catalog.columnIndexes ed.cursor ed.engine m.table f.column)
        ed.sending.runAll m.table (indexes.map fun name => .dropIndex (ed.quote name))
        ed.sending.run m.table (.dropColumn (ed.quote m.table) (ed.quote f.column))
        ed.sending.refresh) := by
    have listed : InStep ed P (onLink (Catalog.columnIndexes ed.cursor ed.engine m.table f.column))
        (onLink (Catalog.columnIndexes ed.cursor ed.engine m.table f.column)) := .link (.ask _) fun _ => .lift _
    refine .bind (InStep.dropWhere m.table _) fun _ => .bind listed fun indexes => ?_
    refine .bind (InStep.runAll fun s hs => ?_) fun _ => .bind (.run m.table _ rfl) fun _ => .refresh
    obtain ⟨name, -, rfl⟩ := List.mem_map.mp hs
    rfl
  exact ite (fun auto => .bind (InStep.dropCounting (h auto)) fun _ => rest) fun _ => rest

theorem alterField {a : Alteration}
    (keys : ∀ column, P (.incomingKeys (Identifier.catalogName ed.engine a.table) column))
    (counting : a.old.type.isAuto = true → ∀ q, (ed.sequence a.table).IsAsked q → P q) :
    Ending ed P (ed.collecting.alterField a) (ed.sending.alterField a) := by
  refine .bind InStep.dropOwnForeignKey fun _ => .bind (InStep.takeIncoming keys) fun incoming => ?_
  refine .bind InStep.dropOwnIndexes fun _ => .bind InStep.dropOwnChecks fun _ => ?_
  refine .bind InStep.columnStatements fun _ => .bind InStep.createOwnIndexes fun _ => ?_
  refine .bind (InStep.displacePrimaryKey keys) fun displaced => .bind InStep.createPrimaryKey fun _ => ?_
  refine .bind (InStep.returnIncoming incoming displaced) fun _ => .bind InStep.createOwnForeignKey fun _ => ?_
  exact .bind InStep.createCheck fun _ => .bind (InStep.alterCounting counting) fun _ => .refresh

end Ending

namespace Request

theorem inStep (ed : Editor σ) {r : Request} (h : r.refreshes = false) :
    InStep ed (r.Presumes ed.engine) (r.run ed.collecting) (r.run ed.sending) := by
  cases r with
  | addField | removeField | alterField => cases h
  | execute f => exact .execute (.custom f) rfl
  | createIndex table name columns unique => exact .createIndex table name columns unique
  | addIndex m i => exact .addIndex m i
  | removeIndex m i => exact .run m.table _ rfl
  | createModel m => exact .createModel m
  | deleteModel m => exact .deleteModel rfl
  | renameModel => exact .fail _
  | alterUniqueTogether m old new => exact .alterTogether m true old new
  | alterIndexTogether m old new => exact .alterTogether m false old new
  | describe i => exact (InStep.inquire i (.direct i)).bind fun _ => .pure ()
  | ask q => exact (InStep.ask q).bind fun _ => .pure ()
  | finish => exact .finish fun ss hs => .forEach fun s hm => .execute s (hs s hm)

theorem ending (ed : Editor σ) {r : Request} (h : r.refreshes = true) :
    Ending ed (r.Presumes ed.engine) (r.run ed.collecting) (r.run ed.sending) := by
  cases r with
  | addField m f => exact .addField fun set => ⟨set, rfl⟩
  | removeField m f => exact .removeField fun auto q asked => ⟨auto, asked⟩
  | alterField a => exact .alterField (fun column => .inl ⟨column, rfl⟩) fun auto q asked => .inr ⟨auto, asked⟩
  | _ => cases h

end Request

end Editor

end FirebirdSql
