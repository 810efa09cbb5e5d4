import FirebirdSql.Proofs.Index.Editing

/-!
What creating a table puts over each of its columns: the primary key, else the unique index, else the plain index that
the field declares.
-/

namespace FirebirdSql

open Action (Triple)
open Identifier (Canonical Simple catalogName)

/-- The statement leaves all columns, indexes and primary keys as they are. -/
def Statement.keepsIndexes : Statement → Bool
  | .catalog _ | .createTable .. | .dropTable _ | .addColumn .. | .dropColumn .. | .renameColumn .. | .createIndex ..
  | .createHashIndex .. | .dropIndex _ | .dropConstraint .. | .addConstraint _ _ (.primaryKey _) => false
  | _ => true

namespace Field

/-- The shape of the index that a field declares besides a key. -/
def indexShape? (f : Field) : Option IndexShape :=
  if f.unique && !f.primaryKey then some .unique
  else if f.indexed && !f.primaryKey && f.foreignKey.isNone then some .plain
  else none

def keyShape? (f : Field) : Option IndexShape := if f.primaryKey then some .primary else none

/-- What a field of a new table puts over its column. -/
def shapes (f : Field) : List IndexShape := f.keyShape?.toList ++ f.indexShape?.toList

end Field

namespace Model

structure SimpleNames (m : Model) : Prop where
  table : Simple m.table
  columns : ∀ f ∈ m.fields, Simple f.column
  lists : ∀ columns ∈ m.uniqueTogether ++ m.indexTogether ++ m.indexes.map (·.columns), ∀ c ∈ columns, Simple c
  indexes : ∀ i ∈ m.indexes, Simple i.name

/-- The model declares no index over just the column, other than by its field. -/
def Alone (e : Engine) (m : Model) (column : String) : Prop :=
  ∀ columns ∈ m.uniqueTogether ++ m.indexTogether ++ m.indexes.map (·.columns),
    columns.map (catalogName e) ≠ [catalogName e column]

end Model

namespace Store

variable {faults : Faults} {e : Engine} {o : Options} {table column : String} {st st' : Store} {shapes : List IndexShape}

theorem exec_of_keepsIndexes {relation : String} {s : Statement} (h : s.keepsIndexes = true) :
    st.exec relation s = some st := by
  have change : st.change s = some st := by
    cases s with
    | addConstraint table name definition =>
      cases definition with
      | primaryKey columns => exact absurd h Bool.false_ne_true
      | _ => rfl
    | _ => first
      | rfl
      | exact absurd h Bool.false_ne_true
  unfold exec
  split
  · exact absurd h Bool.false_ne_true
  · rw [change, ite_self]

theorem exec_about {s : Statement} (ht : Simple table) (hs : s.table? = some (Identifier.quote e table)) :
    st.exec (catalogName e table) s = st.change s := by
  unfold exec
  split
  · exact absurd hs (by simp [Statement.table?])
  · rw [hs, Option.map_some, ht.stored_quote, if_pos rfl]

/-- What every store that a statement can make has over a column holds after the statement. -/
theorem run_at {s : Statement} {newColumn : String} {newShapes : List IndexShape} (hs : ∀ q, s ≠ .catalog q)
    (h : ∀ st st' : Store, st.Proper e → column ∈ st.columns → st.onColumn column = shapes →
      st.exec (catalogName e table) s = some st' →
        st'.Proper e ∧ newColumn ∈ st'.columns ∧ st'.onColumn newColumn = newShapes) :
    Triple (At e table column shapes) ((editor faults e o table).run table s) (fun _ => At e table newColumn newShapes)
      (fun error _ => error.Ordinary) := by
  rintro x ⟨st, hp, hc, hl, hx⟩
  refine (run_has hs x hx).mono ?_ fun _ _ => id
  rintro - y ⟨st', hst, hy⟩
  obtain ⟨hp', hc', hl'⟩ := h st st' hp hc hl hst
  exact ⟨st', hp', hc', hl', hy⟩

theorem run_keeps {s : Statement} (h : s.keepsIndexes = true) :
    Triple (At e table column shapes) ((editor faults e o table).run table s) (fun _ => At e table column shapes)
      (fun error _ => error.Ordinary) := by
  refine run_at ?_ ?_
  · rintro q rfl
    exact absurd h Bool.false_ne_true
  · intro st st' hp hc hl hst
    obtain rfl := Option.some.inj ((exec_of_keepsIndexes h).symm.trans hst)
    exact ⟨hp, hc, hl⟩

theorem runAll_keeps {ss : List Statement} (h : ∀ s ∈ ss, s.keepsIndexes = true) :
    Triple (At e table column shapes) ((editor faults e o table).runAll table ss) (fun _ => At e table column shapes)
      (fun error _ => error.Ordinary) := by
  induction ss with
  | nil => exact Triple.pure fun _ h => h
  | cons s ss ih =>
    refine Triple.bind (run_keeps (h s List.mem_cons_self)) fun _ => ?_
    exact ih fun t ht => h t (List.mem_cons_of_mem s ht)

/-- What an index over some columns adds to those over one. -/
def adds (e : Engine) (column : String) (columns : List String) (shape : IndexShape) : List IndexShape :=
  if columns.map (catalogName e) = [column] then [shape] else []

theorem map_stored_quoteAll {columns : List String} (h : ∀ c ∈ columns, Simple c) :
    (columns.map (Identifier.quote e)).map (·.stored) = columns.map (catalogName e) := by
  rw [List.map_map]
  exact List.map_congr_left fun c hc => (h c hc).stored_quote

theorem run_insert {s : Statement} {i : StoredIndex} (hs : ∀ q, s ≠ .catalog q) (hi : Canonical e i.name)
    (h : ∀ st : Store, st.exec (catalogName e table) s = st.insert i) :
    Triple (At e table column shapes) ((editor faults e o table).run table s)
      (fun _ => At e table column (shapes ++ if i.columns = [column] then [i.shape] else []))
      (fun error _ => error.Ordinary) := by
  refine run_at hs fun st st' hp hc hl hst => ?_
  rw [h] at hst
  refine ⟨hp.insert hi hst, ?_, ?_⟩
  · rw [insert_columns hst]
    exact hc
  · rw [onColumn_insert hst, hl]

theorem createIndex_at (ht : Simple table) {name : String} {columns : List String} (hn : Simple name)
    (hc : ∀ c ∈ columns, Simple c) (unique : Bool) :
    Triple (At e table column shapes) ((editor faults e o table).createIndex table name columns unique)
      (fun _ => At e table column (shapes ++ adds e column columns (shapeOf unique)))
      (fun error _ => error.Ordinary) := by
  let i : StoredIndex := ⟨catalogName e name, shapeOf unique, columns.map (catalogName e)⟩
  have direct (st : Store) : st.exec (catalogName e table) (.createIndex unique (Identifier.quote e name)
      (Identifier.quote e table) (columns.map (Identifier.quote e))) = st.insert i := by
    rw [exec_about ht rfl, change, hn.stored_quote, map_stored_quoteAll hc]
    rfl
  have inserted : Triple (At e table column shapes) ((editor faults e o table).run table _) _ _ :=
    run_insert (i := i) (fun q h => by cases h) hn.canonical direct
  refine Triple.bind inserted.attempt.unfailing fun r => ?_
  cases r with
  | ok _ => exact Triple.pure fun x h => h.of_ok _ _ rfl
  | error error =>
    intro x h
    have ordinary := h.of_error _ _ rfl
    dsimp only
    rw [if_neg (by rw [ordinary.fits]; exact Bool.false_ne_true)]
    exact Action.ends_error.mpr ordinary

theorem visible_indexSuffix (unique : Bool) : ∀ c ∈ (Editor.indexSuffix unique).toList, Text.Visible c := by
  cases unique <;> exact Text.visible_of_all (by decide)

theorem createDerivedIndex_at (ht : Simple table) {columns : List String} (hc : ∀ c ∈ columns, Simple c)
    (unique : Bool) :
    Triple (At e table column shapes) ((editor faults e o table).createDerivedIndex table columns unique)
      (fun _ => At e table column (shapes ++ adds e column columns (shapeOf unique)))
      (fun error _ => error.Ordinary) :=
  createIndex_at ht (Identifier.simple_derivedName ht hc (visible_indexSuffix unique)) hc unique

theorem forEach_at {α : Type} {f : α → Edit Link Unit} {g : α → List IndexShape} {as : List α}
    (h : ∀ a ∈ as, ∀ shapes, Triple (At e table column shapes) (f a) (fun _ => At e table column (shapes ++ g a))
      (fun error _ => error.Ordinary)) (shapes : List IndexShape) :
    Triple (At e table column shapes) (Action.forEach f as) (fun _ => At e table column (shapes ++ as.flatMap g))
      (fun error _ => error.Ordinary) := by
  induction as generalizing shapes with
  | nil =>
    rw [List.flatMap_nil, List.append_nil]
    exact Triple.pure fun _ h => h
  | cons a as ih =>
    rw [List.flatMap_cons, ← List.append_assoc]
    exact (h a List.mem_cons_self shapes).bind fun _ => ih (fun b hb => h b (List.mem_cons_of_mem a hb)) _

/-- What a field puts over the column, if it is its own. -/
def shapesAt (e : Engine) (column : String) (shape? : Field → Option IndexShape) (f : Field) : List IndexShape :=
  if catalogName e f.column = column then (shape? f).toList else []

theorem createFieldIndex_at (ht : Simple table) {f : Field} (hf : Simple f.column) (shapes : List IndexShape) :
    Triple (At e table column shapes) ((editor faults e o table).createFieldIndex table f)
      (fun _ => At e table column (shapes ++ shapesAt e column Field.indexShape? f))
      (fun error _ => error.Ordinary) := by
  have single : ∀ c ∈ [f.column], Simple c := by simpa using hf
  have adds (shape : IndexShape) (h : f.indexShape? = some shape) :
      adds e column [f.column] shape = shapesAt e column Field.indexShape? f := by
    rw [Store.adds, shapesAt, h]
    simp
  unfold Editor.createFieldIndex
  split
  · next h =>
    rw [← adds .unique (by rw [Field.indexShape?, if_pos h])]
    exact createDerivedIndex_at ht single true
  · next h =>
    split
    · next h' =>
      rw [← adds .plain (by rw [Field.indexShape?, if_neg h, if_pos h'])]
      exact createDerivedIndex_at ht single false
    · next h' =>
      have none : shapesAt e column Field.indexShape? f = [] := by
        rw [shapesAt, Field.indexShape?, if_neg h, if_neg h']
        simp
      rw [none, List.append_nil]
      exact Triple.pure fun _ h => h

theorem createLists_at (ht : Simple table) {lists : List (List String)} (hs : ∀ columns ∈ lists, ∀ c ∈ columns, Simple c)
    (ha : ∀ columns ∈ lists, columns.map (catalogName e) ≠ [column]) (unique : Bool) (shapes : List IndexShape) :
    Triple (At e table column shapes)
      (Action.forEach ((editor faults e o table).createDerivedIndex table · unique) lists)
      (fun _ => At e table column shapes) (fun error _ => error.Ordinary) := by
  refine (forEach_at (g := fun columns => adds e column columns (shapeOf unique))
    (fun columns hm _ => createDerivedIndex_at ht (hs columns hm) unique) shapes).weaken (fun _ => id)
    (fun _ x h => ?_) fun _ _ => id
  have none : lists.flatMap (fun columns => adds e column columns (shapeOf unique)) = [] :=
    List.flatMap_eq_nil_iff.mpr fun columns hm => if_neg (ha columns hm)
  rwa [none, List.append_nil] at h

theorem addIndexes_at {m : Model} (ht : Simple m.table) {indexes : List Index}
    (hn : ∀ i ∈ indexes, Simple i.name ∧ ∀ c ∈ i.columns, Simple c)
    (ha : ∀ i ∈ indexes, i.columns.map (catalogName e) ≠ [column]) (shapes : List IndexShape) :
    Triple (At e m.table column shapes) (Action.forEach ((editor faults e o m.table).addIndex m) indexes)
      (fun _ => At e m.table column shapes) (fun error _ => error.Ordinary) := by
  refine (forEach_at (g := fun i : Index => adds e column i.columns .plain)
    (fun i hm _ => createIndex_at ht (hn i hm).1 (hn i hm).2 false) shapes).weaken (fun _ => id)
    (fun _ x h => ?_) fun _ _ => id
  have none : indexes.flatMap (fun i => adds e column i.columns .plain) = [] :=
    List.flatMap_eq_nil_iff.mpr fun i hm => if_neg (ha i hm)
  rwa [none, List.append_nil] at h

/-! The table -/

theorem insertAll {keys : List StoredIndex} (column : String) (hp : st.Proper e) (hk : ∀ k ∈ keys, Canonical e k.name)
    (h : keys.foldlM insert st = some st') :
    st'.Proper e ∧ st'.columns = st.columns ∧
      st'.onColumn column = st.onColumn column ++ keys.flatMap fun k => if k.columns = [column] then [k.shape] else [] := by
  induction keys generalizing st with
  | nil =>
    obtain rfl := Option.some.inj h
    exact ⟨hp, rfl, by simp⟩
  | cons k keys ih =>
    obtain ⟨next, hnext, hrest⟩ := Option.bind_eq_some_iff.mp h
    obtain ⟨hp', hc', hl'⟩ := ih (hp.insert (hk k List.mem_cons_self) hnext)
      (fun k' hm => hk k' (List.mem_cons_of_mem k hm)) hrest
    refine ⟨hp', hc'.trans (insert_columns hnext), ?_⟩
    rw [hl', onColumn_insert hnext, List.flatMap_cons, List.append_assoc]

theorem canonical_keyName : Canonical e keyName := by
  refine ⟨by decide, by decide, ?_⟩
  have := e.identifierLimit_ge
  exact Nat.le_trans (by decide) this

/-- Where columns are told apart by their names, what is done for one of them is done once. -/
theorem flatMap_shapesAt {fields : List Field} (shape? : Field → Option IndexShape) {f : Field} (hf : f ∈ fields)
    (hn : (fields.map fun f => catalogName e f.column).Nodup) :
    fields.flatMap (shapesAt e (catalogName e f.column) shape?) = (shape? f).toList := by
  induction fields with
  | nil => exact absurd hf List.not_mem_nil
  | cons g fields ih =>
    rw [List.map_cons, List.nodup_cons] at hn
    rw [List.flatMap_cons]
    rcases List.mem_cons.mp hf with rfl | hf
    · have others : fields.flatMap (shapesAt e (catalogName e f.column) shape?) = [] := by
        refine List.flatMap_eq_nil_iff.mpr fun g hg => if_neg fun h => hn.1 ?_
        exact h ▸ List.mem_map_of_mem hg
      rw [others, List.append_nil]
      exact if_pos rfl
    · have hm : catalogName e f.column ∈ fields.map fun f => catalogName e f.column := List.mem_map_of_mem hf
      have other : shapesAt e (catalogName e f.column) shape? g = [] := if_neg fun h => hn.1 (by rwa [h])
      rw [other, List.nil_append, ih hf hn.2]

theorem flatMap_columnKeys {fields : List Field} (hs : ∀ f ∈ fields, Simple f.column) :
    (columnKeys (fields.map (editor faults e o table).columnOf)).flatMap
        (fun k => if k.columns = [column] then [k.shape] else []) =
      fields.flatMap (shapesAt e column Field.keyShape?) := by
  induction fields with
  | nil => rfl
  | cons f fields ih =>
    have stored : ((editor faults e o table).columnOf f).1.stored = catalogName e f.column :=
      (hs f List.mem_cons_self).stored_quote
    have key : ((editor faults e o table).columnOf f).2.primaryKey = f.primaryKey := rfl
    have rest := ih fun g hg => hs g (List.mem_cons_of_mem f hg)
    rw [columnKeys] at rest
    rw [columnKeys, List.map_cons, List.filter_cons, key, List.flatMap_cons, shapesAt, Field.keyShape?]
    cases f.primaryKey with
    | true =>
      rw [if_pos rfl, List.map_cons, List.flatMap_cons, rest, stored]
      simp
    | false => simpa using rest

theorem createTable_at {m : Model} (hm : m.SimpleNames) {f : Field} (hf : f ∈ m.fields) :
    Triple (Has m.table Store.empty) ((editor faults e o m.table).run m.table ((editor faults e o m.table).createTableStatement m))
      (fun _ x => (m.fields.map fun f => catalogName e f.column).Nodup ∧
        At e m.table (catalogName e f.column) f.keyShape?.toList x)
      (fun error _ => error.Ordinary) := by
  intro x hx
  refine (run_has (fun q h => by cases h) x hx).mono ?_ fun _ _ => id
  rintro - y ⟨st, hst, hy⟩
  have stored : (m.fields.map (editor faults e o m.table).columnOf).map (·.1.stored) =
      m.fields.map fun f => catalogName e f.column := by
    rw [List.map_map]
    exact List.map_congr_left fun f hf => (hm.columns f hf).stored_quote
  rw [Editor.createTableStatement, exec_about hm.table rfl, change, stored] at hst
  split at hst
  · next h =>
    have bare : Proper e ⟨m.fields.map fun f => catalogName e f.column, []⟩ := by
      refine ⟨by simp, fun c hc => ?_, by simp, by simp, by simp⟩
      obtain ⟨g, hg, rfl⟩ := List.mem_map.mp hc
      exact (hm.columns g hg).canonical
    obtain ⟨hp, hc, hl⟩ := insertAll (catalogName e f.column) bare
      (fun k hk => by obtain ⟨c, -, rfl⟩ := List.mem_map.mp hk; exact canonical_keyName) hst
    refine ⟨h.2, st, hp, ?_, ?_, hy⟩
    · rw [hc]
      exact List.mem_map_of_mem hf
    · rw [hl, flatMap_columnKeys hm.columns, flatMap_shapesAt _ hf h.2]
      rfl
  · exact absurd hst (by simp)

/-- Over each column of a new table stands what its field declares. -/
theorem createModel_at {m : Model} (hm : m.SimpleNames) {f : Field} (hf : f ∈ m.fields) (ha : m.Alone e f.column) :
    Triple (Has m.table Store.empty) ((editor faults e o m.table).createModel m)
      (fun _ => At e m.table (catalogName e f.column) f.shapes) (fun error _ => error.Ordinary) := by
  have hlists := hm.lists
  simp only [List.mem_append] at hlists
  have halone := ha
  simp only [Model.Alone, List.mem_append] at halone
  refine Triple.bind (R := fun _ => Has m.table Store.empty) (fun x hx => Action.ends_ok.mpr ⟨hx.store, hx.cache⟩)
    fun _ => ?_
  refine (createTable_at hm hf).bind fun _ => ?_
  rintro x ⟨hn, hx⟩
  have counting : ∀ s ∈ Sequence.setUpModel e m, s.keepsIndexes = true := by
    unfold Sequence.setUpModel
    split
    · simp [Sequence.setUp, Statement.keepsIndexes]
    · simp
  refine Triple.bind (runAll_keeps counting) (fun _ => ?_) x hx
  refine Triple.bind (forEach_at (fun g hg => createFieldIndex_at hm.table (hm.columns g hg)) _) fun _ => ?_
  rw [flatMap_shapesAt _ hf hn]
  refine Triple.bind (createLists_at hm.table (fun cs h => hlists cs (.inl (.inl h)))
    (fun cs h => halone cs (.inl (.inl h))) true _) fun _ => ?_
  refine Triple.bind (createLists_at hm.table (fun cs h => hlists cs (.inl (.inr h)))
    (fun cs h => halone cs (.inl (.inr h))) false _) fun _ => ?_
  refine addIndexes_at hm.table (fun i h => ⟨hm.indexes i h, ?_⟩) (fun i h => ?_) _
  · exact hlists i.columns (.inr (List.mem_map_of_mem h))
  · exact halone i.columns (.inr (List.mem_map_of_mem h))

end Store

end FirebirdSql
