import FirebirdSql.Proofs.Catalog.Cache
import FirebirdSql.Proofs.Editor.Keeper
import FirebirdSql.Proofs.Index.Effect
import FirebirdSql.Proofs.Transaction
import Mathlib.Data.List.Nodup

/-!
Editors over a store. What is remembered of the table always describes the store as it is, so an index is found just if
it is there.
-/

namespace FirebirdSql

open Action (Triple)
open Identifier (Canonical Simple)

/-- The editor that sends statements about the table to its store. -/
def Store.editor (faults : Faults) (e : Engine) (o : Options) (table : String) : Editor Store.Link :=
  ⟨Store.cursor faults (Identifier.catalogName e table), e, o, false⟩

/-- The catalog lacks nothing, and no key is too long. -/
structure Error.Ordinary (error : Error) : Prop where
  consistent : ∀ what, error ≠ .catalogInconsistency what
  fits : error.isKeyTooBig = false

namespace Store

variable {faults : Faults} {e : Engine} {o : Options} {table : String} {st : Store}

/-- The editor is over this store, and what it remembers of the table is so. -/
structure Has (table : String) (st : Store) (x : Editor.State Link) : Prop where
  store : x.base.link.store = st
  cache : ∀ cs, x.base.cache.constraints? table = some cs → cs = st.described

theorem described_of_invalidated (cache : Catalog.Cache) :
    ∀ cs, (cache.invalidate table).constraints? table = some cs → cs = st.described := by
  intro cs hc
  simp [Catalog.Cache.constraints?_invalidate] at hc

theorem ordinary_fault (fault : Fault) : (Error.database fault.report).Ordinary where
  consistent _ h := by cases h
  fits := fault.fits

theorem ordinary_classified (fault : Fault) : (Error.database fault.report).classify.Ordinary := by
  rw [Error.classify]
  split
  · exact ⟨fun _ h => (by cases h), rfl⟩
  · exact ordinary_fault fault

theorem Lost.ordinary {error : Error} (h : Lost faults error) : error.Ordinary := by
  obtain ⟨_, fault, _, rfl⟩ := h
  exact ordinary_fault fault

theorem ordinary_of_lost {α σ : Type} {P : σ → Prop} {x : Action σ α} {Q : α → σ → Prop}
    (h : Triple P x Q fun error _ => Lost faults error) : Triple P x Q fun error _ => error.Ordinary :=
  h.weaken (fun _ => id) (fun _ _ => id) fun _ _ => Lost.ordinary

theorem onLink_triple {α : Type} {y : Action Link α} {P : Editor.State Link → Prop} {Q : α → Editor.State Link → Prop}
    {E : Error → Prop} {R : α → Link → Prop} (h : Triple (fun link => link.store = st) y R (fun error _ => E error))
    (hp : ∀ x, P x → x.base.link.store = st)
    (hq : ∀ x a link, P x → R a link → Q a { x with base := { x.base with link := link } }) :
    Triple P (Editor.onLink y) Q (fun error _ => E error) := by
  intro x hx
  have hy := h _ (hp x hx)
  rw [Editor.onLink, Editor.onBase, Action.within_apply, Catalog.Cached.onLink, Action.within_apply]
  revert hy
  obtain ⟨r, link⟩ := y x.base.link
  cases r with
  | ok a => exact fun hy => Action.ends_ok.mpr (hq x a link hx (Action.ends_ok.mp hy))
  | error error => exact fun hy => Action.ends_error.mpr (Action.ends_error.mp hy)

theorem execute_triple {s : Statement} (hs : ∀ q, s ≠ .catalog q) (relation : String) :
    Triple (fun link : Link => link.store = st) ((cursor faults relation).execute s)
      (fun _ (link : Link) => st.exec relation s = some link.store) (fun error _ => error.classify.Ordinary) := by
  have refused : ∀ error (link : Link), Lost faults error → link.store = st → error.classify.Ordinary := by
    rintro _ _ ⟨_, fault, _, rfl⟩ _
    exact ordinary_classified fault
  refine call_triple (fun _ _ h => h) (fun link hl => ?_) refused
  subst hl
  unfold execute
  split
  · exact absurd rfl (hs _)
  · split
    · next h => exact Action.ends_ok.mpr h
    · exact Action.ends_error.mpr (ordinary_classified refusal)

theorem send_triple {s : Statement} (hs : ∀ q, s ≠ .catalog q) :
    Triple (fun link : Link => link.store = st) ((editor faults e o table).send s)
      (fun _ link => st.exec (Identifier.catalogName e table) s = some link.store)
      (fun error _ => error.Ordinary) := by
  have executed : Triple (fun link : Link => link.store = st) ((editor faults e o table).cursor.execute s)
      (fun _ (link : Link) => st.exec (Identifier.catalogName e table) s = some link.store)
      (fun error _ => error.classify.Ordinary) := execute_triple hs _
  unfold Editor.send
  split
  · have committed : ∀ link : Link, st.exec (Identifier.catalogName e table) s = some link.store →
        Action.Ends (fun _ link => st.exec (Identifier.catalogName e table) s = some link.store)
          (fun error _ => error.classify.Ordinary) ((editor faults e o table).cursor.commit link) := by
      refine call_triple (fun _ _ h => h) (fun _ h => Action.ends_ok.mpr h) ?_
      rintro _ _ ⟨_, fault, _, rfl⟩ _
      exact ordinary_classified fault
    refine Cursor.executeCommitted_triple executed committed fun error => ?_
    exact Cursor.abandon_triple fun _ h => Action.ends_always.mpr h
  · exact Cursor.executeClassified_triple executed

/-- A statement changes the store, or it is refused, fails or lacks values. -/
theorem run_has {s : Statement} (hs : ∀ q, s ≠ .catalog q) :
    Triple (Has table st) ((editor faults e o table).run table s)
      (fun _ x => ∃ st', st.exec (Identifier.catalogName e table) s = some st' ∧ Has table st' x)
      (fun error _ => error.Ordinary) := by
  have sent : Triple (Has table st) (Editor.onLink ((editor faults e o table).send s))
      (fun _ x => st.exec (Identifier.catalogName e table) s = some x.base.link.store)
      (fun error _ => error.Ordinary) :=
    onLink_triple (send_triple hs) (fun _ => Has.store) fun _ _ _ _ h => h
  have executed : Triple (Has table st) ((editor faults e o table).execute s)
      (fun _ x => st.exec (Identifier.catalogName e table) s = some x.base.link.store)
      (fun error _ => error.Ordinary) := by
    unfold Editor.execute Fragment.validate
    split
    · exact Triple.bind (R := fun _ => Has table st) (Triple.pure fun _ h => h) fun _ => sent
    · exact fun _ _ => Action.ends_error.mpr ⟨fun _ h => (by cases h), rfl⟩
  refine executed.attempt.unfailing.bind fun r => ?_
  intro x h
  cases r with
  | ok _ => exact Action.ends_ok.mpr ⟨x.base.link.store, h.of_ok _ _ rfl, rfl, described_of_invalidated _⟩
  | error error => exact Action.ends_error.mpr (h.of_error _ _ rfl)

/-- What is remembered or read of the table describes the store. -/
theorem constraints_has (hp : st.Proper e) :
    Triple (Has table st) (Editor.onBase (Catalog.Cached.constraints (editor faults e o table).cursor e table))
      (fun cs x => cs = st.described ∧ Has table st x) (fun error _ => Lost faults error) := by
  intro x hx
  rw [Editor.onBase, Action.within_apply]
  cases hc : x.base.cache.constraints? table with
  | some cs =>
    rw [Catalog.Cached.constraints_hit _ _ _ _ hc]
    exact Action.ends_ok.mpr ⟨hx.cache cs hc, hx⟩
  | none =>
    have read : Action.Ends _ _ (Catalog.readConstraints (editor faults e o table).cursor e table x.base.link) :=
      readConstraints_triple table hp x.base.link hx.store
    rw [Catalog.Cached.constraints_miss _ _ _ _ hc]
    revert read
    obtain ⟨r, link⟩ := Catalog.readConstraints (editor faults e o table).cursor e table x.base.link
    cases r with
    | error error => exact fun read => Action.ends_error.mpr (Action.ends_error.mp read)
    | ok cs =>
      intro read
      obtain ⟨rfl, hl⟩ := Action.ends_ok.mp read
      refine Action.ends_ok.mpr ⟨rfl, hl, fun cs h => ?_⟩
      rw [Catalog.Cache.constraints?_putConstraints, if_pos rfl] at h
      exact (Option.some.inj h).symm

/-- Questions about anything but the indexes have no answer. -/
theorem ask_has {q : CatalogQuery} (hq : ∀ relation, q ≠ .indexes relation) :
    Triple (Has table st) (Editor.onLink (Catalog.ask (editor faults e o table).cursor q))
      (fun rows x => rows = [] ∧ Has table st x) (fun error _ => Lost faults error) := by
  have none : st.answer (Identifier.catalogName e table) q = [] := by
    unfold answer
    split
    · exact absurd rfl (hq _)
    · rfl
  have asked : Triple (fun link : Link => link.store = st) (Catalog.ask (editor faults e o table).cursor q)
      (fun rows link => rows = st.answer (Identifier.catalogName e table) q ∧ link.store = st) _ := ask_triple q
  rw [none] at asked
  exact onLink_triple asked (fun _ => Has.store) fun _ _ _ hx h => ⟨h.1, h.2, hx.cache⟩

/-! What is found of the table -/

theorem described_eq (st : Store) :
    st.described = (st.indexes.map (·.describe)).mergeSort fun a b => !decide (b.name < a.name) := rfl

theorem mem_described {c : Catalog.Constraint} : c ∈ st.described ↔ ∃ i ∈ st.indexes, i.describe = c := by
  rw [described_eq, List.mem_mergeSort, List.mem_map]

theorem describe_injective {i j : StoredIndex} (hp : st.Proper e) (hi : i ∈ st.indexes) (hj : j ∈ st.indexes)
    (h : i.describe.name = j.describe.name) : i = j := by
  have name : i.name = j.name := (hp.indexes i hi).name.lowercase_injective (hp.indexes j hj).name h
  exact List.inj_on_of_nodup_map hp.names hi hj name

def without (st : Store) (cs : List Catalog.Constraint) : Store :=
  { st with indexes := st.indexes.filter fun i => i.describe ∉ cs }

theorem Proper.without (hp : st.Proper e) (cs : List Catalog.Constraint) : (st.without cs).Proper e := hp.filter _

theorem without_nil : st.without [] = st := by simp [without]

/-- A statement that drops what is described drops just that. -/
theorem exec_dropStatement (ht : Simple table) (hp : st.Proper e) {done : List Catalog.Constraint} {j : StoredIndex}
    (hj : j ∈ st.indexes) :
    (st.without done).exec (Identifier.catalogName e table) ((editor faults e o table).dropStatement table j.describe) =
      some (st.without (done ++ [j.describe])) := by
  have stored : ((editor faults e o table).quote j.describe.name).stored = j.name :=
    (hp.indexes j hj).name.stored_quote_lowercase
  have relation : ((editor faults e o table).quote table).stored = Identifier.catalogName e table := ht.stored_quote
  have filtered (p : StoredIndex → Prop) [DecidablePred p] (hpj : p j) :
      (st.without done).indexes.filter (fun i => ¬(i.name = j.name ∧ p i)) =
        (st.without (done ++ [j.describe])).indexes := by
    rw [Store.without, Store.without, List.filter_filter]
    refine List.filter_congr fun i hi => ?_
    have same : i.name = j.name ∧ p i ↔ i.describe = j.describe := by
      constructor
      · intro h
        rw [describe_injective hp hi hj (congrArg Text.lowercase h.1)]
      · intro h
        obtain rfl := describe_injective hp hi hj (congrArg (·.name) h)
        exact ⟨rfl, hpj⟩
    simp [same, not_or, and_comm]
  unfold Editor.dropStatement
  cases hs : j.shape with
  | primary =>
    have kind : j.describe.kind = .primaryKey := congrArg IndexShape.kind hs
    simp only [kind, exec, Statement.table?, Option.map_some, relation, if_true, change, stored,
      filtered (·.shape = .primary) hs]
    rfl
  | unique =>
    have kind : j.describe.kind = .index := congrArg IndexShape.kind hs
    simp only [kind, exec, stored, filtered (·.shape ≠ .primary) (by simp [hs])]
    rfl
  | plain =>
    have kind : j.describe.kind = .index := congrArg IndexShape.kind hs
    simp only [kind, exec, stored, filtered (·.shape ≠ .primary) (by simp [hs])]
    rfl

/-- Whatever is found of the table can be dropped, after others of its constraints. -/
theorem dropConstraint_has (ht : Simple table) (hp : st.Proper e) {c : Catalog.Constraint} (hc : c ∈ st.described)
    (done : List Catalog.Constraint) :
    Triple (Has table (st.without done)) ((editor faults e o table).dropConstraint table c)
      (fun _ => Has table (st.without (done ++ [c]))) (fun error _ => error.Ordinary) := by
  obtain ⟨j, hj, rfl⟩ := mem_described.mp hc
  have dropped : (st.without done).exec _ ((editor faults e o table).dropStatement table j.describe) = _ :=
    exec_dropStatement ht hp hj
  have question : ∀ q, (editor faults e o table).dropStatement table j.describe ≠ .catalog q := by
    intro q h
    unfold Editor.dropStatement at h
    split at h <;> exact absurd h (by simp)
  refine (run_has question).weaken (fun _ => id) ?_ fun _ _ => id
  rintro - x ⟨st', hst, hx⟩
  obtain rfl := Option.some.inj (dropped.symm.trans hst)
  exact hx

theorem forEach_drop (ht : Simple table) (hp : st.Proper e) {found : List Catalog.Constraint}
    (hf : ∀ c ∈ found, c ∈ st.described) (done : List Catalog.Constraint) :
    Triple (Has table (st.without done)) (Action.forEach ((editor faults e o table).dropConstraint table) found)
      (fun _ => Has table (st.without (done ++ found))) (fun error _ => error.Ordinary) := by
  induction found generalizing done with
  | nil =>
    rw [List.append_nil]
    exact Triple.pure fun _ h => h
  | cons c found ih =>
    rw [List.append_cons]
    refine (dropConstraint_has ht hp (hf c List.mem_cons_self) done).bind fun _ => ?_
    exact ih (fun c hm => hf c (List.mem_cons_of_mem _ hm)) (done ++ [c])

theorem constraintsWhere_has (hp : st.Proper e) (p : Catalog.Constraint → Bool) :
    Triple (Has table st) ((editor faults e o table).constraintsWhere table p)
      (fun found x => found = st.described.filter p ∧ Has table st x) (fun error _ => Lost faults error) := by
  refine Triple.bind (constraints_has hp) fun cs => ?_
  exact Triple.pure fun x h => ⟨by rw [h.1], h.2⟩

/-! The indexes over a column -/

/-- The editor is over a store that has the column, with indexes of these shapes over it. -/
def At (e : Engine) (table column : String) (shapes : List IndexShape) (x : Editor.State Link) : Prop :=
  ∃ st : Store, st.Proper e ∧ column ∈ st.columns ∧ st.onColumn column = shapes ∧ Has table st x

variable {column : String} {shapes : List IndexShape}

theorem onColumn_without {p : Catalog.Constraint → Bool} {r : IndexShape → Bool}
    (h : ∀ i ∈ st.indexes, i.columns = [column] → p i.describe = r i.shape) :
    (st.without (st.described.filter p)).onColumn column = (st.onColumn column).filter (!r ·) := by
  rw [onColumn, onColumn, Store.without, List.filter_filter, List.filter_map, List.filter_filter]
  refine congrArg (List.map _) (List.filter_congr fun i hi => ?_)
  by_cases hc : i.columns = [column]
  · have found : i.describe ∈ st.described.filter p ↔ r i.shape = true := by
      rw [List.mem_filter, h i hi hc]
      exact and_iff_right (mem_described.mpr ⟨i, hi, rfl⟩)
    simp [hc, found]
  · simp [hc]

/-- Dropping what a condition selects drops those over a column whose shapes it selects. -/
theorem dropFound_at (ht : Simple table) {p : Catalog.Constraint → Bool} {r : IndexShape → Bool}
    (h : ∀ i : StoredIndex, i.Proper e → i.columns = [column] → p i.describe = r i.shape) (hp : st.Proper e)
    (hc : column ∈ st.columns) (hs : st.onColumn column = shapes) :
    Triple (Has table st)
      (Action.forEach ((editor faults e o table).dropConstraint table) (st.described.filter p))
      (fun _ => At e table column (shapes.filter (!r ·))) (fun error _ => error.Ordinary) := by
  have member : ∀ c ∈ st.described.filter p, c ∈ st.described := fun c hm => (List.mem_filter.mp hm).1
  have dropped : Triple (Has table (st.without [])) (Action.forEach ((editor faults e o table).dropConstraint table) _)
      (fun _ => Has table (st.without ([] ++ _))) _ := forEach_drop ht hp member []
  rw [without_nil, List.nil_append] at dropped
  refine dropped.weaken (fun _ => id) (fun _ x hx => ?_) fun _ _ => id
  refine ⟨st.without _, hp.without _, hc, ?_, hx⟩
  rw [onColumn_without fun i hi => h i (hp.indexes i hi), hs]

theorem dropWhere_at (ht : Simple table) {p : Catalog.Constraint → Bool} {r : IndexShape → Bool}
    (h : ∀ i : StoredIndex, i.Proper e → i.columns = [column] → p i.describe = r i.shape) :
    Triple (At e table column shapes) ((editor faults e o table).dropWhere table p)
      (fun _ => At e table column (shapes.filter (!r ·))) (fun error _ => error.Ordinary) := by
  rintro x ⟨st, hp, hc, hs, hx⟩
  refine Triple.bind (ordinary_of_lost (constraintsWhere_has hp p))
    (fun found => ?_) x hx
  rintro x ⟨rfl, hx⟩
  exact dropFound_at ht h hp hc hs x hx

theorem covers_describe {i : StoredIndex} (hi : i.Proper e) {name : String} (hn : Simple name)
    (hl : name.toList.length ≤ e.identifierLimit) :
    i.describe.covers [name] = decide (i.columns = [Identifier.catalogName e name]) := by
  obtain ⟨c, columns, hc⟩ := List.exists_cons_of_ne_nil hi.nonempty
  cases columns with
  | nil =>
    have canonical := hi.columns c (by simp [hc])
    rw [Bool.eq_iff_iff]
    simpa [Catalog.Constraint.covers, Catalog.Constraint.sameColumn, StoredIndex.describe, StoredIndex.describeUpTo,
      hc] using
      canonical.sameAsciiLetters_iff hn hl
  | cons d columns => simp [Catalog.Constraint.covers, StoredIndex.describe, StoredIndex.describeUpTo, hc]

def shapeOf (unique : Bool) : IndexShape := if unique then .unique else .plain

section Named

variable {name : String} (hn : Simple name) (hl : name.toList.length ≤ e.identifierLimit)
variable {i : StoredIndex} (hi : i.Proper e) (hc : i.columns = [Identifier.catalogName e name])

include hn hl hi hc

theorem covers_of_over : i.describe.covers [name] = true := by
  rw [covers_describe hi hn hl, hc]
  exact decide_eq_true rfl

theorem isIndexOver_describe (unique : Bool) :
    Editor.isIndexOver [name] unique i.describe = decide (i.shape = shapeOf unique) := by
  have unique? : i.describe.unique = i.shape.isUnique := rfl
  have kind : i.describe.kind = i.shape.kind := rfl
  rw [Editor.isIndexOver, covers_of_over hn hl hi hc, kind, unique?]
  cases i.shape <;> cases unique <;> decide

theorem isPrimaryKeyOver_describe :
    Editor.isPrimaryKeyOver name i.describe = decide (i.shape = .primary) := by
  have kind : i.describe.kind = i.shape.kind := rfl
  rw [Editor.isPrimaryKeyOver, covers_of_over hn hl hi hc, kind]
  cases i.shape <;> decide

omit hn hl hi hc in
theorem isForeignKeyOver_describe (name : String) (i : StoredIndex) :
    Editor.isForeignKeyOver name i.describe = false := by
  have kind : i.describe.kind = i.shape.kind := rfl
  rw [Editor.isForeignKeyOver, kind]
  cases i.shape <;> rfl

omit hn hl hi hc in
theorem isCheckOn_describe (name : String) (i : StoredIndex) : Editor.isCheckOn name i.describe = false := by
  have kind : i.describe.kind = i.shape.kind := rfl
  rw [Editor.isCheckOn, kind]
  cases i.shape <;> rfl

end Named

section OverColumn

variable {name : String} (ht : Simple table) (hn : Simple name) (hl : name.toList.length ≤ e.identifierLimit)

include ht hn hl

omit ht in
theorem found_isEmpty_iff (hp : st.Proper e) (unique : Bool) :
    (st.described.filter (Editor.isIndexOver [name] unique)).isEmpty = true ↔
      shapeOf unique ∉ st.onColumn (Identifier.catalogName e name) := by
  rw [List.isEmpty_iff, List.filter_eq_nil_iff]
  constructor
  · intro h hm
    obtain ⟨i, hi, hshape⟩ := List.mem_map.mp hm
    obtain ⟨hi, hc⟩ := List.mem_filter.mp hi
    refine h i.describe (mem_described.mpr ⟨i, hi, rfl⟩) ?_
    rw [isIndexOver_describe hn hl (hp.indexes i hi) (by simpa using hc), hshape]
    exact decide_eq_true rfl
  · intro h c hm hc
    obtain ⟨i, hi, rfl⟩ := mem_described.mp hm
    have covered : i.columns = [Identifier.catalogName e name] := by
      have := (Bool.and_eq_true_iff.mp hc).1
      rw [covers_describe (hp.indexes i hi) hn hl] at this
      exact of_decide_eq_true this
    rw [isIndexOver_describe hn hl (hp.indexes i hi) covered] at hc
    refine h (List.mem_map.mpr ⟨i, List.mem_filter.mpr ⟨hi, by simpa using covered⟩, of_decide_eq_true hc⟩)

/-- The index over a column is dropped if it is there. -/
theorem dropIndexOver_at {unique : Bool} (hs : shapeOf unique ∈ shapes) :
    Triple (At e table (Identifier.catalogName e name) shapes) ((editor faults e o table).dropIndexOver table [name] unique)
      (fun _ => At e table (Identifier.catalogName e name) (shapes.filter fun s => !decide (s = shapeOf unique)))
      (fun error _ => error.Ordinary) := by
  rintro x ⟨st, hp, hc, rfl, hx⟩
  refine Triple.bind (ordinary_of_lost (constraintsWhere_has hp _))
    (fun found => ?_) x hx
  rintro x ⟨rfl, hx⟩
  have some : (st.described.filter (Editor.isIndexOver [name] unique)).isEmpty = false := by
    rw [Bool.eq_false_iff, Ne, found_isEmpty_iff hn hl hp]
    exact fun h => h hs
  rw [if_neg (by rw [some]; exact Bool.false_ne_true)]
  exact dropFound_at ht (fun i hi hc => isIndexOver_describe hn hl hi hc unique) hp hc rfl x hx

omit ht in
/-- Where there is none, that is the error, unless a call fails before. -/
theorem dropIndexOver_missing {unique : Bool} (hs : shapeOf unique ∉ shapes) :
    Triple (At e table (Identifier.catalogName e name) shapes) ((editor faults e o table).dropIndexOver table [name] unique)
      (fun _ _ => False)
      (fun error _ => error = .catalogInconsistency (.missingIndex unique table [name]) ∨ Lost faults error) := by
  rintro x ⟨st, hp, hc, rfl, hx⟩
  refine Triple.bind ((constraintsWhere_has hp _).weaken (fun _ => id) (fun _ _ => id) fun _ _ => .inr)
    (fun found => ?_) x hx
  rintro x ⟨rfl, hx⟩
  have none : Triple (Has table st) (Editor.onLink (Catalog.expressionIndex? (editor faults e o table).cursor e table
      (e.hashSource [name])) : Edit Link _) (fun name? _ => name? = none)
      (fun error _ => error = .catalogInconsistency (.missingIndex unique table [name]) ∨ Lost faults error) := by
    rw [Catalog.expressionIndex?, Editor.onLink_bind]
    refine Triple.bind ((ask_has fun _ h => by cases h).weaken (fun _ => id) (fun _ _ => id) fun _ _ => .inr) fun rows => ?_
    rintro x ⟨rfl, hx⟩
    exact Action.ends_ok.mpr rfl
  rw [if_pos ((found_isEmpty_iff hn hl hp unique).mpr hs)]
  refine Triple.bind none (fun name? => ?_) x hx
  rintro x rfl
  exact Action.ends_error.mpr (.inl rfl)

end OverColumn

end Store

end FirebirdSql
