import FirebirdSql.Catalog.Reader
import FirebirdSql.Proofs.Index.Store
import FirebirdSql.Proofs.Triple

/-!
What the catalog says of a store is read back as one description for each index, with its columns in order.
-/

namespace FirebirdSql

open Action (Triple)
open Identifier (Canonical)

namespace IndexShape

def kind : IndexShape → ConstraintKind
  | .primary => .primaryKey
  | _ => .index

def isUnique (s : IndexShape) : Bool := s != .plain

end IndexShape

namespace StoredIndex

open Catalog

/-- The index with only some of its columns, as it is read. -/
def describeUpTo (i : StoredIndex) (columns : List String) : Constraint where
  name := Text.lowercase i.name
  kind := i.shape.kind
  columns := columns.map Text.lowercase
  referencedTable := none
  referencedColumn := none
  orders := columns.map fun _ => .ascending
  indexName := some (Text.lowercase i.name)
  unique := i.shape.isUnique
  expression := none
  checkSource := none

def describe (i : StoredIndex) : Constraint := i.describeUpTo i.columns

/-- Its names are in the form in which they are stored, and it has columns, all of them different. -/
structure Proper (e : Engine) (i : StoredIndex) : Prop where
  name : Canonical e i.name
  columns : ∀ c ∈ i.columns, Canonical e c
  nonempty : i.columns ≠ []
  nodup : i.columns.Nodup

variable {e : Engine} {i : StoredIndex} {column : String} {cs : List Constraint}

theorem getName_text {n : String} (h : Canonical e n) (values : List Value) (k : Nat) (hk : values[k]? = some (.text n)) :
    (Row.mk values).getName k = .ok n := by
  rw [Row.getName, Row.get, hk]
  exact congrArg Except.ok h.trimmed

theorem getName?_text {n : String} (h : Canonical e n) (values : List Value) (k : Nat)
    (hk : values[k]? = some (.text n)) : (Row.mk values).getName? k = .ok (some n) := by
  have trimmed : (some (Text.trimmed n)).filter (· != "") = some n := by
    rw [h.trimmed]
    simp [h.ne_empty]
  rw [Row.getName?, Row.get, hk]
  exact congrArg Except.ok trimmed

/-- A row adds its column to the description of the index, unless it is there. -/
theorem addColumn_row (hc : Canonical e column) (c : Constraint)
    (hn : c.columns.contains (Text.lowercase column) = false) :
    c.addColumn (i.row column) =
      .ok { c with columns := c.columns ++ [Text.lowercase column], orders := c.orders ++ [.ascending] } := by
  have name : (i.row column).getName? 3 = .ok (some column) := getName?_text hc _ 3 rfl
  have order : Constraint.optionalInt (i.row column) 5 = .ok (some 0) := rfl
  rw [Constraint.addColumn, name]
  simp only [bind, Except.bind, Option.map_some, hn, Bool.false_eq_true, if_false, order]
  rfl

theorem addIndexFacts_row (hs : i.shape ≠ .primary) (c : Constraint) :
    c.addIndexFacts (i.row column) = .ok { c with unique := i.shape.isUnique, expression := none } := by
  have expression : (i.row column).getName? 8 = .ok none := rfl
  have unique : Constraint.optionalInt (i.row column) 4 = .ok (some (if i.shape = .plain then 0 else 1)) := by
    cases h : i.shape with
    | primary => exact absurd h hs
    | unique => simp only [row, h]; rfl
    | plain => simp only [row, h]; rfl
  rw [Constraint.addIndexFacts, unique]
  simp only [bind, Except.bind, expression]
  cases h : i.shape with
  | primary => exact absurd h hs
  | unique => rfl
  | plain => rfl

theorem add_row (hc : Canonical e column) (c : Constraint) (hn : c.columns.contains (Text.lowercase column) = false) :
    c.add i.shape.kind (i.row column) = .ok { c with
      unique := if i.shape = .primary then c.unique else i.shape.isUnique
      expression := if i.shape = .primary then c.expression else none
      columns := c.columns ++ [Text.lowercase column]
      orders := c.orders ++ [.ascending] } := by
  unfold Constraint.add
  by_cases hs : i.shape = .primary
  · have column := addColumn_row (i := i) hc c hn
    simp only [hs, IndexShape.kind, if_true] at column ⊢
    simp [bind, Except.bind, pure, Except.pure, column]
  · have kind : i.shape.kind = .index := by cases h : i.shape <;> simp_all [IndexShape.kind]
    have column := addColumn_row (i := i) hc { c with unique := i.shape.isUnique, expression := none } hn
    simp [kind, hs, addIndexFacts_row hs, bind, Except.bind, pure, Except.pure, column]

def blank (i : StoredIndex) : Constraint :=
  { Constraint.empty (Text.lowercase i.name) i.shape.kind with indexName := some (Text.lowercase i.name) }

/-- A row changes what is known of its index, or starts with a blank description. -/
theorem addRow_row (hi : Canonical e i.name) (cs : List Constraint) :
    Constraints.addRow cs (i.row column) = do
      let c ← ((Constraints.find? cs (Text.lowercase i.name)).getD i.blank).add i.shape.kind (i.row column)
      return Constraints.put cs c := by
  have index : (i.row column).getName 2 = .ok i.name := getName_text hi _ 2 rfl
  unfold Constraints.addRow
  rw [index]
  cases h : i.shape with
  | primary =>
    have type : (i.row column).getName? 1 = .ok (some "PRIMARY KEY") := by
      simp only [row, h]
      rfl
    have name : (i.row column).getName? 0 = .ok (some i.name) := by
      refine getName?_text hi _ 0 ?_
      simp [h]
    simp [bind, Except.bind, type, name, ConstraintKind.ofCatalog?, blank, IndexShape.kind, h]
  | _ =>
    have type : (i.row column).getName? 1 = .ok none := by
      simp only [row, h]
      rfl
    have name : (i.row column).getName? 0 = .ok none := by
      simp only [row, h]
      rfl
    simp [bind, Except.bind, type, name, blank, IndexShape.kind, h]

theorem find?_of_notMem {n : String} (h : n ∉ cs.map (·.name)) : Constraints.find? cs n = none := by
  rw [Constraints.find?, List.find?_eq_none]
  intro c hc hn
  exact h (List.mem_map.mpr ⟨c, hc, by simpa using hn⟩)

theorem find?_append {c : Constraint} (h : c.name ∉ cs.map (·.name)) : Constraints.find? (cs ++ [c]) c.name = some c := by
  have none := find?_of_notMem h
  rw [Constraints.find?] at none ⊢
  simp [List.find?_append, none]

theorem put_of_notMem {c : Constraint} (h : c.name ∉ cs.map (·.name)) : Constraints.put cs c = cs ++ [c] := by
  induction cs with
  | nil => rfl
  | cons d cs ih =>
    simp only [List.map_cons, List.mem_cons, not_or] at h
    rw [Constraints.put, if_neg (Ne.symm h.1), ih h.2]
    rfl

theorem put_append {c d : Constraint} (h : c.name ∉ cs.map (·.name)) (hd : d.name = c.name) :
    Constraints.put (cs ++ [c]) d = cs ++ [d] := by
  induction cs with
  | nil => simp [Constraints.put, hd]
  | cons b cs ih =>
    simp only [List.map_cons, List.mem_cons, not_or] at h
    rw [List.cons_append, Constraints.put, hd, if_neg (Ne.symm h.1), ih h.2]
    rfl

theorem notMem_lowercase {done : List String} (hc : Canonical e column) (hd : ∀ c ∈ done, Canonical e c)
    (hn : column ∉ done) : (done.map Text.lowercase).contains (Text.lowercase column) = false := by
  simp only [List.contains_eq_mem, decide_eq_false_iff_not, List.mem_map, not_exists, not_and]
  intro d hm he
  exact hn (hc.lowercase_injective (hd d hm) he.symm ▸ hm)

theorem addRow_first (hi : Canonical e i.name) (hc : Canonical e column)
    (hn : Text.lowercase i.name ∉ cs.map (·.name)) :
    Constraints.addRow cs (i.row column) = .ok (cs ++ [i.describeUpTo [column]]) := by
  rw [addRow_row hi, find?_of_notMem hn, Option.getD_none, add_row hc i.blank rfl]
  simp only [bind, Except.bind]
  rw [put_of_notMem (by exact hn)]
  cases h : i.shape <;> simp [describeUpTo, blank, Constraint.empty, h, IndexShape.kind, IndexShape.isUnique] <;> rfl

theorem addRow_next {done : List String} (hi : Canonical e i.name) (hc : Canonical e column)
    (hn : Text.lowercase i.name ∉ cs.map (·.name)) (hd : ∀ c ∈ done, Canonical e c) (hcd : column ∉ done) :
    Constraints.addRow (cs ++ [i.describeUpTo done]) (i.row column) =
      .ok (cs ++ [i.describeUpTo (done ++ [column])]) := by
  have found := find?_append (c := i.describeUpTo done) hn
  change Constraints.find? _ (Text.lowercase i.name) = _ at found
  rw [addRow_row hi, found, Option.getD_some, add_row hc _ (notMem_lowercase hc hd hcd)]
  simp only [bind, Except.bind]
  rw [put_append (c := i.describeUpTo done) hn (by rfl)]
  cases h : i.shape <;> simp [describeUpTo, h, IndexShape.isUnique] <;> rfl

theorem rows_more (done : List String) {columns : List String} (hi : Canonical e i.name)
    (hn : Text.lowercase i.name ∉ cs.map (·.name))
    (hc : ∀ c ∈ done ++ columns, Canonical e c) (hnodup : (done ++ columns).Nodup) :
    (columns.map i.row).foldlM Constraints.addRow (cs ++ [i.describeUpTo done]) =
      .ok (cs ++ [i.describeUpTo (done ++ columns)]) := by
  induction columns generalizing done with
  | nil => simp; rfl
  | cons column columns ih =>
    have hcd : column ∉ done := fun h => (List.nodup_append.mp hnodup).2.2 column h column List.mem_cons_self rfl
    have next := addRow_next hi (hc column (by simp)) hn (fun c hm => hc c (List.mem_append_left _ hm)) hcd
    have split : done ++ column :: columns = done ++ [column] ++ columns := List.append_cons ..
    rw [split] at hc hnodup ⊢
    rw [List.map_cons, List.foldlM_cons, next]
    exact ih (done ++ [column]) hc hnodup

theorem rows_read (h : i.Proper e) (hn : Text.lowercase i.name ∉ cs.map (·.name)) :
    i.rows.foldlM Constraints.addRow cs = .ok (cs ++ [i.describe]) := by
  obtain ⟨column, columns, hc⟩ := List.exists_cons_of_ne_nil h.nonempty
  have canonical := h.columns
  have nodup := h.nodup
  rw [hc] at canonical nodup
  rw [rows, hc, List.map_cons, List.foldlM_cons, addRow_first h.name (canonical column List.mem_cons_self) hn,
    describe, hc]
  exact rows_more [column] h.name hn canonical nodup

end StoredIndex

namespace Store

open Catalog

/-- Names and columns are in the form in which they are stored, and there is at most one primary key. -/
structure Proper (e : Engine) (st : Store) : Prop where
  indexes : ∀ i ∈ st.indexes, i.Proper e
  columns : ∀ c ∈ st.columns, Canonical e c
  names : (st.indexes.map (·.name)).Nodup
  covered : ∀ i ∈ st.indexes, ∀ c ∈ i.columns, c ∈ st.columns
  primary : (st.indexes.filter (·.shape = .primary)).length ≤ 1

variable {e : Engine} {st : Store}

theorem foldlM_rows (prior : List StoredIndex) {indexes : List StoredIndex} (hi : ∀ i ∈ prior ++ indexes, i.Proper e)
    (hn : ((prior ++ indexes).map (·.name)).Nodup) :
    (indexes.flatMap (·.rows)).foldlM Constraints.addRow (prior.map (·.describe)) =
      .ok ((prior ++ indexes).map (·.describe)) := by
  induction indexes generalizing prior with
  | nil => simp; rfl
  | cons i indexes ih =>
    have fresh : Text.lowercase i.name ∉ (prior.map (·.describe)).map (·.name) := by
      intro hm
      simp only [List.map_map, List.mem_map, Function.comp_apply] at hm
      obtain ⟨j, hj, he⟩ := hm
      have same := (hi j (by simp [hj])).name.lowercase_injective (hi i (by simp)).name he
      rw [List.map_append] at hn
      exact (List.nodup_append.mp hn).2.2 j.name (List.mem_map_of_mem hj) i.name (by simp) same
    have split : prior ++ i :: indexes = prior ++ [i] ++ indexes := List.append_cons ..
    have read := StoredIndex.rows_read (hi i (by simp)) fresh
    rw [split] at hi hn ⊢
    rw [List.flatMap_cons, List.foldlM_append, read]
    have rest := ih (prior ++ [i]) hi hn
    rw [List.map_append] at rest
    exact rest

theorem ofIndexRows_rows (h : st.Proper e) :
    Constraints.ofIndexRows (st.indexes.flatMap (·.rows)) = .ok (st.indexes.map (·.describe)) :=
  foldlM_rows [] h.indexes h.names

def described (st : Store) : List Constraint := Constraints.merge (st.indexes.map (·.describe)) []

/-- A call fails by a fault only. -/
def Lost (faults : Faults) (error : Error) : Prop := ∃ n fault, faults n = some fault ∧ error = .database fault.report

variable {faults : Faults} {relation : String}

theorem call_triple {P : Link → Prop} {x : Action Link α} {Q : α → Link → Prop} {E : Error → Link → Prop}
    (hp : ∀ link n, P link → P { link with calls := n }) (hx : Triple P x Q E)
    (he : ∀ error link, Lost faults error → P link → E error link) : Triple P (call faults x) Q E := by
  intro link hl
  unfold call
  split
  · next fault h => exact Action.ends_error.mpr (he _ _ ⟨_, fault, h, rfl⟩ (hp link _ hl))
  · exact hx _ (hp link _ hl)

theorem ask_triple (q : CatalogQuery) :
    Triple (fun link : Link => link.store = st) (ask (cursor faults relation) q)
      (fun rows link => rows = st.answer relation q ∧ link.store = st) (fun error _ => Lost faults error) := by
  refine Triple.bind (R := fun _ link => link.rows = st.answer relation q ∧ link.store = st) ?_ fun _ => ?_
  · refine call_triple (fun _ _ h => h) (fun link h => ?_) fun _ _ h _ => h
    subst h
    exact Action.ends_ok.mpr ⟨rfl, rfl⟩
  · exact call_triple (fun _ _ h => h) (fun _ h => Action.ends_ok.mpr h) fun _ _ h _ => h

/-- What is read of the table describes its indexes. -/
theorem readConstraints_triple (table : String) (h : st.Proper e) :
    Triple (fun link : Link => link.store = st)
      (readConstraints (cursor faults (Identifier.catalogName e table)) e table)
      (fun cs link => cs = st.described ∧ link.store = st) (fun error _ => Lost faults error) := by
  refine (ask_triple _).bind fun rows => ?_
  rintro link ⟨rfl, hl⟩
  have read : Constraints.ofIndexRows (st.answer _ (.indexes (Identifier.catalogName e table))) = _ :=
    (congrArg _ (if_pos rfl)).trans (ofIndexRows_rows h)
  rw [read]
  refine Triple.bind (R := fun cs link => cs = st.indexes.map (·.describe) ∧ link.store = st)
    (fun link hl => Action.ends_ok.mpr ⟨rfl, hl⟩) (fun constraints => ?_) link hl
  rintro link ⟨rfl, hl⟩
  refine Triple.bind (ask_triple _) (fun rows => ?_) link hl
  rintro link ⟨rfl, hl⟩
  exact Action.ends_ok.mpr ⟨rfl, hl⟩

end Store

end FirebirdSql
