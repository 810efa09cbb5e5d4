import FirebirdSql.Proofs.Catalog.Checks

/-!
The indexes and the checks of a table as the catalog lists them. An index that belongs to a key is read back as that
key, and one that is computed by an expression as an index without columns.
-/

namespace FirebirdSql

open Catalog
open Identifier (Canonical)
open StoredIndex (getName_text getName?_text find?_append find?_of_notMem put_append put_of_notMem)

/-- The constraints that have an index. -/
inductive IndexOwner where
  | primaryKey
  | unique
  | foreignKey
  deriving DecidableEq

namespace IndexOwner

def kind : IndexOwner → ConstraintKind
  | .primaryKey => .primaryKey
  | .unique => .unique
  | .foreignKey => .foreignKey

/-- The type in the catalog. -/
def type : IndexOwner → String
  | .primaryKey => "PRIMARY KEY"
  | .unique => "UNIQUE"
  | .foreignKey => "FOREIGN KEY"

end IndexOwner

structure Segment where
  column : String
  /-- The table and the column that it references. -/
  reference : Option (String × String)
  deriving DecidableEq

inductive IndexKey where
  | segments (segments : List Segment)
  | expression (source : String)
  deriving DecidableEq

structure ListedIndex where
  name : String
  /-- The constraint that it belongs to, by its name. -/
  owner : Option (IndexOwner × String)
  unique : Bool
  descending : Bool
  key : IndexKey
  deriving DecidableEq

namespace ListedIndex

def segments (i : ListedIndex) : List Segment :=
  match i.key with
  | .segments segments => segments
  | .expression _ => []

def columns (i : ListedIndex) : List String := i.segments.map (·.column)

def expression? (i : ListedIndex) : Option String :=
  match i.key with
  | .segments _ => none
  | .expression source => some source

/-- The name by which it is dropped: that of its constraint, if it has one. -/
def title (i : ListedIndex) : String := i.owner.elim i.name (·.2)

def kind (i : ListedIndex) : ConstraintKind := i.owner.elim .index (·.1.kind)

def text? (s : Option String) : Value := s.elim .null .text

def flag (b : Bool) : Value := .int (if b then 1 else 0)

/-- The row of a segment, or of an expression. -/
def row (i : ListedIndex) (s : Option Segment) : Row :=
  ⟨[text? (i.owner.map (·.2)), text? (i.owner.map (·.1.type)), .text i.name, text? (s.map (·.column)), flag i.unique,
    flag i.descending, text? (s.bind (·.reference.map (·.1))), text? (s.bind (·.reference.map (·.2))),
    text? i.expression?]⟩

def rows (i : ListedIndex) : List Row :=
  match i.key with
  | .segments segments => segments.map fun s => i.row (some s)
  | .expression _ => [i.row none]

/-- What is known of it before its first row. -/
def blank (i : ListedIndex) : Constraint :=
  { Constraint.empty (Text.lowercase i.title) i.kind with indexName := some (Text.lowercase i.name) }

/-- The names are in the form in which they are stored. It has an expression or columns, all of them different. -/
structure Proper (e : Engine) (i : ListedIndex) : Prop where
  name : Canonical e i.name
  title : Canonical e i.title
  columns : ∀ c ∈ i.columns, Canonical e c
  nodup : i.columns.Nodup
  nonempty : i.columns ≠ [] ∨ i.expression? ≠ none

variable {e : Engine} {i : ListedIndex} {cs : List Constraint} {c : Constraint} {s : Option Segment}

/-! Reading a row -/

theorem getName?_text? (values : List Value) (k : Nat) (t : Option String) (hk : values[k]? = some (text? t)) :
    ∃ name, (Row.mk values).getName? k = .ok name := by
  rw [Row.getName?, Row.get, hk]
  cases t <;> exact ⟨_, rfl⟩

theorem optionalInt_flag (values : List Value) (k : Nat) (b : Bool) (hk : values[k]? = some (flag b)) :
    Constraint.optionalInt (Row.mk values) k = .ok (some (if b then 1 else 0)) := by
  rw [Constraint.optionalInt, Row.get, hk]
  cases b <;> rfl

theorem getName?_column (hc : ∀ t ∈ s, Canonical e t.column) : (i.row s).getName? 3 = .ok (s.map (·.column)) := by
  cases s with
  | none => rfl
  | some t => exact getName?_text (hc t rfl) _ 3 rfl

/-- A description that says more: it has further columns, and it tells whether the index is unique. -/
structure Grows (c c' : Constraint) (columns : List String) (unique : Bool) : Prop where
  name : c'.name = c.name
  kind : c'.kind = c.kind
  columns : c'.columns = c.columns ++ columns.map Text.lowercase
  unique : c'.unique = unique

theorem addIndexFacts_row (i : ListedIndex) (s : Option Segment) (c : Constraint) :
    ∃ c', c.addIndexFacts (i.row s) = .ok c' ∧ Grows c c' [] i.unique := by
  obtain ⟨expression, read⟩ := getName?_text? (i.row s).values 8 i.expression? rfl
  refine ⟨{ c with unique := i.unique, expression := expression }, ?_, rfl, rfl, (List.append_nil _).symm, rfl⟩
  have unique : Constraint.optionalInt (i.row s) 4 = _ := optionalInt_flag (i.row s).values 4 i.unique rfl
  rw [Constraint.addIndexFacts, unique]
  change (do let expression ← (i.row s).getName? 8; _) = _
  rw [show (i.row s).getName? 8 = _ from read]
  cases i.unique <;> rfl

theorem addColumn_row (hc : ∀ t ∈ s, Canonical e t.column) (hn : ∀ t ∈ s, Text.lowercase t.column ∉ c.columns) :
    ∃ c', c.addColumn (i.row s) = .ok c' ∧ Grows c c' (s.map (·.column)).toList c.unique := by
  rw [Constraint.addColumn, getName?_column hc]
  cases s with
  | none => exact ⟨c, rfl, rfl, rfl, (List.append_nil _).symm, rfl⟩
  | some t =>
    have absent : c.columns.contains (Text.lowercase t.column) = false := by simpa using hn t rfl
    have order : Constraint.optionalInt (i.row (some t)) 5 = _ := optionalInt_flag (i.row (some t)).values 5 i.descending rfl
    simp only [bind, Except.bind, Option.map_some, absent, order]
    exact ⟨_, rfl, rfl, rfl, rfl, rfl⟩

theorem addReference_row (i : ListedIndex) (s : Option Segment) (c : Constraint) :
    ∃ c', c.addReference (i.row s) = .ok c' ∧ Grows c c' [] c.unique := by
  obtain ⟨table, readTable⟩ := getName?_text? (i.row s).values 6 _ rfl
  obtain ⟨column, readColumn⟩ := getName?_text? (i.row s).values 7 _ rfl
  refine ⟨{ c with
    referencedTable := table.map Text.lowercase
    referencedColumn := column.map Text.lowercase }, ?_, rfl, rfl, (List.append_nil _).symm, rfl⟩
  rw [Constraint.addReference, show (i.row s).getName? 6 = _ from readTable]
  change (do let column ← (i.row s).getName? 7; _) = _
  rw [show (i.row s).getName? 7 = _ from readColumn]
  rfl

theorem Grows.trans {c' c'' : Constraint} {columns columns' : List String} {unique unique' : Bool}
    (h : Grows c c' columns unique) (h' : Grows c' c'' columns' unique') : Grows c c'' (columns ++ columns') unique' :=
  ⟨h'.name.trans h.name, h'.kind.trans h.kind, by rw [h'.columns, h.columns, List.map_append, List.append_assoc], h'.unique⟩

/-- A row adds its column to what is known of the index. -/
theorem add_row (hc : ∀ t ∈ s, Canonical e t.column) (hn : ∀ t ∈ s, Text.lowercase t.column ∉ c.columns) :
    ∃ c', c.add i.kind (i.row s) = .ok c' ∧
      Grows c c' (s.map (·.column)).toList (if i.kind = .index then i.unique else c.unique) := by
  unfold Constraint.add
  obtain ⟨facts, hf, grows⟩ := addIndexFacts_row i s c
  by_cases hk : i.kind = .index
  · obtain ⟨c', hc', grows'⟩ := addColumn_row (c := facts) (i := i) hc (by
      intro t ht
      rw [grows.columns, List.map_nil, List.append_nil]
      exact hn t ht)
    refine ⟨c', ?_, ?_⟩
    · rw [if_pos hk, hf]
      change (do let c ← facts.addColumn (i.row s); _) = _
      rw [hc', hk]
      rfl
    · have whole := grows.trans grows'
      rw [List.nil_append, grows.unique] at whole
      rwa [if_pos hk]
  · obtain ⟨c', hc', grows'⟩ := addColumn_row (i := i) hc hn
    rw [if_neg hk, if_neg hk, pure_bind]
    simp only [bind, Except.bind, hc']
    split
    · obtain ⟨d, hd, last⟩ := addReference_row i s c'
      have whole := grows'.trans last
      rw [List.append_nil, grows'.unique] at whole
      exact ⟨d, hd, whole⟩
    · exact ⟨c', rfl, grows'⟩

/-! Reading the rows of an index -/

/-- The description is one of the index with some of its columns. It tells whether a plain index is unique. -/
structure Describes (i : ListedIndex) (columns : List String) (c : Constraint) : Prop where
  name : c.name = Text.lowercase i.title
  kind : c.kind = i.kind
  columns : c.columns = columns.map Text.lowercase
  unique : i.kind = .index → c.unique = i.unique

theorem add_describes {columns : List String} (hn : c.name = Text.lowercase i.title) (hk : c.kind = i.kind)
    (hd : c.columns = columns.map Text.lowercase) (hc : ∀ column ∈ columns ++ (s.map (·.column)).toList, Canonical e column)
    (hnodup : (columns ++ (s.map (·.column)).toList).Nodup) :
    ∃ c', c.add i.kind (i.row s) = .ok c' ∧ i.Describes (columns ++ (s.map (·.column)).toList) c' := by
  have mem {t : Segment} (ht : t ∈ s) : t.column ∈ (s.map (·.column)).toList := by
    obtain rfl : s = some t := ht
    exact List.mem_singleton_self _
  obtain ⟨c', added, grows⟩ := add_row (i := i) (c := c) (s := s)
    (fun t ht => hc t.column (List.mem_append_right _ (mem ht))) (fun t ht => by
      rw [hd]
      intro hm
      obtain ⟨d, hdm, he⟩ := List.mem_map.mp hm
      have same := (hc d (List.mem_append_left _ hdm)).lowercase_injective (hc t.column (List.mem_append_right _ (mem ht))) he
      exact (List.nodup_append.mp hnodup).2.2 d hdm t.column (mem ht) same)
  refine ⟨c', added, grows.name.trans hn, grows.kind.trans hk, ?_, fun hi => ?_⟩
  · rw [grows.columns, hd, List.map_append]
  · rw [grows.unique, if_pos hi]

/-- A row changes what is known of its index, or starts with a blank description. -/
theorem addRow_row (hi : i.Proper e) (s : Option Segment) (cs : List Constraint) :
    Constraints.addRow cs (i.row s) = do
      let c ← ((Constraints.find? cs (Text.lowercase i.title)).getD i.blank).add i.kind (i.row s)
      return Constraints.put cs c := by
  have index : (i.row s).getName 2 = .ok i.name := getName_text hi.name _ 2 rfl
  have title := hi.title
  unfold Constraints.addRow
  rw [index]
  cases ho : i.owner with
  | none =>
    have type : (i.row s).getName? 1 = .ok none := by
      simp only [row, ho]
      rfl
    have name : (i.row s).getName? 0 = .ok none := by
      simp only [row, ho]
      rfl
    simp [bind, Except.bind, type, name, blank, kind, ListedIndex.title, ho]
  | some owner =>
    obtain ⟨owner, name⟩ := owner
    rw [ListedIndex.title, ho] at title
    have type : (i.row s).getName? 1 = .ok (some owner.type) := by
      cases owner <;> simp only [row, ho, Option.map_some, IndexOwner.type] <;> rfl
    have name : (i.row s).getName? 0 = .ok (some name) := getName?_text title _ 0 (by simp [ho, text?])
    have kind : ConstraintKind.ofCatalog? owner.type = some owner.kind := by cases owner <;> rfl
    simp [bind, Except.bind, type, name, kind, blank, ListedIndex.kind, ListedIndex.title, ho]

theorem addRow_next (hi : i.Proper e) {c' : Constraint} (hc : c.name = Text.lowercase i.title)
    (hn : Text.lowercase i.title ∉ cs.map (·.name)) (added : c.add i.kind (i.row s) = .ok c')
    (hc' : c'.name = Text.lowercase i.title) :
    Constraints.addRow (cs ++ [c]) (i.row s) = .ok (cs ++ [c']) := by
  have found := find?_append (hc ▸ hn)
  rw [hc] at found
  rw [addRow_row hi, found, Option.getD_some, added]
  exact congrArg Except.ok (put_append (hc ▸ hn) (hc'.trans hc.symm))

theorem addRow_first (hi : i.Proper e) {c' : Constraint} (hn : Text.lowercase i.title ∉ cs.map (·.name))
    (added : i.blank.add i.kind (i.row s) = .ok c') (hc' : c'.name = Text.lowercase i.title) :
    Constraints.addRow cs (i.row s) = .ok (cs ++ [c']) := by
  rw [addRow_row hi, find?_of_notMem hn, Option.getD_none, added]
  exact congrArg Except.ok (put_of_notMem (hc' ▸ hn))

theorem addRow_segments {columns : List String} (segments : List Segment) (hi : i.Proper e) (hd : i.Describes columns c)
    (hc : ∀ column ∈ columns ++ segments.map (·.column), Canonical e column)
    (hnodup : (columns ++ segments.map (·.column)).Nodup) :
    ∃ c', i.Describes (columns ++ segments.map (·.column)) c' ∧
      ∀ cs : List Constraint, Text.lowercase i.title ∉ cs.map (·.name) →
        (segments.map fun t => i.row (some t)).foldlM Constraints.addRow (cs ++ [c]) = .ok (cs ++ [c']) := by
  -- The segments that are read become columns: `c` describes those before, and the rest has none of them.
  induction segments generalizing columns c with
  | nil => exact ⟨c, by rwa [List.map_nil, List.append_nil], fun _ _ => rfl⟩
  | cons t segments ih =>
    have split : columns ++ (t :: segments).map (·.column) = columns ++ [t.column] ++ segments.map (·.column) :=
      List.append_cons ..
    rw [split] at hc hnodup ⊢
    obtain ⟨c', added, hd'⟩ := add_describes (s := some t) hd.name hd.kind hd.columns
      (fun column hm => hc column (List.mem_append_left _ hm)) (List.nodup_append.mp hnodup).1
    obtain ⟨c'', hd'', rest⟩ := ih hd' hc hnodup
    refine ⟨c'', hd'', fun cs hn => ?_⟩
    rw [List.map_cons, List.foldlM_cons, addRow_next hi hd.name hn added hd'.name]
    exact rest cs hn

theorem rows_described (hi : i.Proper e) : ∃ c, i.Describes i.columns c ∧
    ∀ cs : List Constraint, Text.lowercase i.title ∉ cs.map (·.name) →
      i.rows.foldlM Constraints.addRow cs = .ok (cs ++ [c]) := by
  have columns := hi.columns
  have nodup := hi.nodup
  have nonempty := hi.nonempty
  have blank : i.blank.columns = List.map Text.lowercase [] := rfl
  unfold rows
  rw [ListedIndex.columns, segments] at columns nodup nonempty ⊢
  cases hk : i.key with
  | expression source =>
    obtain ⟨c, added, hd⟩ := add_describes (e := e) (i := i) (s := none) rfl rfl blank (by simp) (by simp)
    refine ⟨c, hd, fun cs hn => ?_⟩
    dsimp only
    rw [List.foldlM_cons, addRow_first hi hn added hd.name]
    rfl
  | segments segments =>
    rw [hk] at columns nodup nonempty
    cases segments with
    | nil => simp [expression?, hk] at nonempty
    | cons t segments =>
      obtain ⟨c, added, hd⟩ := add_describes (i := i) (s := some t) rfl rfl blank
        (by simpa using columns t.column (by simp)) (by simp)
      obtain ⟨c', hd', rest⟩ := addRow_segments segments hi hd columns nodup
      refine ⟨c', hd', fun cs hn => ?_⟩
      dsimp only
      rw [List.map_cons, List.foldlM_cons, addRow_first hi hn added hd.name]
      exact rest cs hn

/-- The index as it is read. -/
def describe (i : ListedIndex) : Constraint :=
  match i.rows.foldlM Constraints.addRow [] with
  | .ok [c] => c
  | _ => i.blank

theorem describe_describes (hi : i.Proper e) : i.Describes i.columns i.describe := by
  obtain ⟨c, hd, read⟩ := rows_described hi
  rw [describe, read [] List.not_mem_nil]
  exact hd

theorem rows_read (hi : i.Proper e) (hn : Text.lowercase i.title ∉ cs.map (·.name)) :
    i.rows.foldlM Constraints.addRow cs = .ok (cs ++ [i.describe]) := by
  obtain ⟨c, -, read⟩ := rows_described hi
  rw [describe, read [] List.not_mem_nil, read cs hn]
  rfl

theorem ofIndexRows_rows {indexes : List ListedIndex} (hp : ∀ i ∈ indexes, i.Proper e)
    (hn : (indexes.map (·.title)).Nodup) :
    Constraints.ofIndexRows (indexes.flatMap (·.rows)) = .ok (indexes.map (·.describe)) := by
  have named : ∀ i ∈ indexes, i.describe.name = Text.lowercase i.title := fun i hi => (describe_describes (hp i hi)).name
  have canonical : ∀ title ∈ indexes.map (·.title), Canonical e title := by
    intro title hm
    obtain ⟨i, hi, rfl⟩ := List.mem_map.mp hm
    exact (hp i hi).title
  have titles := Identifier.nodup_lowercase canonical hn
  refine Constraints.foldlM_groups (fun i hi _ h => rows_read (hp i hi) (by rwa [named i hi] at h)) ?_
  rwa [List.map_congr_left named, ← Function.comp_def, ← List.map_map]

/-! Finding the index of an expression -/

/-- The index is computed by an expression of this normal form. -/
def computes (wanted : List Char) (i : ListedIndex) : Bool :=
  match i.expression? with
  | some source => Text.trimmed source != "" && Expression.normalize (Text.trimmed source).toList == wanted
  | none => false

/-- The rows of the indexes that are computed by expressions. -/
def expressionRows (indexes : List ListedIndex) : List Row :=
  indexes.filterMap fun i => i.expression?.map fun source => ⟨[.text i.name, .text source]⟩

theorem firstIndexBy_rows {indexes : List ListedIndex} (hp : ∀ i ∈ indexes, i.Proper e) (wanted : List Char) :
    firstIndexBy wanted (expressionRows indexes) =
      .ok ((indexes.find? (computes wanted)).map fun i => Text.lowercase i.name) := by
  induction indexes with
  | nil => rfl
  | cons i indexes ih =>
    have rest := ih fun j hj => hp j (List.mem_cons_of_mem i hj)
    rw [expressionRows, List.filterMap_cons, List.find?_cons, computes]
    cases hs : i.expression? with
    | none => exact rest
    | some source =>
      have name : (Row.mk [.text i.name, .text source]).getName 0 = .ok i.name :=
        getName_text (hp i List.mem_cons_self).name _ 0 rfl
      have read : (Row.mk [.text i.name, .text source]).getName? 1 = .ok ((some (Text.trimmed source)).filter (· != "")) := rfl
      rw [Option.map_some, firstIndexBy, read]
      cases hb : Text.trimmed source != "" with
      | false =>
        simp only [Option.filter_some, hb, Bool.false_eq_true, if_false, Bool.false_and]
        exact rest
      | true =>
        simp only [Option.filter_some, hb, if_true, Bool.true_and]
        by_cases same : Expression.normalize (Text.trimmed source).toList = wanted
        · simp [bind, Except.bind, pure, Except.pure, same, name]
        · simp only [bind, Except.bind, same, if_false, beq_false_of_ne same]
          exact rest

end ListedIndex

/-- The indexes and the checks of a table, in the order in which they are listed. -/
structure Listing where
  indexes : List ListedIndex
  checks : List ListedCheck

namespace Listing

/-- Indexes and checks have names of their own. -/
structure Proper (e : Engine) (l : Listing) : Prop where
  indexes : ∀ i ∈ l.indexes, i.Proper e
  checks : ∀ k ∈ l.checks, k.Proper e
  names : (l.indexes.map (·.title) ++ l.checks.map (·.name)).Nodup

def described (l : Listing) : List Constraint :=
  Constraints.merge (l.indexes.map (·.describe)) (l.checks.map (·.describe))

variable {e : Engine} {l : Listing}

theorem foldl_put {cs ds : List Constraint} (h : (cs.map (·.name) ++ ds.map (·.name)).Nodup) :
    ds.foldl Constraints.put cs = cs ++ ds := by
  induction ds generalizing cs with
  | nil => exact (List.append_nil cs).symm
  | cons d ds ih =>
    have fresh : d.name ∉ cs.map (·.name) := fun hm => (List.nodup_append.mp h).2.2 d.name hm d.name (by simp) rfl
    have split : cs ++ d :: ds = cs ++ [d] ++ ds := List.append_cons ..
    rw [List.foldl_cons, put_of_notMem fresh, split]
    refine ih ?_
    rwa [List.map_append, List.append_assoc]

theorem described_perm (hp : l.Proper e) :
    l.described.Perm (l.indexes.map (·.describe) ++ l.checks.map (·.describe)) := by
  have names := Identifier.nodup_lowercase (e := e) ?_ hp.names
  · rw [described, Constraints.merge, foldl_put]
    · exact List.mergeSort_perm ..
    · rw [List.map_append, List.map_map, List.map_map] at names
      have title : ∀ i ∈ l.indexes, i.describe.name = Text.lowercase i.title := fun i hi =>
        (ListedIndex.describe_describes (hp.indexes i hi)).name
      rw [List.map_map, List.map_map]
      simpa [Function.comp_def, List.map_congr_left title] using names
  · intro name hm
    rcases List.mem_append.mp hm with hm | hm
    · obtain ⟨i, hi, rfl⟩ := List.mem_map.mp hm
      exact (hp.indexes i hi).title
    · obtain ⟨k, hk, rfl⟩ := List.mem_map.mp hm
      exact (hp.checks k hk).name

end Listing

end FirebirdSql
