import FirebirdSql.Proofs.Index.Reading
import FirebirdSql.Proofs.Trace
import Mathlib.Data.List.Induction
import Mathlib.Data.List.Nodup

/-!
What rows of the catalog say of one constraint. An index is described by all rows of its name at once: by the columns in
the order in which they come up first, with the order of the row that named them first. One more row changes the
description as reading that row does.
-/

namespace FirebirdSql

/-- A name in lower case, if there is one. -/
def Row.label? (r : Row) (index : Nat) : Option String := (r.getName? index).toOption.join.map Text.lowercase

namespace Catalog

open Constraint (optionalInt)

theorem eraseDups_concat (columns : List String) (column : String) :
    (columns ++ [column]).eraseDups =
      if column ∈ columns then columns.eraseDups else columns.eraseDups ++ [column] := by
  rw [List.eraseDups_append]
  split
  · next known => simp [List.removeAll, known]
  · next fresh => simp [List.removeAll, fresh, List.eraseDups_cons]

theorem nodup_eraseDups (names : List String) : names.eraseDups.Nodup := by
  induction names using List.reverseRecOn with
  | nil => exact List.nodup_nil
  | append_singleton names name ih =>
    rw [eraseDups_concat]
    split
    · exact ih
    · next fresh =>
      rw [← List.concat_eq_append]
      exact ih.concat fun known => fresh (List.mem_eraseDups.mp known)

/-- The columns that some rows mention, each where it comes up first. -/
def mentioned (column? : Row → Option String) (rows : List Row) : List String := (rows.filterMap column?).eraseDups

section Mentioned

variable {column? : Row → Option String} {rows : List Row} {column : String}

theorem mem_mentioned : column ∈ mentioned column? rows ↔ ∃ r ∈ rows, column? r = some column := by
  rw [mentioned, List.mem_eraseDups, List.mem_filterMap]

theorem mentioned_concat (rows : List Row) (r : Row) : mentioned column? (rows ++ [r]) =
    match column? r with
    | some column =>
      if column ∈ mentioned column? rows then mentioned column? rows else mentioned column? rows ++ [column]
    | none => mentioned column? rows := by
  rw [mentioned, List.filterMap_append]
  cases named : column? r with
  | none => simp [named, mentioned]
  | some column =>
    have one : [r].filterMap column? = [column] := by simp [named]
    rw [one, eraseDups_concat]
    simp only [mentioned, List.mem_eraseDups]

end Mentioned

/-! A row of an index -/

namespace IndexRow

variable (r : Row)

def indexName : String := Text.lowercase ((r.getName 2).toOption.getD "")

/-- A row of no constraint goes by the name of the index. -/
def key : String := (r.label? 0).getD (indexName r)

def kind : ConstraintKind := ((r.getName? 1).toOption.join.bind ConstraintKind.ofCatalog?).getD .index

def column? : Option String := r.label? 3

def isUnique : Bool := (optionalInt r 4).toOption.join.getD 0 == 1

def order : SortOrder := if (optionalInt r 5).toOption.join.getD 0 = 1 then .descending else .ascending

def table? : Option String := r.label? 6

def target? : Option String := r.label? 7

def expression? : Option String := (r.getName? 8).toOption.join

/-- The order of the row that names the column first. -/
def orderOf (group : List Row) (column : String) : SortOrder :=
  ((group.find? (column? · == some column)).map order).getD .ascending

/-- What the rows of one name say together; `first` is the first of them. -/
def gathered (first : Row) (group : List Row) : Constraint where
  name := key first
  kind := kind first
  columns := mentioned column? group
  orders := (mentioned column? group).map (orderOf group)
  -- The reference is that of the first row that has one; if none has, there is no table.
  referencedTable := if kind first = .foreignKey then group.findSome? table? else none
  referencedColumn :=
    if kind first = .foreignKey then ((group.find? (table? · |>.isSome)).or group.getLast?).bind target? else none
  indexName := some (indexName first)
  unique := if kind first = .index then (group.getLast?.map isUnique).getD false else kind first matches .primaryKey | .unique
  expression := if kind first = .index then group.getLast?.bind expression? else none
  checkSource := none

variable {r : Row} {c d : Constraint} {cs ds : List Constraint}

/-! What a row adds -/

def withFacts (c : Constraint) (r : Row) : Constraint := { c with unique := isUnique r, expression := expression? r }

def withColumn (c : Constraint) (r : Row) : Constraint :=
  match column? r with
  | some column =>
    if column ∈ c.columns then c
    else { c with columns := c.columns ++ [column], orders := c.orders ++ [order r] }
  | none => c

def withReference (c : Constraint) (r : Row) : Constraint :=
  { c with referencedTable := table? r, referencedColumn := target? r }

theorem addIndexFacts_eq_ok_iff : c.addIndexFacts r = .ok d ↔
    ((optionalInt r 4).isOk ∧ (r.getName? 8).isOk) ∧ d = withFacts c r := by
  rw [Constraint.addIndexFacts, withFacts, isUnique, expression?]
  cases optionalInt r 4 with
  | error e => simp [bind, Except.bind, Except.isOk, Except.toBool]
  | ok unique =>
    cases r.getName? 8 with
    | error e => simp [bind, Except.bind, Except.isOk, Except.toBool]
    | ok expression => simp [bind, Except.bind, pure, Except.pure, Except.isOk, Except.toBool, Except.toOption, eq_comm]

/-- The order is read only if the column is new. -/
theorem addColumn_eq_ok_iff : c.addColumn r = .ok d ↔
    ((r.getName? 3).isOk ∧ ∀ column, column? r = some column → column ∉ c.columns → (optionalInt r 5).isOk) ∧
      d = withColumn c r := by
  rw [Constraint.addColumn, withColumn, column?, Row.label?, order]
  cases r.getName? 3 with
  | error e => simp [bind, Except.bind, Except.isOk, Except.toBool]
  | ok name =>
    cases name with
    | none =>
      simp [bind, Except.bind, pure, Except.pure, Except.isOk, Except.toBool, Except.toOption]
      exact eq_comm
    | some name =>
      by_cases known : Text.lowercase name ∈ c.columns
      · simp [bind, Except.bind, pure, Except.pure, Except.isOk, Except.toBool, Except.toOption, known]
        exact eq_comm
      · cases optionalInt r 5 with
        | error e => simp [bind, Except.bind, Except.isOk, Except.toBool, Except.toOption, known]
        | ok direction =>
          simp [bind, Except.bind, pure, Except.pure, Except.isOk, Except.toBool, Except.toOption, known, eq_comm]

theorem addReference_eq_ok_iff : c.addReference r = .ok d ↔
    ((r.getName? 6).isOk ∧ (r.getName? 7).isOk) ∧ d = withReference c r := by
  rw [Constraint.addReference, withReference, table?, target?, Row.label?, Row.label?]
  cases r.getName? 6 with
  | error e => simp [bind, Except.bind, Except.isOk, Except.toBool]
  | ok table =>
    cases r.getName? 7 with
    | error e => simp [bind, Except.bind, Except.isOk, Except.toBool]
    | ok column => simp [bind, Except.bind, pure, Except.pure, Except.isOk, Except.toBool, Except.toOption, eq_comm]

/-- The description with the row's column, and with its reference if that of a foreign key is not known yet. -/
def withSegment (c : Constraint) (r : Row) : Constraint :=
  if kind r = .foreignKey ∧ c.referencedTable = none then withReference (withColumn c r) r else withColumn c r

def extend (c : Constraint) (r : Row) : Constraint := withSegment (if kind r = .index then withFacts c r else c) r

/-- What is to be read of a row can be read, where this much is known already. -/
structure Adds (c : Constraint) (r : Row) : Prop where
  facts : kind r = .index → (optionalInt r 4).isOk ∧ (r.getName? 8).isOk
  column : (r.getName? 3).isOk
  order : ∀ column, column? r = some column → column ∉ c.columns → (optionalInt r 5).isOk
  reference : kind r = .foreignKey → c.referencedTable = none → (r.getName? 6).isOk ∧ (r.getName? 7).isOk

@[simp] theorem withColumn_referencedTable (c : Constraint) (r : Row) :
    (withColumn c r).referencedTable = c.referencedTable := by
  unfold withColumn
  split
  · split <;> rfl
  · rfl

theorem addSegment_eq_ok_iff :
    (c.addColumn r >>= fun c => if kind r = .foreignKey ∧ c.referencedTable.isNone then c.addReference r else pure c) =
        .ok d ↔
      ((r.getName? 3).isOk ∧ ∀ column, column? r = some column → column ∉ c.columns → (optionalInt r 5).isOk) ∧
        (kind r = .foreignKey → c.referencedTable = none → (r.getName? 6).isOk ∧ (r.getName? 7).isOk) ∧
        d = withSegment c r := by
  have reference : (if kind r = .foreignKey ∧ (withColumn c r).referencedTable.isNone then
        (withColumn c r).addReference r else pure (withColumn c r)) = .ok d ↔
      (kind r = .foreignKey → c.referencedTable = none → (r.getName? 6).isOk ∧ (r.getName? 7).isOk) ∧
        d = withSegment c r := by
    simp only [withColumn_referencedTable, Option.isNone_iff_eq_none, withSegment]
    by_cases unset : kind r = .foreignKey ∧ c.referencedTable = none
    · rw [if_pos unset, if_pos unset, addReference_eq_ok_iff]
      simp only [unset, forall_const]
    · rw [if_neg unset, if_neg unset]
      have vacuous : kind r = .foreignKey → c.referencedTable = none → (r.getName? 6).isOk ∧ (r.getName? 7).isOk :=
        fun key unknown => absurd ⟨key, unknown⟩ unset
      constructor
      · intro same
        exact ⟨vacuous, (Except.ok.inj same).symm⟩
      · rintro ⟨-, rfl⟩
        rfl
  rw [bind_eq_ok_iff]
  constructor
  · rintro ⟨_, read, h⟩
    obtain ⟨readable, rfl⟩ := addColumn_eq_ok_iff.mp read
    exact ⟨readable, reference.mp h⟩
  · rintro ⟨readable, h⟩
    exact ⟨_, addColumn_eq_ok_iff.mpr ⟨readable, rfl⟩, reference.mpr h⟩

theorem add_eq_ok_iff : c.add (kind r) r = .ok d ↔ Adds c r ∧ d = extend c r := by
  rw [Constraint.add, extend]
  by_cases plain : kind r = .index
  · rw [if_pos plain, if_pos plain, bind_eq_ok_iff]
    constructor
    · rintro ⟨_, read, h⟩
      obtain ⟨facts, rfl⟩ := addIndexFacts_eq_ok_iff.mp read
      obtain ⟨⟨column, order⟩, reference, same⟩ := addSegment_eq_ok_iff.mp h
      exact ⟨⟨fun _ => facts, column, order, reference⟩, same⟩
    · rintro ⟨adds, same⟩
      refine ⟨_, addIndexFacts_eq_ok_iff.mpr ⟨adds.facts plain, rfl⟩, addSegment_eq_ok_iff.mpr ?_⟩
      exact ⟨⟨adds.column, adds.order⟩, adds.reference, same⟩
  · rw [if_neg plain, if_neg plain, pure_bind, addSegment_eq_ok_iff]
    constructor
    · rintro ⟨⟨column, order⟩, reference, same⟩
      exact ⟨⟨fun index => absurd index plain, column, order, reference⟩, same⟩
    · rintro ⟨adds, same⟩
      exact ⟨⟨adds.column, adds.order⟩, adds.reference, same⟩

/-! The rows of one name -/

variable {group : List Row} {column : String}

theorem orderOf_concat_of_mem (known : column ∈ mentioned column? group) (r : Row) :
    orderOf (group ++ [r]) column = orderOf group column := by
  obtain ⟨q, hq, named⟩ := mem_mentioned.mp known
  have found : (group.find? (column? · == some column)).isSome := List.find?_isSome.mpr ⟨q, hq, beq_iff_eq.mpr named⟩
  obtain ⟨first, found⟩ := Option.isSome_iff_exists.mp found
  rw [orderOf, orderOf, List.find?_append, found]
  rfl

theorem orderOf_concat_of_notMem (fresh : column ∉ mentioned column? group) (named : column? r = some column) :
    orderOf (group ++ [r]) column = order r := by
  have none : group.find? (column? · == some column) = none := by
    rw [List.find?_eq_none]
    intro q hq same
    exact fresh (mem_mentioned.mpr ⟨q, hq, beq_iff_eq.mp same⟩)
  simp [orderOf, List.find?_append, none, named]

/-- One more row adds its column and its order, if there are just those of the rows before. -/
theorem withColumn_concat (columns : c.columns = mentioned column? group)
    (orders : c.orders = (mentioned column? group).map (orderOf group)) (r : Row) : withColumn c r = { c with
      columns := mentioned column? (group ++ [r])
      orders := (mentioned column? (group ++ [r])).map (orderOf (group ++ [r])) } := by
  have before : (mentioned column? group).map (orderOf (group ++ [r])) = c.orders := by
    rw [orders]
    exact List.map_congr_left fun column known => orderOf_concat_of_mem known r
  rw [withColumn, mentioned_concat]
  cases named : column? r with
  | none =>
    dsimp only
    rw [before, ← columns]
  | some column =>
    dsimp only
    rw [columns]
    by_cases known : column ∈ mentioned column? group
    · rw [if_pos known, if_pos known, before, ← columns]
    · rw [if_neg known, if_neg known, List.map_append, before, List.map_singleton, orderOf_concat_of_notMem known named]

theorem gathered_concat {first : Row} (same : kind r = kind first) :
    extend (gathered first group) r = gathered first (group ++ [r]) := by
  rw [extend, withSegment]
  by_cases plain : kind r = .index
  · have other : ¬kind r = .foreignKey := by rw [plain]; decide
    rw [if_pos plain, if_neg fun h => other h.1, withColumn_concat rfl rfl]
    simp [gathered, withFacts, ← same, plain]
  · rw [if_neg plain, withColumn_concat rfl rfl]
    by_cases reference : kind r = .foreignKey
    · have unset : (gathered first group).referencedTable = group.findSome? table? := if_pos (same ▸ reference)
      rw [unset]
      cases table : group.findSome? table? with
      | none =>
        -- There is no table yet, so the reference of this row is taken, whether or not it has one.
        have before : group.find? (table? · |>.isSome) = none := by
          rw [List.findSome?_eq_none_iff] at table
          rw [List.find?_eq_none]
          intro q hq
          simp [table q hq]
        have last : (if (table? r).isSome then some r else none).getD r = r := by split <;> rfl
        rw [if_pos ⟨reference, rfl⟩]
        simp [gathered, withReference, ← same, reference, List.findSome?_append, List.find?_append, table, before, last]
      | some name =>
        obtain ⟨q, hq, named⟩ := List.exists_of_findSome?_eq_some table
        have found : (group.find? (table? · |>.isSome)).isSome := List.find?_isSome.mpr ⟨q, hq, by rw [named]; rfl⟩
        obtain ⟨q, found⟩ := Option.isSome_iff_exists.mp found
        rw [if_neg fun h => by cases h.2]
        simp [gathered, ← same, reference, List.findSome?_append, List.find?_append, table, found]
    · rw [if_neg fun h => reference h.1]
      simp [gathered, ← same, plain, reference]

/-- Of rows of one name: what is to be read of one more can be read. The order of a column is read where it comes up
first, a reference until there is one. -/
structure Readable (group : List Row) (r : Row) : Prop where
  index : (r.getName 2).isOk
  type : (r.getName? 1).isOk
  name : (r.getName? 0).isOk
  facts : kind r = .index → (optionalInt r 4).isOk ∧ (r.getName? 8).isOk
  column : (r.getName? 3).isOk
  order : ∀ column, column? r = some column → (∀ q ∈ group, column? q ≠ some column) → (optionalInt r 5).isOk
  reference : kind r = .foreignKey → (∀ q ∈ group, table? q = none) → (r.getName? 6).isOk ∧ (r.getName? 7).isOk

theorem readable_iff {first : Row} (same : kind r = kind first) : Readable group r ↔
    (r.getName 2).isOk ∧ (r.getName? 1).isOk ∧ (r.getName? 0).isOk ∧ Adds (gathered first group) r := by
  have known : (∀ column, column? r = some column → (∀ q ∈ group, column? q ≠ some column) → (optionalInt r 5).isOk) ↔
      ∀ column, column? r = some column → column ∉ (gathered first group).columns → (optionalInt r 5).isOk := by
    refine forall₂_congr fun column _ => imp_congr_left ?_
    rw [show (gathered first group).columns = mentioned column? group from rfl, mem_mentioned]
    simp
  have unset (reference : kind r = .foreignKey) :
      (∀ q ∈ group, table? q = none) ↔ (gathered first group).referencedTable = none := by
    rw [gathered, if_pos (same ▸ reference), List.findSome?_eq_none_iff]
  constructor
  · intro h
    exact ⟨h.index, h.type, h.name, h.facts, h.column, known.mp h.order, fun key table => h.reference key ((unset key).mpr table)⟩
  · rintro ⟨index, type, name, adds⟩
    exact ⟨index, type, name, adds.facts, adds.column, known.mpr adds.order,
      fun key table => adds.reference key ((unset key).mp table)⟩

/-- A row extends what is known by its name, or begins a description. -/
theorem addRow_eq_ok_iff : Constraints.addRow cs r = .ok ds ↔
    ((r.getName 2).isOk ∧ (r.getName? 1).isOk ∧ (r.getName? 0).isOk ∧
        Adds ((Constraints.find? cs (key r)).getD (gathered r [])) r) ∧
      ds = Constraints.put cs (extend ((Constraints.find? cs (key r)).getD (gathered r [])) r) := by
  rw [Constraints.addRow]
  cases index : r.getName 2 with
  | error e => simp [bind, Except.bind, Except.isOk, Except.toBool]
  | ok index? =>
    cases type : r.getName? 1 with
    | error e => simp [bind, Except.bind, Except.isOk, Except.toBool]
    | ok type? =>
      cases name : r.getName? 0 with
      | error e => simp [bind, Except.bind, Except.isOk, Except.toBool]
      | ok name? =>
        have hindex : Text.lowercase index? = indexName r := by simp [indexName, index, Except.toOption]
        have hkind : (type?.bind ConstraintKind.ofCatalog?).getD .index = kind r := by simp [kind, type, Except.toOption]
        have hkey : (name?.map Text.lowercase).getD (indexName r) = key r := by
          simp [key, Row.label?, name, Except.toOption]
        have blank : { Constraint.empty (key r) (kind r) with indexName := some (indexName r) } = gathered r [] := by
          cases h : kind r <;> simp [gathered, Constraint.empty, mentioned, h]
        simp only [bind, Except.bind, hindex, hkind, hkey, blank]
        change (Constraint.add _ (kind r) r >>= fun c => pure (Constraints.put cs c)) = .ok ds ↔ _
        simp only [bind_eq_ok_iff, add_eq_ok_iff]
        constructor
        · rintro ⟨_, ⟨adds, rfl⟩, same⟩
          exact ⟨⟨rfl, rfl, rfl, adds⟩, (Except.ok.inj same).symm⟩
        · rintro ⟨⟨-, -, -, adds⟩, same⟩
          exact ⟨_, ⟨adds, rfl⟩, congrArg Except.ok same.symm⟩

end IndexRow

/-! The rows of checks -/

namespace CheckRow

variable (r : Row)

def key : String := Text.lowercase ((r.getName 0).toOption.getD "")

def source? : Option String := (r.getName? 1).toOption.join

def column? : Option String := r.label? 2

/-- What the rows of one check say together; `first` is the first of them. -/
def gathered (first : Row) (group : List Row) : Constraint :=
  { Constraint.empty (key first) .check with columns := mentioned column? group, checkSource := source? first }

/-- After these rows of its check, what is to be read of a row can be read: of the first also the source. -/
structure Readable (group : List Row) (r : Row) : Prop where
  name : (r.getName 0).isOk
  source : group = [] → (r.getName? 1).isOk
  column : (r.getName? 2).isOk

variable {r : Row} {c last : Constraint} {cs ds : List Constraint} {group : List Row}

def withColumn (c : Constraint) (r : Row) : Constraint :=
  match column? r with
  | some column => if column ∈ c.columns then c else { c with columns := c.columns ++ [column] }
  | none => c

theorem gathered_concat (first : Row) (group : List Row) (r : Row) :
    withColumn (gathered first group) r = gathered first (group ++ [r]) := by
  rw [withColumn, gathered, gathered, mentioned_concat]
  cases column? r with
  | none => rfl
  | some column =>
    dsimp only
    split <;> rfl

/-- Putting in the column of a row is the end of adding the row. -/
theorem mention_eq_ok_iff : (r.getName? 2 >>= fun column => match column.map Text.lowercase with
      | some column =>
        if c.columns.contains column then Except.ok (cs ++ [c])
        else .ok (cs ++ [{ c with columns := c.columns ++ [column] }])
      | none => .ok (cs ++ [c])) = .ok ds ↔
    (r.getName? 2).isOk ∧ ds = cs ++ [withColumn c r] := by
  rw [withColumn, column?, Row.label?]
  cases r.getName? 2 with
  | error e => simp [bind, Except.bind, Except.isOk, Except.toBool]
  | ok name =>
    cases name with
    | none =>
      simp [bind, Except.bind, Except.isOk, Except.toBool, Except.toOption]
      exact eq_comm
    | some name =>
      by_cases known : Text.lowercase name ∈ c.columns
      · simp [bind, Except.bind, Except.isOk, Except.toBool, Except.toOption, known]
        exact eq_comm
      · simp [bind, Except.bind, Except.isOk, Except.toBool, Except.toOption, known]
        exact eq_comm

theorem addCheckRow_next (same : last.name = key r) : Constraints.addCheckRow (cs ++ [last]) r = .ok ds ↔
    ((r.getName 0).isOk ∧ (r.getName? 2).isOk) ∧ ds = cs ++ [withColumn last r] := by
  rw [Constraints.addCheckRow]
  rw [key] at same
  cases name : r.getName 0 with
  | error e => simp [bind, Except.bind, Except.isOk, Except.toBool]
  | ok name? =>
    have same : last.name = Text.lowercase name? := by rwa [name] at same
    simp only [bind, Except.bind, List.getLast?_concat, same, if_true, List.dropLast_concat]
    rw [and_assoc, ← mention_eq_ok_iff]
    exact (and_iff_right rfl).symm

theorem addCheckRow_first (other : ∀ last ∈ cs.getLast?, last.name ≠ key r) : Constraints.addCheckRow cs r = .ok ds ↔
    ((r.getName 0).isOk ∧ (r.getName? 1).isOk ∧ (r.getName? 2).isOk) ∧ ds = cs ++ [withColumn (gathered r []) r] := by
  rw [Constraints.addCheckRow]
  cases name : r.getName 0 with
  | error e => simp [bind, Except.bind, Except.isOk, Except.toBool]
  | ok name? =>
    have named : key r = Text.lowercase name? := by rw [key, name]; rfl
    cases source : r.getName? 1 with
    | error e =>
      rcases List.eq_nil_or_concat cs with rfl | ⟨cs, last, rfl⟩
      · simp [bind, Except.bind, Except.isOk, Except.toBool]
      · have other : last.name ≠ Text.lowercase name? := named ▸ other last (by simp)
        simp [bind, Except.bind, Except.isOk, Except.toBool, other]
    | ok source? =>
      have blank : { Constraint.empty (Text.lowercase name?) .check with checkSource := source? } = gathered r [] := by
        rw [gathered, named, CheckRow.source?, source]
        rfl
      rw [and_assoc, and_assoc, ← mention_eq_ok_iff]
      refine Iff.trans ?_ (and_iff_right rfl).symm
      refine Iff.trans ?_ (and_iff_right rfl).symm
      rcases List.eq_nil_or_concat cs with rfl | ⟨cs, last, rfl⟩
      · rw [← blank]
        rfl
      · have other : last.name ≠ Text.lowercase name? := named ▸ other last (by simp)
        rw [← blank]
        simp only [bind, Except.bind, List.concat_eq_append, List.getLast?_concat, other, if_false]
        rfl

end CheckRow

end Catalog

end FirebirdSql
