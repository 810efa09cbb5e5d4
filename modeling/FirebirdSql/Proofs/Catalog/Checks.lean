import FirebirdSql.Proofs.Index.Reading

/-!
The checks of a table as the catalog lists them, one row for each column that a check mentions. They are read back as
one description for each check.
-/

namespace FirebirdSql

open Catalog
open Identifier (Canonical)
open StoredIndex (getName_text getName?_text)

/-- Rows that come in groups are read back as one description for each group, if each group is. -/
theorem Catalog.Constraints.foldlM_groups {α : Type} {add : List Constraint → Row → Except Error (List Constraint)}
    {rows : α → List Row} {describe : α → Constraint} {as : List α}
    (read : ∀ a ∈ as, ∀ cs : List Constraint, (describe a).name ∉ cs.map (·.name) →
      (rows a).foldlM add cs = .ok (cs ++ [describe a]))
    (hn : (as.map fun a => (describe a).name).Nodup) :
    (as.flatMap rows).foldlM add [] = .ok (as.map describe) := by
  suffices h : ∀ cs : List Constraint, (cs.map (·.name) ++ as.map fun a => (describe a).name).Nodup →
      (as.flatMap rows).foldlM add cs = .ok (cs ++ as.map describe) from h [] hn
  clear hn
  induction as with
  | nil =>
    intro cs _
    rw [List.map_nil, List.append_nil]
    rfl
  | cons a as ih =>
    intro cs hn
    have fresh : (describe a).name ∉ cs.map (·.name) := by
      intro hm
      exact (List.nodup_append.mp hn).2.2 _ hm _ (by simp) rfl
    have split : cs ++ describe a :: as.map describe = cs ++ [describe a] ++ as.map describe := List.append_cons ..
    rw [List.flatMap_cons, List.foldlM_append, read a List.mem_cons_self cs fresh, List.map_cons, split]
    refine ih (fun b hb => read b (List.mem_cons_of_mem a hb)) (cs ++ [describe a]) ?_
    rwa [List.map_append, List.append_assoc]

theorem Identifier.nodup_lowercase {e : Engine} {names : List String} (hc : ∀ n ∈ names, Canonical e n)
    (hn : names.Nodup) : (names.map Text.lowercase).Nodup :=
  List.pairwise_map.mpr <| hn.imp_of_mem fun ha hb hne he => hne ((hc _ ha).lowercase_injective (hc _ hb) he)

structure StoredCheck where
  name : String
  /-- The whole clause. -/
  source : String
  deriving DecidableEq

/-- A check with the columns that it mentions. -/
structure ListedCheck extends StoredCheck where
  columns : List String
  deriving DecidableEq

namespace StoredCheck

/-- A row of a check, with a column that it mentions or none. -/
def row (k : StoredCheck) (column : Option String) : Row :=
  ⟨[.text k.name, .text k.source, column.elim .null .text]⟩

def blank (k : StoredCheck) : Constraint :=
  { Constraint.empty (Text.lowercase k.name) .check with
    checkSource := (some (Text.trimmed k.source)).filter (· != "") }

/-- The description with one more column, unless it is there. -/
def mention (c : Constraint) (column : String) : Constraint :=
  if Text.lowercase column ∈ c.columns then c else { c with columns := c.columns ++ [Text.lowercase column] }

variable {e : Engine} {k : StoredCheck} {cs : List Constraint} {c : Constraint} {column : String}

theorem mention_name (c : Constraint) (column : String) : (mention c column).name = c.name := by
  unfold mention
  split <;> rfl

theorem mention_kind (c : Constraint) (column : String) : (mention c column).kind = c.kind := by
  unfold mention
  split <;> rfl

theorem mem_mention_columns {other : String} :
    other ∈ (mention c column).columns ↔ other ∈ c.columns ∨ other = Text.lowercase column := by
  unfold mention
  split
  · next h =>
    constructor
    · exact .inl
    · rintro (ho | rfl)
      · exact ho
      · exact h
  · simp

section Row

variable (hk : Canonical e k.name)

include hk

theorem getName_row (column : Option String) : (k.row column).getName 0 = .ok k.name := getName_text hk _ 0 rfl

/-- A row of the check that came last adds its column. -/
theorem addCheckRow_next (hc : Canonical e column) (h : c.name = Text.lowercase k.name) :
    Constraints.addCheckRow (cs ++ [c]) (k.row (some column)) = .ok (cs ++ [mention c column]) := by
  have mentioned : (k.row (some column)).getName? 2 = .ok (some column) := getName?_text hc _ 2 rfl
  rw [Constraints.addCheckRow, getName_row hk, mentioned]
  by_cases there : Text.lowercase column ∈ c.columns
  · simp [bind, Except.bind, pure, Except.pure, h, mention, there]
  · simp [bind, Except.bind, pure, Except.pure, h, mention, there]

/-- A row of another check starts a description. -/
theorem addCheckRow_first (column : Option String) (hc : ∀ name ∈ column, Canonical e name)
    (h : Text.lowercase k.name ∉ cs.map (·.name)) :
    Constraints.addCheckRow cs (k.row column) = .ok (cs ++ [column.elim k.blank (mention k.blank)]) := by
  have source : (k.row column).getName? 1 = .ok ((some (Text.trimmed k.source)).filter (· != "")) := rfl
  have mentioned : (k.row column).getName? 2 = .ok column := by
    cases column with
    | none => rfl
    | some column => exact getName?_text (hc column rfl) _ 2 rfl
  have blank : k.blank.columns = [] := rfl
  rw [Constraints.addCheckRow, getName_row hk, mentioned, source]
  rcases List.eq_nil_or_concat cs with rfl | ⟨before, last, rfl⟩
  · cases column <;> simp [bind, Except.bind, pure, Except.pure, mention, blank] <;> rfl
  · have other : last.name ≠ Text.lowercase k.name := fun he => h (by simp [← he])
    cases column <;> simp [bind, Except.bind, pure, Except.pure, mention, blank, other] <;> rfl

end Row

end StoredCheck

namespace ListedCheck

open StoredCheck (mention)

def rows (k : ListedCheck) : List Row :=
  match k.columns with
  | [] => [k.row none]
  | columns => columns.map fun column => k.row (some column)

/-- The check as it is read. -/
def describe (k : ListedCheck) : Constraint := k.columns.foldl mention k.blank

/-- The name and the columns are in the form in which they are stored. -/
structure Proper (e : Engine) (k : ListedCheck) : Prop where
  name : Canonical e k.name
  columns : ∀ c ∈ k.columns, Canonical e c

variable {e : Engine} {k : ListedCheck} {cs : List Constraint}

theorem foldl_mention (c : Constraint) (columns : List String) :
    (columns.foldl mention c).name = c.name ∧ (columns.foldl mention c).kind = c.kind ∧
      ∀ other, other ∈ (columns.foldl mention c).columns ↔ other ∈ c.columns ∨ other ∈ columns.map Text.lowercase := by
  induction columns generalizing c with
  | nil => simp
  | cons column columns ih =>
    obtain ⟨name, kind, mem⟩ := ih (mention c column)
    refine ⟨name.trans (StoredCheck.mention_name c column), kind.trans (StoredCheck.mention_kind c column), fun other => ?_⟩
    rw [List.foldl_cons, mem, StoredCheck.mem_mention_columns, List.map_cons, List.mem_cons, or_assoc]

@[simp] theorem describe_name (k : ListedCheck) : k.describe.name = Text.lowercase k.name := (foldl_mention _ _).1

@[simp] theorem describe_kind (k : ListedCheck) : k.describe.kind = .check := (foldl_mention _ _).2.1

theorem mem_describe_columns {column : String} :
    column ∈ k.describe.columns ↔ column ∈ k.columns.map Text.lowercase := by
  rw [describe, (foldl_mention _ _).2.2]
  exact or_iff_right List.not_mem_nil

theorem rows_next {c : Constraint} {columns : List String} (hk : Canonical e k.name) (hc : ∀ c ∈ columns, Canonical e c)
    (h : c.name = Text.lowercase k.name) :
    (columns.map fun column => k.row (some column)).foldlM Constraints.addCheckRow (cs ++ [c]) =
      .ok (cs ++ [columns.foldl mention c]) := by
  induction columns generalizing c with
  | nil => rfl
  | cons column columns ih =>
    rw [List.map_cons, List.foldlM_cons, StoredCheck.addCheckRow_next hk (hc column List.mem_cons_self) h]
    exact ih (fun d hd => hc d (List.mem_cons_of_mem column hd)) ((StoredCheck.mention_name c column).trans h)

theorem rows_read (hk : k.Proper e) (h : Text.lowercase k.name ∉ cs.map (·.name)) :
    k.rows.foldlM Constraints.addCheckRow cs = .ok (cs ++ [k.describe]) := by
  unfold rows describe
  have columns := hk.columns
  cases hc : k.columns with
  | nil =>
    rw [List.foldlM_cons, StoredCheck.addCheckRow_first hk.name none (by simp) h]
    rfl
  | cons column others =>
    rw [hc] at columns
    dsimp only
    rw [List.map_cons, List.foldlM_cons,
      StoredCheck.addCheckRow_first hk.name (some column) (by simpa using columns column List.mem_cons_self) h]
    exact rows_next hk.name (fun d hd => columns d (List.mem_cons_of_mem column hd)) (StoredCheck.mention_name _ column)

theorem ofCheckRows_rows {checks : List ListedCheck} (hp : ∀ k ∈ checks, k.Proper e) (hn : (checks.map (·.name)).Nodup) :
    Constraints.ofCheckRows (checks.flatMap (·.rows)) = .ok (checks.map (·.describe)) := by
  have canonical : ∀ name ∈ checks.map (·.name), Canonical e name := by
    intro name hm
    obtain ⟨k, hk, rfl⟩ := List.mem_map.mp hm
    exact (hp k hk).name
  have names := Identifier.nodup_lowercase canonical hn
  refine Constraints.foldlM_groups (fun k hk _ h => rows_read (hp k hk) (by rwa [describe_name] at h)) ?_
  simpa [List.map_map, Function.comp_def] using names

end ListedCheck

end FirebirdSql
