import FirebirdSql.Proofs.Index.Removal
import FirebirdSql.Proofs.Placeholders

/-!
An index that was made over some columns, and is found again by them. What the catalog stores of a column's name comes
back in lower case, and is compared with the name as it was given; the index is dropped by the name that came back.
-/

namespace FirebirdSql

open Catalog
open Identifier (Simple catalogName derivedName)
open Exchange (changes)

namespace Identifier

/-- A name as it comes back from the catalog: without the blanks around it, and in lower case. -/
def returned (e : Engine) (name : String) : String := Text.lowercase (Text.trimmed (catalogName e name))

end Identifier

open Identifier (returned)

namespace Identifier.Simple

variable {e : Engine} {name : String}

theorem returned_eq (h : Simple name) : returned e name = Text.lowercase (catalogName e name) := by
  rw [returned, h.canonical.trimmed]

/-- A simple name is known by what comes back of it exactly if it is not cut. -/
theorem sameColumn_returned_iff (h : Simple name) :
    Constraint.sameColumn (returned e name) name = true ↔ name.toList.length ≤ e.identifierLimit := by
  rw [h.returned_eq]
  constructor
  · intro same
    have length : ((Text.lowercase (catalogName e name)).toList.map Char.toLower).length =
        (name.toList.map Char.toLower).length := congrArg List.length (eq_of_beq same)
    rw [List.length_map, List.length_map, (h.canonical (e := e)).lowercase_toList, List.length_map] at length
    exact length ▸ (h.canonical (e := e)).short
  · exact fun short => ((h.canonical (e := e)).sameAsciiLetters_iff h short).mpr rfl

theorem quote_returned (h : Simple name) : quote e (returned e name) = quote e name := by
  rw [h.returned_eq, h.canonical.quote_lowercase, h.quote_eq]

end Identifier.Simple

namespace ListedIndex

/-- The index that is made over some columns, as the catalog lists it. -/
def created (e : Engine) (table : String) (columns : List String) (unique : Bool) : ListedIndex where
  name := catalogName e (derivedName e table columns (Editor.indexSuffix unique))
  owner := none
  unique := unique
  descending := false
  key := .segments (columns.map fun column => ⟨catalogName e column, none⟩)

/-! Reading an index of any columns -/

/-- The columns that were read, and one more unless it is blank or among them. -/
def gather (done : List String) (column : String) : List String :=
  if Text.trimmed column = "" ∨ Text.lowercase (Text.trimmed column) ∈ done then done
  else done ++ [Text.lowercase (Text.trimmed column)]

/-- The description is one of the index by some of its columns. -/
structure Gathers (i : ListedIndex) (columns : List String) (c : Constraint) : Prop where
  name : c.name = Text.lowercase (Text.trimmed i.name)
  kind : c.kind = .index
  unique : c.unique = i.unique
  columns : c.columns = columns.foldl gather []

variable {i : ListedIndex} {c : Constraint} {columns : List String}

theorem addColumn_gather (i : ListedIndex) (c : Constraint) (s : Segment) :
    ∃ c', c.addColumn (i.row (some s)) = .ok c' ∧ c'.name = c.name ∧ c'.kind = c.kind ∧ c'.unique = c.unique ∧
      c'.columns = gather c.columns s.column := by
  have name : (i.row (some s)).getName? 3 = .ok ((some (Text.trimmed s.column)).filter (· != "")) := rfl
  have order : Constraint.optionalInt (i.row (some s)) 5 = _ := optionalInt_flag (i.row (some s)).values 5 i.descending rfl
  rw [Constraint.addColumn, name, gather]
  by_cases blank : Text.trimmed s.column = ""
  · exact ⟨c, by simp [blank, bind, Except.bind]; rfl, rfl, rfl, rfl, by simp [blank]⟩
  · have kept : (some (Text.trimmed s.column)).filter (· != "") = some (Text.trimmed s.column) := by simp [blank]
    rw [kept]
    by_cases known : Text.lowercase (Text.trimmed s.column) ∈ c.columns
    · refine ⟨c, ?_, rfl, rfl, rfl, by rw [if_pos (.inr known)]⟩
      simp only [bind, Except.bind, Option.map_some, List.contains_iff_mem.mpr known, if_true]
      rfl
    · rw [if_neg (by simp [blank, known])]
      have absent : c.columns.contains (Text.lowercase (Text.trimmed s.column)) = false := by simpa using known
      simp only [bind, Except.bind, Option.map_some, absent, order]
      exact ⟨_, rfl, rfl, rfl, rfl, rfl⟩

theorem add_gathers (s : Segment) (hn : c.name = Text.lowercase (Text.trimmed i.name)) (hk : c.kind = .index)
    (hc : c.columns = columns.foldl gather []) :
    ∃ c', c.add .index (i.row (some s)) = .ok c' ∧ i.Gathers (columns ++ [s.column]) c' := by
  obtain ⟨facts, hf, grows⟩ := addIndexFacts_row i (some s) c
  obtain ⟨c', hc', name, kind, unique, read⟩ := addColumn_gather i facts s
  refine ⟨c', ?_, name.trans (grows.name.trans hn), kind.trans (grows.kind.trans hk), unique.trans grows.unique, ?_⟩
  · simp [Constraint.add, hf, bind, Except.bind, pure, Except.pure, hc']
  · rw [read, grows.columns, hc, List.foldl_append]
    simp

/-- A row of an index that no constraint owns goes by the name of the index. -/
theorem addRow_ownerless (ho : i.owner = none) (s : Option Segment) (cs : List Constraint) :
    Constraints.addRow cs (i.row s) = do
      let c ← ((Constraints.find? cs (Text.lowercase (Text.trimmed i.name))).getD
        { Constraint.empty (Text.lowercase (Text.trimmed i.name)) .index with
          indexName := some (Text.lowercase (Text.trimmed i.name)) }).add .index (i.row s)
      return Constraints.put cs c := by
  have index : (i.row s).getName 2 = .ok (Text.trimmed i.name) := rfl
  have type : (i.row s).getName? 1 = .ok none := by
    simp only [row, ho]
    rfl
  have name : (i.row s).getName? 0 = .ok none := by
    simp only [row, ho]
    rfl
  simp [Constraints.addRow, bind, Except.bind, index, type, name]

theorem addRow_gathers_first (ho : i.owner = none) (s : Segment) :
    ∃ c, Constraints.addRow [] (i.row (some s)) = .ok [c] ∧ i.Gathers [s.column] c := by
  obtain ⟨c, added, gathers⟩ := add_gathers (i := i) s (c := { Constraint.empty (Text.lowercase (Text.trimmed i.name))
    .index with indexName := some (Text.lowercase (Text.trimmed i.name)) }) rfl rfl (List.foldl_nil (f := gather)).symm
  refine ⟨c, ?_, gathers⟩
  rw [addRow_ownerless ho, show Constraints.find? [] _ = none from rfl, Option.getD_none, added]
  rfl

theorem addRow_gathers (ho : i.owner = none) (s : Segment) (h : i.Gathers columns c) :
    ∃ c', Constraints.addRow [c] (i.row (some s)) = .ok [c'] ∧ i.Gathers (columns ++ [s.column]) c' := by
  obtain ⟨c', added, gathers⟩ := add_gathers s h.name h.kind h.columns
  refine ⟨c', ?_, gathers⟩
  have found : Constraints.find? [c] (Text.lowercase (Text.trimmed i.name)) = some c := by
    simp [Constraints.find?, h.name]
  rw [addRow_ownerless ho, found, Option.getD_some, added]
  simp [bind, Except.bind, pure, Except.pure, Constraints.put, h.name, gathers.name]

theorem rows_gathered (ho : i.owner = none) (segments : List Segment) (h : i.Gathers columns c) :
    ∃ c', (segments.map fun s => i.row (some s)).foldlM Constraints.addRow [c] = .ok [c'] ∧
      i.Gathers (columns ++ segments.map (·.column)) c' := by
  induction segments generalizing columns c with
  | nil => exact ⟨c, rfl, by rwa [List.map_nil, List.append_nil]⟩
  | cons s segments ih =>
    obtain ⟨c', added, h'⟩ := addRow_gathers ho s h
    obtain ⟨c'', read, h''⟩ := ih h'
    refine ⟨c'', ?_, by rwa [List.append_assoc] at h''⟩
    rw [List.map_cons, List.foldlM_cons, added]
    exact read

/-- An index that no constraint owns is read from its columns, whatever they are called. -/
theorem describe_gathers (ho : i.owner = none) {segments : List Segment} (hk : i.key = .segments segments)
    (nonempty : segments ≠ []) :
    Constraints.ofIndexRows i.rows = .ok [i.describe] ∧ i.Gathers (segments.map (·.column)) i.describe := by
  obtain ⟨s, segments, rfl⟩ := List.exists_cons_of_ne_nil nonempty
  obtain ⟨c, first, h⟩ := addRow_gathers_first ho s
  obtain ⟨c', rest, h'⟩ := rows_gathered ho segments h
  have read : i.rows.foldlM Constraints.addRow [] = .ok [c'] := by
    rw [rows, hk]
    dsimp only
    rw [List.map_cons, List.foldlM_cons, first]
    exact rest
  rw [Constraints.ofIndexRows, describe, read]
  exact ⟨rfl, h'⟩

/-! Finding the columns again -/

theorem length_foldl_gather_le (names done : List String) :
    (names.foldl gather done).length ≤ done.length + names.length := by
  induction names generalizing done with
  | nil => exact Nat.le_refl _
  | cons name names ih =>
    have bound := ih (gather done name)
    rw [List.foldl_cons, List.length_cons]
    have step : (gather done name).length ≤ done.length + 1 := by
      rw [gather]
      split <;> simp
    omega

/-- None is left out exactly if none is blank and all are different. -/
theorem length_foldl_gather_iff (names done : List String) :
    (names.foldl gather done).length = done.length + names.length ↔
      (∀ n ∈ names, Text.trimmed n ≠ "" ∧ Text.lowercase (Text.trimmed n) ∉ done) ∧
        (names.map fun n => Text.lowercase (Text.trimmed n)).Nodup := by
  induction names generalizing done with
  | nil => simp
  | cons name names ih =>
    have bound := length_foldl_gather_le names done
    rw [List.foldl_cons, gather]
    split
    · next skipped =>
      refine iff_of_false (by rw [List.length_cons]; omega) fun ⟨kept, _⟩ => ?_
      have here := kept name List.mem_cons_self
      exact skipped.elim here.1 here.2
    · next kept =>
      rw [not_or] at kept
      have length : (done ++ [Text.lowercase (Text.trimmed name)]).length + names.length =
          done.length + (name :: names).length := by simp; omega
      rw [← length, ih]
      simp only [List.forall_mem_cons, List.map_cons, List.nodup_cons, List.mem_append, List.mem_singleton, List.mem_map,
        not_or, not_exists, not_and]
      constructor
      · rintro ⟨rest, nodup⟩
        exact ⟨⟨kept, fun n hn => ⟨(rest n hn).1, (rest n hn).2.1⟩⟩, fun n hn same => (rest n hn).2.2 same, nodup⟩
      · rintro ⟨⟨-, rest⟩, apart, nodup⟩
        exact ⟨fun n hn => ⟨(rest n hn).1, (rest n hn).2, fun same => apart n hn same⟩, nodup⟩

theorem foldl_gather_of_nodup {names done : List String}
    (kept : ∀ n ∈ names, Text.trimmed n ≠ "" ∧ Text.lowercase (Text.trimmed n) ∉ done)
    (nodup : (names.map fun n => Text.lowercase (Text.trimmed n)).Nodup) :
    names.foldl gather done = done ++ names.map fun n => Text.lowercase (Text.trimmed n) := by
  induction names generalizing done with
  | nil => simp
  | cons name names ih =>
    obtain ⟨fresh, nodup⟩ := List.nodup_cons.mp nodup
    have here := kept name List.mem_cons_self
    have next : gather done name = done ++ [Text.lowercase (Text.trimmed name)] :=
      if_neg (not_or.mpr ⟨here.1, here.2⟩)
    rw [List.foldl_cons, next, ih ?_ nodup, List.map_cons, List.append_assoc, List.singleton_append]
    intro n hn
    refine ⟨(kept n (List.mem_cons_of_mem name hn)).1, fun hm => ?_⟩
    rcases List.mem_append.mp hm with hm | hm
    · exact (kept n (List.mem_cons_of_mem name hn)).2 hm
    · exact fresh (List.mem_map.mpr ⟨n, hn, List.mem_singleton.mp hm⟩)

theorem all_zip_map (f : String → String) (p : String × String → Bool) (columns : List String) :
    ((columns.map f).zip columns).all p = true ↔ ∀ c ∈ columns, p (f c, c) = true := by
  induction columns with
  | nil => simp
  | cons c columns ih => simp [ih]

/-- The columns are told apart by what comes back of them, and each is known by it. -/
structure ColumnsReturn (e : Engine) (columns : List String) : Prop where
  known : ∀ c ∈ columns, Text.trimmed (catalogName e c) ≠ "" ∧ Constraint.sameColumn (returned e c) c = true
  apart : (columns.map (returned e)).Nodup

theorem ColumnsReturn.of_simple {e : Engine} (hs : ∀ c ∈ columns, Simple c ∧ c.toList.length ≤ e.identifierLimit)
    (nodup : (columns.map (catalogName e)).Nodup) : ColumnsReturn e columns where
  known c hc := by
    obtain ⟨simple, short⟩ := hs c hc
    rw [simple.canonical.trimmed]
    exact ⟨simple.canonical.ne_empty, simple.sameColumn_returned_iff.mpr short⟩
  apart := by
    have canonical : ∀ name ∈ columns.map (catalogName e), Identifier.Canonical e name := by
      intro name hn
      obtain ⟨c, hc, rfl⟩ := List.mem_map.mp hn
      exact (hs c hc).1.canonical
    have lowered := Identifier.nodup_lowercase canonical nodup
    rw [List.map_map] at lowered
    rwa [List.map_congr_left fun c hc => (hs c hc).1.returned_eq]

variable (e : Engine) (table : String) (unique : Bool)

theorem describe_created (nonempty : columns ≠ []) :
    Constraints.ofIndexRows (created e table columns unique).rows = .ok [(created e table columns unique).describe] ∧
      (created e table columns unique).Gathers (columns.map (catalogName e)) (created e table columns unique).describe := by
  have read := describe_gathers (i := created e table columns unique) rfl rfl
    (by rwa [Ne, List.map_eq_nil_iff])
  rwa [List.map_map] at read

theorem legible_created (nonempty : columns ≠ []) : (Listing.mk [created e table columns unique] []).Legible where
  indexes := by simpa using (describe_created e table unique nonempty).1
  checks := rfl

theorem described_created : (Listing.mk [created e table columns unique] []).described =
    [(created e table columns unique).describe] := by
  simp [Listing.described, Constraints.merge]

/-- The index is found by its columns exactly if they return. -/
theorem isIndexOver_created (nonempty : columns ≠ []) :
    Editor.isIndexOver columns unique (created e table columns unique).describe = true ↔ ColumnsReturn e columns := by
  have gathers := (describe_created e table unique nonempty).2
  have unique' : (created e table columns unique).describe.unique = unique := gathers.unique
  rw [Editor.isIndexOver, gathers.kind, unique', beq_self_eq_true, Bool.and_true, Constraint.covers, Bool.and_eq_true,
    beq_iff_eq, gathers.columns]
  have length := length_foldl_gather_iff (columns.map (catalogName e)) []
  rw [List.length_map, List.length_nil, Nat.zero_add, List.map_map] at length
  rw [length]
  have read (kept : ∀ n ∈ columns.map (catalogName e), Text.trimmed n ≠ "" ∧ Text.lowercase (Text.trimmed n) ∉ [])
      (nodup : (columns.map (returned e)).Nodup) :
      (columns.map (catalogName e)).foldl gather [] = columns.map (returned e) := by
    rw [foldl_gather_of_nodup kept (by rwa [List.map_map]), List.map_map]
    rfl
  constructor
  · rintro ⟨⟨kept, nodup⟩, same⟩
    rw [read kept nodup, all_zip_map] at same
    exact ⟨fun c hc => ⟨(kept _ (List.mem_map_of_mem hc)).1, same c hc⟩, nodup⟩
  · rintro ⟨known, apart⟩
    have kept : ∀ n ∈ columns.map (catalogName e), Text.trimmed n ≠ "" ∧ Text.lowercase (Text.trimmed n) ∉ [] := by
      intro n hn
      obtain ⟨c, hc, rfl⟩ := List.mem_map.mp hn
      exact ⟨(known c hc).1, List.not_mem_nil⟩
    refine ⟨⟨kept, apart⟩, ?_⟩
    rw [read kept apart, all_zip_map]
    exact fun c hc => (known c hc).2

end ListedIndex

namespace Statement

/-- What can be created by a name can be dropped by it. -/
theorem validate_dropIndex_of_createIndex {unique : Bool} {name table : Identifier} {columns : List Identifier}
    (h : (createIndex unique name table columns).fragment.validate = .ok ()) :
    (dropIndex name).fragment.validate = .ok () := by
  have head : Fragment.Closed ("CREATE " ++ (if unique then "UNIQUE " else "") ++ "INDEX ").toList := by
    cases unique <;> exact ⟨by decide, by decide⟩
  have drop : Fragment.Closed "DROP INDEX ".toList := ⟨by decide, by decide⟩
  rw [fragment, Fragment.validate_sql, createIndexHead] at h
  rw [fragment, Fragment.validate_sql]
  rw [String.toList_append, Fragment.countFrom_append, drop.count, drop.scan]
  generalize "CREATE " ++ (if unique then "UNIQUE " else "") ++ "INDEX " = created at h head
  simp only [String.toList_append, List.append_assoc, Fragment.countFrom_append, head.count, head.scan] at h
  omega

end Statement

namespace Editor

open ListedIndex (created)

variable {ed : Editor σ} {table : String} {columns : List String} {unique : Bool} {listing : σ → Listing}
variable {x : State (Noted σ Entry)}

theorem onLink_of_ok {y : Action σ α} {x : State σ} {a : α} {t : σ} (h : y x.base.link = (.ok a, t)) :
    ∃ z, onLink y x = (.ok a, z) := by
  rw [onLink, onBase, Action.within_apply, Cached.onLink, Action.within_apply, h]
  exact ⟨_, rfl⟩

theorem expressionIndex?_created {c : Cursor σ} {e : Engine} {s : σ} (hl : Lists c (catalogName e table) listing)
    (hv : Serves c) (listed : listing s = ⟨[created e table columns unique], []⟩) (source : String) :
    ∃ t, expressionIndex? c e table source s = (.ok none, t) := by
  obtain ⟨rows, t, asked⟩ := hv.ask (.expressionIndexes (catalogName e table)) s
  obtain rfl := hl.expressions _ _ _ asked
  refine ⟨t, (Action.bind_of_ok asked).trans ?_⟩
  rw [listed]
  rfl

/-- Where the catalog lists just the created index, the columns are looked for, and what is found is dropped by the name
that came back. -/
theorem dropIndexOver_created (ed : Editor σ) (unique : Bool)
    (hl : Lists ed.cursor (catalogName ed.engine table) listing) (hv : Serves ed.cursor)
    (nonempty : columns ≠ []) (listed : listing x.base.link.link = ⟨[created ed.engine table columns unique], []⟩)
    (hx : Recalls (listing ·.link) table x) :
    ∃ y xs, Passes ed.emitted x y xs ∧ changes xs = [] ∧
      ed.traced.dropIndexOver table columns unique x =
        if isIndexOver columns unique (created ed.engine table columns unique).describe then
          ed.traced.run table
            (.dropIndex (ed.quote (returned ed.engine (derivedName ed.engine table columns (indexSuffix unique))))) y
        else (.error (.catalogInconsistency (.missingIndex unique table columns)), y) := by
  have legible : (listing x.base.link.link).Legible := listed ▸ ListedIndex.legible_created _ _ _ nonempty
  have gathers := (ListedIndex.describe_created ed.engine table unique nonempty).2
  have lists := hl.traced
  obtain ⟨found, z, searched⟩ : (ed.traced.constraintsWhere table (isIndexOver columns unique)).Succeeds x :=
    constraintsWhere_succeeds lists hv.traced legible _
  obtain ⟨xs, passes, quiet, -⟩ := constraintsWhere_emits _ x found z searched
  obtain ⟨rfl, same⟩ := constraintsWhere_ok lists legible hx searched
  rw [dropIndexOver, Action.bind_of_ok searched, listed, ListedIndex.described_created]
  rw [listed] at same
  cases isOver : isIndexOver columns unique (created ed.engine table columns unique).describe with
  | true =>
    refine ⟨z, xs, passes, quiet, ?_⟩
    have statement : ed.traced.dropStatement table (created ed.engine table columns unique).describe =
        .dropIndex (ed.quote (returned ed.engine (derivedName ed.engine table columns (indexSuffix unique)))) := by
      rw [dropStatement, gathers.kind, gathers.name]
      rfl
    simp only [List.filter_cons, isOver, if_true, List.filter_nil, List.isEmpty_cons, Bool.false_eq_true, if_false,
      Action.forEach, dropConstraint, statement]
    exact congrFun (Action.bind_pure _) z
  | false =>
    -- Nothing is found by the columns, and no index is computed by an expression.
    obtain ⟨link, nothing⟩ := expressionIndex?_created lists hv.traced same (ed.engine.hashSource columns)
    obtain ⟨w, looked⟩ := onLink_of_ok nothing
    obtain ⟨ys, passes', quiet', -⟩ := expressionIndex?_emits _ z _ w looked
    refine ⟨w, xs ++ ys, passes.trans passes', by rw [Exchange.changes_append, quiet, quiet']; rfl, ?_⟩
    simp only [List.filter_cons, isOver, Bool.false_eq_true, if_false, List.filter_nil, List.isEmpty_nil, if_true]
    exact Action.bind_of_ok looked

theorem alterTogether_one {ed : Editor σ} {m : Model} {old new : List (List String)}
    (removed : old.filter (!new.contains ·) = [columns]) (kept : new.filter (!old.contains ·) = []) :
    ed.alterTogether unique m old new = ed.dropIndexOver m.table columns unique := by
  rw [alterTogether, removed, kept]
  exact (Action.bind_pure _).trans (Action.bind_pure _)

/-- The name in the one statement of some entries that drops an index. -/
def droppedIndexes (entries : List Entry) : List Identifier :=
  entries.filterMap fun
    | .sent (.dropIndex name) => some name
    | _ => none

theorem droppedIndexes_entries {xs : List Exchange} {name : Identifier} (h : changes xs = [.dropIndex name]) :
    droppedIndexes (xs.flatMap Exchange.entries) = [name] := by
  have same (xs : List Exchange) : droppedIndexes (xs.flatMap Exchange.entries) =
      droppedIndexes ((changes xs).map .sent) := by
    induction xs with
    | nil => rfl
    | cons exchange xs ih =>
      cases exchange with
      | change s =>
        rw [List.flatMap_cons, droppedIndexes, List.filterMap_append]
        exact (congrArg _ ih).trans List.filterMap_append.symm
      | question q rows => exact ih
  rw [same, h]
  rfl

/-- How an index comes back: its columns are found again, and its name means the same identifier. -/
structure Returns (e : Engine) (table : String) (columns : List String) (unique : Bool) : Prop where
  found : ListedIndex.ColumnsReturn e columns
  named : Identifier.quote e (returned e (derivedName e table columns (indexSuffix unique))) =
    Identifier.quote e (derivedName e table columns (indexSuffix unique))

/-- Where the catalog lists just the index that was created over some columns, they are no longer indexed together after
dropping the identifier under which it was created, exactly if the columns and the name come back. -/
theorem alterTogether_drops_created_iff {m : Model} (hl : Lists ed.cursor (catalogName ed.engine m.table) listing)
    (hv : Serves ed.cursor) {old new : List (List String)} (removed : old.filter (!new.contains ·) = [columns])
    (kept : new.filter (!old.contains ·) = []) (nonempty : columns ≠ [])
    (valid : (Statement.createIndex unique (ed.quote (derivedName ed.engine m.table columns (indexSuffix unique)))
      (ed.quote m.table) (ed.quoteAll columns)).fragment.validate = .ok ())
    (listed : listing x.base.link.link = ⟨[created ed.engine m.table columns unique], []⟩)
    (hx : Recalls (listing ·.link) m.table x) :
    (∃ y xs, ed.traced.alterTogether unique m old new x = (.ok (), y) ∧ Passes ed.emitted x y xs ∧
        changes xs = [.dropIndex (ed.quote (derivedName ed.engine m.table columns (indexSuffix unique)))]) ↔
      Returns ed.engine m.table columns unique := by
  obtain ⟨z, xs, passes, quiet, dropped⟩ := dropIndexOver_created ed unique hl hv nonempty listed hx
  rw [alterTogether_one removed kept, dropped]
  constructor
  · rintro ⟨y, ys, done, passes', drops⟩
    split at done
    · next isOver =>
      refine ⟨(ListedIndex.isIndexOver_created _ _ _ nonempty).mp isOver, ?_⟩
      obtain ⟨zs, passes'', sent, -⟩ := run_emits m.table _ z () y done
      have whole := List.append_cancel_left (passes'.symm.trans (passes.trans passes''))
      have all : changes (xs ++ zs) = changes zs := by rw [Exchange.changes_append, quiet, List.nil_append]
      have names := droppedIndexes_entries (all.trans sent)
      rw [← whole, droppedIndexes_entries drops] at names
      exact (List.singleton_inj.mp names).symm
    · exact absurd (congrArg Prod.fst done) (by simp)
  · rintro ⟨found, named⟩
    rw [if_pos ((ListedIndex.isIndexOver_created _ _ _ nonempty).mpr found)]
    have statement : ed.quote (returned ed.engine (derivedName ed.engine m.table columns (indexSuffix unique))) =
        ed.quote (derivedName ed.engine m.table columns (indexSuffix unique)) := named
    rw [statement]
    have serves : Serves ed.traced.cursor := hv.traced
    obtain ⟨_, y, done⟩ := serves.run rfl (Statement.validate_dropIndex_of_createIndex valid) m.table z
    obtain ⟨zs, passes', sent, -⟩ := run_emits m.table _ z () y done
    refine ⟨y, xs ++ zs, done, passes.trans passes', ?_⟩
    rw [Exchange.changes_append, quiet, sent]
    rfl

/-- Simple names within the limit come back. -/
theorem Returns.of_simple {e : Engine} (ht : Simple table)
    (hs : ∀ c ∈ columns, Simple c ∧ c.toList.length ≤ e.identifierLimit) (nodup : (columns.map (catalogName e)).Nodup) :
    Returns e table columns unique where
  found := .of_simple hs nodup
  named := by
    have suffix : ∀ c ∈ (indexSuffix unique).toList, Text.Visible c := by
      cases unique <;> exact Text.visible_of_all (by decide)
    exact (Identifier.simple_derivedName ht (fun c hc => (hs c hc).1) suffix).quote_returned

end Editor

namespace Shelf

/-- The connection where one index was created over some columns of the books. -/
def holding (e : Engine) (columns : List String) : Editor.State (Noted Shelf Entry) :=
  .ofBase ⟨⟨⟨⟨[ListedIndex.created e "book" columns true], []⟩, []⟩, []⟩, .empty⟩

theorem recalls_holding (e : Engine) (columns : List String) :
    Editor.Recalls (·.link.listing) "book" (holding e columns) := by rintro _ ⟨⟩

/-- An editor for an engine with short identifiers. -/
def oldEditor : Editor Shelf := { editor with engine := ⟨⟨2, 5, 9, 0⟩⟩ }

/-- A column with a name over the limit of that engine. -/
def longColumn : String := "reviewer_of_the_second_printed_edition"

end Shelf

theorem Editor.alterTogether_drops_created_book :
    ∃ y xs, Shelf.editor.traced.alterTogether true Shelf.model [["title", "author"]] []
        (Shelf.holding Shelf.editor.engine ["title", "author"]) = (.ok (), y) ∧
      Passes Shelf.editor.emitted (Shelf.holding Shelf.editor.engine ["title", "author"]) y xs ∧
      changes xs = [.dropIndex (Shelf.editor.quote (derivedName Shelf.editor.engine "book" ["title", "author"] "_uniq"))] :=
  have removed : [["title", "author"]].filter (!([] : List (List String)).contains ·) = [["title", "author"]] := rfl
  have valid : (Statement.createIndex true
      (Shelf.editor.quote (derivedName Shelf.editor.engine "book" ["title", "author"] "_uniq")) (Shelf.editor.quote "book")
      (Shelf.editor.quoteAll ["title", "author"])).fragment.validate = .ok () := Fragment.validate_sql.mpr (by decide +kernel)
  (Editor.alterTogether_drops_created_iff (m := Shelf.model) (Shelf.lists _) Shelf.serves removed rfl (by decide) valid rfl
    (Shelf.recalls_holding _ _)).mpr (.of_simple (by decide) Shelf.simple (by decide +kernel))

/-- The index over a column with a long name can be created, and is not found again. -/
theorem Editor.alterTogether_misses_long :
    (Statement.createIndex true (Shelf.oldEditor.quote (derivedName Shelf.oldEditor.engine "book" [Shelf.longColumn] "_uniq"))
        (Shelf.oldEditor.quote "book") (Shelf.oldEditor.quoteAll [Shelf.longColumn])).fragment.validate = .ok () ∧
      (Shelf.oldEditor.traced.alterTogether true Shelf.model [[Shelf.longColumn]] []
          (Shelf.holding Shelf.oldEditor.engine [Shelf.longColumn])).1 =
        .error (.catalogInconsistency (.missingIndex true "book" [Shelf.longColumn])) := by
  refine ⟨Fragment.validate_sql.mpr (by decide +kernel), ?_⟩
  have lost : ¬ListedIndex.ColumnsReturn Shelf.oldEditor.engine [Shelf.longColumn] := by
    intro h
    have simple : Simple Shelf.longColumn := by decide
    have short := simple.sameColumn_returned_iff.mp (h.known _ (List.mem_singleton_self _)).2
    exact absurd short (by decide)
  obtain ⟨y, xs, -, -, missed⟩ := dropIndexOver_created Shelf.oldEditor true (Shelf.lists _) Shelf.serves
    (List.cons_ne_nil _ _) rfl (Shelf.recalls_holding Shelf.oldEditor.engine [Shelf.longColumn])
  rw [if_neg ((not_congr (ListedIndex.isIndexOver_created _ _ _ (List.cons_ne_nil _ _))).mpr lost)] at missed
  have removed : [[Shelf.longColumn]].filter (!([] : List (List String)).contains ·) = [[Shelf.longColumn]] := rfl
  rw [alterTogether_one (m := Shelf.model) removed rfl]
  exact congrArg Prod.fst missed

end FirebirdSql
