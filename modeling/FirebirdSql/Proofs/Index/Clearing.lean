import FirebirdSql.Proofs.Editor.Creation
import FirebirdSql.Proofs.Editor.Emission
import FirebirdSql.Proofs.Shadow.Reading

/-!
A field is removed from a table that has the indexes of its model. Those that the catalog lists for the column are
dropped before the column is, under the names by which they are read. An index over the hash of its columns has an
expression and no column of its own, so it is listed for none and stays.
-/

namespace FirebirdSql

open Action (Keeps Triple)
open Exchange (changes)

/-- An index that was made over some columns, or over their hash. -/
structure MadeIndex where
  name : Identifier
  columns : List Identifier
  hashed : Bool
  deriving DecidableEq

namespace MadeIndex

/-- The columns that the catalog has for the index. -/
def segments (i : MadeIndex) : List String := if i.hashed then [] else i.columns.map (·.stored)

/-- The column is one of those that the index is computed from. -/
def isOver (column : Identifier) (i : MadeIndex) : Bool := (i.columns.map (·.stored)).contains column.stored

/-- What is read of an index when those on a column are listed. -/
def rows (column : String) (i : MadeIndex) : List Row :=
  (i.segments.filter (· == column)).map fun _ => ⟨[.text i.name.stored]⟩

/-- The name by which the index is read. -/
def returned (i : MadeIndex) : String := Text.lowercase (Text.trimmed i.name.stored)

/-- The catalog lists the index for the column of this name. -/
structure IsFound (e : Engine) (table column : String) (i : MadeIndex) : Prop where
  table : Identifier.catalogName e table = (Identifier.quote e table).stored
  column : Identifier.catalogName e column ∈ i.segments

variable {i : MadeIndex} {column : String} {r : Row}

theorem mem_rows : r ∈ i.rows column ↔ column ∈ i.segments ∧ r = ⟨[.text i.name.stored]⟩ := by
  simp only [rows, List.mem_map, List.mem_filter, beq_iff_eq]
  constructor
  · rintro ⟨_, ⟨hs, rfl⟩, rfl⟩
    exact ⟨hs, rfl⟩
  · rintro ⟨hs, rfl⟩
    exact ⟨column, ⟨hs, rfl⟩, rfl⟩

theorem mem_segments : column ∈ i.segments ↔ i.hashed = false ∧ column ∈ i.columns.map (·.stored) := by
  unfold segments
  cases i.hashed <;> simp

/-- The answer of a catalog that has just these indexes of one table. -/
def reply (table : String) (made : List MadeIndex) (relation column : String) : List Row :=
  if relation = table then made.flatMap (·.rows column) else []

theorem mem_reply {e : Engine} {table column : String} {made : List MadeIndex} :
    r ∈ reply (Identifier.quote e table).stored made (Identifier.catalogName e table) (Identifier.catalogName e column) ↔
      ∃ i ∈ made, i.IsFound e table column ∧ r = ⟨[.text i.name.stored]⟩ := by
  unfold reply
  split
  · next known =>
    simp only [List.mem_flatMap, mem_rows]
    constructor
    · rintro ⟨i, hi, listed, rfl⟩
      exact ⟨i, hi, ⟨known, listed⟩, rfl⟩
    · rintro ⟨i, hi, found, rfl⟩
      exact ⟨i, hi, found.column, rfl⟩
  · next unknown =>
    simp only [List.not_mem_nil, false_iff]
    rintro ⟨i, -, found, -⟩
    exact unknown found.table

end MadeIndex

namespace Statement

/-- The index that the statement makes, or the other one over the hash of the same columns. -/
def made? (hashed : Bool) : Statement → Option MadeIndex
  | .createIndex _ name _ columns => some ⟨name, columns, hashed⟩
  | _ => none

/-- The statement drops something that comes with no index, or with one of its own. -/
def sparesIndexes : Statement → Bool
  | .dropConstraint .. | .dropSequence _ | .dropTrigger _ => true
  | _ => false

end Statement

/-- The indexes of a model when it was created. For some of the statements the key was too long. -/
def Model.madeIndexes (e : Engine) (m : Model) (tooLong : Statement → Bool) : List MadeIndex :=
  (m.creation e).filterMap fun s => s.made? (tooLong s)

namespace Editor

/-- An engine with some indexes of a table that no constraint owns, and with no other ones. Neither what is asked nor a
statement that has nothing to do with them changes them, and they are listed by the columns that the catalog has for
them. -/
structure Stocks (ed : Editor σ) (table : String) (stock : σ → List MadeIndex) : Prop where
  asks : ∀ q s, stock (Catalog.ask ed.cursor q s).2 = stock s
  sends : ∀ statement s t, statement.sparesIndexes = true → ed.send statement s = (.ok (), t) → stock t = stock s
  lists : ∀ relation column s rows t, Catalog.ask ed.cursor (.columnIndexes relation column) s = (.ok rows, t) →
    rows.Perm (MadeIndex.reply (ed.quote table).stored (stock s) relation column)

/-- If the step succeeds, it keeps `I` and has sent only statements that spare the indexes. -/
structure Spares (ed : Editor σ) (I : State (Noted σ Entry) → Prop) (y : Edit (Noted σ Entry) α) : Prop where
  sends : Sends Statement.sparesIndexes ed.emitted y
  keeps : Triple I y (fun _ => I) fun _ _ => True

variable {ed : Editor σ} {table : String} {stock : σ → List MadeIndex} {made : List MadeIndex}

namespace Spares

variable {I : State (Noted σ Entry) → Prop} {y : Edit (Noted σ Entry) α}

theorem of_quiet (quiet : Quiet ed.emitted y) (keeps : Keeps I y) : ed.Spares I y :=
  ⟨.of_quiet quiet, keeps.ending fun _ _ _ => trivial⟩

theorem pure (a : α) : ed.Spares I (Pure.pure a) := of_quiet .pure (.pure a)

theorem bind {f : α → Edit (Noted σ Entry) β} (hy : ed.Spares I y) (hf : ∀ a, ed.Spares I (f a)) :
    ed.Spares I (y >>= f) :=
  ⟨hy.sends.bind fun a => (hf a).sends, hy.keeps.bind fun a => (hf a).keeps⟩

theorem ite {c : Prop} [Decidable c] {z : Edit (Noted σ Entry) α} (hy : c → ed.Spares I y) (hz : ¬c → ed.Spares I z) :
    ed.Spares I (if c then y else z) := by
  split
  · next h => exact hy h
  · next h => exact hz h

theorem forEach {f : α → Edit (Noted σ Entry) Unit} {as : List α} (h : ∀ a ∈ as, ed.Spares I (f a)) :
    ed.Spares I (Action.forEach f as) := by
  induction as with
  | nil => exact pure ()
  | cons a as ih => exact (h a List.mem_cons_self).bind fun _ => ih fun b hb => h b (List.mem_cons_of_mem a hb)

end Spares

/-- The table has these indexes. -/
def HasStock (stock : σ → List MadeIndex) (made : List MadeIndex) (x : State (Noted σ ε)) : Prop :=
  stock x.base.link.link = made

namespace Stocks

variable (hs : Stocks ed table stock)

include hs

theorem ask_keeps (q : CatalogQuery) : Keeps (HasStock stock made) (onLink (Catalog.ask ed.traced.cursor q)) := by
  intro x hx
  have link := (ed.cursor.ask_follows q x.base.link).2
  exact ((congrArg stock link).trans (hs.asks q _)).trans hx

theorem run_spares (t : String) {s : Statement} (spares : s.sparesIndexes = true) :
    ed.Spares (HasStock stock made) (ed.traced.run t s) := by
  refine ⟨(run_emits t s).mono ?_, fun x hx => ?_⟩
  · rintro - ss keys ⟨rfl, rfl⟩
    exact ⟨List.forall_mem_singleton.mpr spares, rfl⟩
  rw [run_apply, execute, Action.bind_apply, Action.lift_apply]
  cases s.fragment.validate with
  | error e => exact Action.ends_error.mpr trivial
  | ok _ =>
    dsimp only
    split
    · exact Action.ends_ok.mpr hx
    · rw [onLink, onBase, Action.within_apply, Catalog.Cached.onLink, Action.within_apply]
      cases sent : ed.traced.send s x.base.link with
      | mk r link =>
        cases r with
        | error e => exact Action.ends_error.mpr trivial
        | ok _ =>
          have plain := (ed.noting_send_follows _ _ s).eq_of_ok sent
          exact Action.ends_ok.mpr ((hs.sends s _ _ spares plain).trans hx)

theorem dropCounting_spares (t : String) : ed.Spares (HasStock stock made) (ed.traced.dropCounting t) := by
  have asked (q : CatalogQuery) (f : List Row → Bool) :
      Keeps (HasStock stock made) (onLink (Catalog.ask ed.traced.cursor q >>= fun rows => pure (f rows))) := by
    rw [onLink_bind]
    exact (hs.ask_keeps q).bind fun rows => .pure _
  have trigger : ed.Spares (HasStock stock made) (ed.traced.triggerExists t) :=
    .of_quiet triggerExists_emits (Runner.unlessCollecting (asked _ _))
  have sequence : ed.Spares (HasStock stock made) (ed.traced.sequenceExists t) :=
    .of_quiet sequenceExists_emits (Runner.unlessCollecting (asked _ _))
  refine Spares.bind (trigger.bind fun _ => ?_) fun _ => sequence.bind fun _ => ?_
  · exact .ite (fun _ => hs.run_spares t rfl) fun _ => .pure ()
  · exact .ite (fun _ => hs.run_spares t rfl) fun _ => .pure ()

theorem dropForeignKeys_spares (t column : String) :
    ed.Spares (HasStock stock made) (ed.traced.dropWhere t (isForeignKeyOn column)) := by
  have read : ed.Spares (HasStock stock made) (onBase (Catalog.Cached.constraints ed.traced.cursor ed.traced.engine t)) :=
    .of_quiet constraints_emits (keeps_constraints (fun _ _ => id) hs.ask_keeps _ t)
  unfold dropWhere constraintsWhere
  rw [bind_assoc]
  refine read.bind fun cs => Spares.forEach fun c hc => ?_
  have kind : c.kind = .foreignKey := by
    have selected := (List.mem_filter.mp hc).2
    simp only [isForeignKeyOn, Bool.and_eq_true, beq_iff_eq] at selected
    exact selected.1
  refine hs.run_spares t ?_
  rw [dropStatement, kind]
  rfl

/-- An index is listed by its name, in lower case, if the catalog has the column for it. -/
theorem mem_columnIndexes {column : String} {names : List String} {s t : Noted σ Entry}
    (h : Catalog.columnIndexes ed.traced.cursor ed.engine table column s = (.ok names, t)) (name : String) :
    name ∈ names ↔ ∃ i ∈ stock s.link, i.IsFound ed.engine table column ∧ name = i.returned := by
  obtain ⟨rows, u, asked, h⟩ := Action.bind_ok h
  obtain ⟨read, -⟩ := Prod.mk.inj h
  have perm := hs.lists _ _ _ _ _ (ed.cursor.ask_plain asked)
  let nameOf (r : Row) : String := ((Text.lowercase <$> r.getName 0).toOption).getD ""
  have each : ∀ r ∈ rows, (Text.lowercase <$> r.getName 0) = Except.ok (nameOf r) := by
    intro r hr
    obtain ⟨i, -, -, rfl⟩ := MadeIndex.mem_reply.mp (perm.mem_iff.mp hr)
    rfl
  rw [Shadow.Reading.mapM_ok each] at read
  obtain rfl := Except.ok.inj read
  rw [List.mem_map]
  constructor
  · rintro ⟨r, hr, rfl⟩
    obtain ⟨i, hi, found, rfl⟩ := MadeIndex.mem_reply.mp (perm.mem_iff.mp hr)
    exact ⟨i, hi, found, rfl⟩
  · rintro ⟨i, hi, found, rfl⟩
    exact ⟨_, perm.mem_iff.mpr (MadeIndex.mem_reply.mpr ⟨i, hi, found, rfl⟩), rfl⟩

end Stocks

/-- What a success sends: first what has nothing to do with the indexes, then the drop of each that is listed for the
column, then that of the column. -/
theorem Stocks.removeField_ok {m : Model} {f : Field} {x y : State (Noted σ Entry)} (hs : Stocks ed m.table stock)
    (h : ed.traced.removeField m f x = (.ok (), y)) : ∃ xs aside, ∃ names : List String, Passes ed.emitted x y xs ∧
      changes xs = aside ++ names.map (fun name => Statement.dropIndex (ed.quote name)) ++
        [.dropColumn (ed.quote m.table) (ed.quote f.column)] ∧
      (∀ s ∈ aside, s.sparesIndexes = true) ∧
      ∀ name, name ∈ names ↔ ∃ i ∈ stock x.base.link.link, i.IsFound ed.engine m.table f.column ∧ name = i.returned := by
  have first : ed.Spares (HasStock stock (stock x.base.link.link))
      ((if f.type.isAuto then ed.traced.dropCounting m.table else pure ()) >>= fun _ =>
        ed.traced.dropWhere m.table (isForeignKeyOn f.column)) :=
    (Spares.ite (fun _ => hs.dropCounting_spares m.table) fun _ => .pure ()).bind fun _ =>
      hs.dropForeignKeys_spares m.table f.column
  have steps : ed.traced.removeField m f =
      ((if f.type.isAuto then ed.traced.dropCounting m.table else pure ()) >>= fun _ =>
        ed.traced.dropWhere m.table (isForeignKeyOn f.column)) >>= fun _ => (do
        let names ← onLink (Catalog.columnIndexes ed.traced.cursor ed.traced.engine m.table f.column)
        ed.traced.runAll m.table (names.map fun name => .dropIndex (ed.quote name))
        ed.traced.run m.table (.dropColumn (ed.quote m.table) (ed.quote f.column))
        ed.traced.refresh) := by
    rw [bind_assoc]
    unfold removeField
    split <;> rfl
  rw [steps] at h
  obtain ⟨_, u, cleared, h⟩ := Action.bind_ok h
  obtain ⟨names, v, read, h⟩ := Action.bind_ok h
  obtain ⟨_, w, dropped, h⟩ := Action.bind_ok h
  obtain ⟨_, z, removed, h⟩ := Action.bind_ok h
  have stocked := (first.keeps x rfl).of_ok () u cleared
  obtain ⟨aside, toAside, only, -⟩ := first.sends x () u cleared
  obtain ⟨asked, toAsked, quiet, -⟩ := columnIndexes_emits f.column u names v read
  obtain ⟨drops, toDrops, indexes, -⟩ := Leaves.forEach (run_emits m.table) _ v () w dropped
  obtain ⟨last, toLast, column, -⟩ := run_emits m.table _ w () z removed
  obtain ⟨rest, toRest, still, -⟩ := refresh_emits z () y h
  refine ⟨aside ++ asked ++ drops ++ last ++ rest, changes aside, names,
    (((toAside.trans toAsked).trans toDrops).trans toLast).trans toRest, ?_, only, ?_⟩
  · simp only [Exchange.changes_append, quiet, indexes, column, still, List.append_nil, List.map_id']
  · rw [← stocked]
    exact hs.mem_columnIndexes (onLink_ok read)

/-- A field is removed from a table that has the indexes of its model, any of them over hashes. The column is dropped
last. Before it, an index is dropped exactly if one that the catalog lists for the column is read under its name, as a
rule itself. None over a hash is listed, and those over the column itself are, as long as the quoted names of the table
and of the column denote what the catalog is asked for. -/
theorem removeField_drops_index_iff {m : Model} {f : Field} {x y : State (Noted σ Entry)}
    (hs : Stocks ed m.table stock) (tooLong : Statement → Bool)
    (created : stock x.base.link.link = m.madeIndexes ed.engine tooLong)
    (h : ed.traced.removeField m f x = (.ok (), y)) :
    ∃ xs before, Passes ed.emitted x y xs ∧
      changes xs = before ++ [.dropColumn (ed.quote m.table) (ed.quote f.column)] ∧
      (∀ table column, .dropColumn table column ∉ before) ∧
      ∀ i ∈ m.madeIndexes ed.engine tooLong,
        ((∃ name, .dropIndex name ∈ before ∧ name.stored = i.name.stored) ↔
          ∃ j ∈ m.madeIndexes ed.engine tooLong, j.hashed = false ∧
            Identifier.catalogName ed.engine m.table = (ed.quote m.table).stored ∧
            Identifier.catalogName ed.engine f.column ∈ j.columns.map (·.stored) ∧
            (ed.quote j.returned).stored = i.name.stored) := by
  obtain ⟨xs, aside, names, passes, sent, only, listed⟩ := hs.removeField_ok h
  rw [created] at listed
  refine ⟨xs, _, passes, sent, fun table column hm => ?_, fun i _ => ?_⟩
  · rcases List.mem_append.mp hm with hm | hm
    · exact absurd (only _ hm) Bool.false_ne_true
    · obtain ⟨name, -, same⟩ := List.mem_map.mp hm
      cases same
  have dropped (name : Identifier) : Statement.dropIndex name ∈
      aside ++ names.map (fun name => Statement.dropIndex (ed.quote name)) ↔ ∃ n ∈ names, ed.quote n = name := by
    simp only [List.mem_append, List.mem_map, Statement.dropIndex.injEq]
    exact ⟨fun hm => hm.resolve_left fun hm => absurd (only _ hm) Bool.false_ne_true, .inr⟩
  constructor
  · rintro ⟨_, hm, same⟩
    obtain ⟨name, hn, rfl⟩ := (dropped _).mp hm
    obtain ⟨j, hj, found, rfl⟩ := (listed name).mp hn
    obtain ⟨direct, column⟩ := MadeIndex.mem_segments.mp found.column
    exact ⟨j, hj, direct, found.table, column, same⟩
  · rintro ⟨j, hj, direct, table, column, same⟩
    have found : j.IsFound ed.engine m.table f.column := ⟨table, MadeIndex.mem_segments.mpr ⟨direct, column⟩⟩
    exact ⟨_, (dropped _).mpr ⟨_, (listed _).mpr ⟨j, hj, found, rfl⟩, rfl⟩, same⟩

end Editor

namespace Clearing

def engine : Engine := ⟨⟨3, 0, 0, 0⟩⟩

def title : Field := .ofType "title" (.char 2000)

/-- Books have an index over their titles, and one over titles and authors. -/
def books : Model :=
  ⟨"book", [title, .ofType "author" .integer], [], [], [⟨"by_title", ["title"]⟩, ⟨"by_work", ["title", "author"]⟩]⟩

/-- Their indexes, which are over hashes if titles are too long for a key. -/
def indexes (tooLong : Bool) : List MadeIndex := books.madeIndexes engine fun _ => tooLong

/-- An engine whose catalog has these indexes and nothing else. -/
def editor (tooLong : Bool) : Editor (List Row) where
  cursor := Catalog.clerk fun
    | .columnIndexes relation column =>
      MadeIndex.reply (Identifier.quote engine books.table).stored (indexes tooLong) relation column
    | _ => []
  engine := engine
  options := Options.standard
  collects := false

def start : Editor.State (Noted (List Row) Entry) := .ofBase ⟨⟨[], []⟩, .empty⟩

theorem stocks (tooLong : Bool) : (editor tooLong).Stocks books.table fun _ => indexes tooLong where
  asks _ _ := rfl
  sends _ _ _ _ _ := rfl
  lists relation column s rows t asked := by
    obtain rfl := Except.ok.inj (congrArg Prod.fst asked)
    exact List.Perm.refl _

theorem removeField_ok (tooLong : Bool) : ((editor tooLong).traced.removeField books title start).1 = .ok () := by
  cases tooLong <;> decide +kernel

theorem over_title (tooLong : Bool) :
    (indexes tooLong).length = 2 ∧ ∀ i ∈ indexes tooLong, i.isOver (.quote engine "title") = true := by
  cases tooLong <;> decide +kernel

end Clearing

/-- Where no title is too long, both indexes are dropped before the column of the titles. -/
theorem Editor.removeField_drops_index_book :
    ∃ y xs before, (Clearing.editor false).traced.removeField Clearing.books Clearing.title Clearing.start = (.ok (), y) ∧
      Passes (Clearing.editor false).emitted Clearing.start y xs ∧
      changes xs = before ++ [.dropColumn (.quote Clearing.engine "book") (.quote Clearing.engine "title")] ∧
      (Clearing.indexes false).length = 2 ∧
      (∀ i ∈ Clearing.indexes false, i.isOver (.quote Clearing.engine "title") = true) ∧
      ∀ i ∈ Clearing.indexes false, ∃ name, .dropIndex name ∈ before ∧ name.stored = i.name.stored := by
  have listed : ∀ i ∈ Clearing.indexes false, i.hashed = false ∧
      Identifier.catalogName Clearing.engine "book" = (Identifier.quote Clearing.engine "book").stored ∧
      Identifier.catalogName Clearing.engine "title" ∈ i.columns.map (·.stored) ∧
      (Identifier.quote Clearing.engine i.returned).stored = i.name.stored := by decide +kernel
  have done : (Clearing.editor false).traced.removeField Clearing.books Clearing.title Clearing.start = (.ok (), _) :=
    Prod.ext (Clearing.removeField_ok false) rfl
  obtain ⟨xs, before, passes, sent, -, dropped⟩ :=
    removeField_drops_index_iff (Clearing.stocks false) (fun _ => false) rfl done
  obtain ⟨two, computed⟩ := Clearing.over_title false
  exact ⟨_, xs, before, done, passes, sent, two, computed, fun i hi => (dropped i hi).mpr ⟨i, hi, listed i hi⟩⟩

/-- Where they are too long, neither index is dropped, but the column of the titles is. -/
theorem Editor.removeField_leaves_index :
    (Clearing.editor true).Stocks Clearing.books.table (fun _ => Clearing.indexes true) ∧
      (Clearing.indexes true).length = 2 ∧
      (∀ i ∈ Clearing.indexes true, i.isOver (.quote Clearing.engine "title") = true) ∧
      ∃ y, (Clearing.editor true).traced.removeField Clearing.books Clearing.title Clearing.start = (.ok (), y) ∧
        Entry.sent (.dropColumn (.quote Clearing.engine "book") (.quote Clearing.engine "title")) ∈
          (Clearing.editor true).emitted y ∧
        ∀ name, Entry.sent (.dropIndex name) ∉ (Clearing.editor true).emitted y := by
  have noted : (Clearing.editor true).emitted
      ((Clearing.editor true).traced.removeField Clearing.books Clearing.title Clearing.start).2 =
      [.sent (.catalog (.indexes "BOOK")), .answered [], .sent (.catalog (.checks "BOOK")), .answered [],
        .sent (.catalog (.columnIndexes "BOOK" "TITLE")), .answered [],
        .sent (.dropColumn (.quote Clearing.engine "book") (.quote Clearing.engine "title"))] := by decide +kernel
  obtain ⟨two, computed⟩ := Clearing.over_title true
  refine ⟨Clearing.stocks true, two, computed, _, Prod.ext (Clearing.removeField_ok true) rfl, ?_⟩
  rw [noted]
  simp

end FirebirdSql
