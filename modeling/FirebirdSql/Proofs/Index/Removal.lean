import FirebirdSql.Proofs.Index.Found

/-!
What is dropped where columns are no longer indexed together. The index is found by its columns, so it goes together
with every other one of its kind over the same columns; one over the hash of the columns is found by its expression.
-/

namespace FirebirdSql

open Catalog
open Identifier (Canonical Simple catalogName closed_ofStored ofStored)
open Exchange (changes)
open Action (Keeps)

theorem Statement.validate_dropIndex (name : String) :
    (Statement.dropIndex (ofStored name)).fragment.validate = .ok () := by
  refine Fragment.Closed.validate ?_
  simp only [String.toList_append]
  exact .append ⟨by decide, by decide⟩ (closed_ofStored _)

namespace ListedIndex

theorem drops_dropOf (table : Identifier) (i : ListedIndex) : (i.dropOf table).drops = true := by
  unfold dropOf
  split <;> rfl

theorem validate_dropOf (table : String) (i : ListedIndex) : (i.dropOf (ofStored table)).fragment.validate = .ok () := by
  unfold dropOf
  split
  · exact Statement.validate_dropIndex i.name
  · refine Fragment.Closed.validate ?_
    unfold Statement.alterTable
    simp only [String.toList_append]
    exact (((Fragment.Closed.mk (by decide) (by decide)).append (closed_ofStored _)).append ⟨by decide, by decide⟩).append
      (.append ⟨by decide, by decide⟩ (closed_ofStored _))

/-- The index is what is left of creating one over some columns under its derived name. -/
structure IsMade (e : Engine) (table : String) (columns : List String) (unique : Bool) (i : ListedIndex) : Prop where
  name : i.name = catalogName e (Identifier.derivedName e table columns (Editor.indexSuffix unique))
  owner : i.owner = none
  unique : i.unique = unique

theorem IsMade.dropOf {e : Engine} {table : String} {columns : List String} {unique : Bool} {i : ListedIndex}
    (h : i.IsMade e table columns unique) (ht : Simple table) (hs : ∀ c ∈ columns, Simple c) (t : Identifier) :
    i.dropOf t = .dropIndex (Identifier.quote e (Identifier.derivedName e table columns (Editor.indexSuffix unique))) := by
  have suffix : ∀ c ∈ (Editor.indexSuffix unique).toList, Text.Visible c := by
    cases unique <;> exact Text.visible_of_all (by decide)
  rw [ListedIndex.dropOf, h.owner, (Identifier.simple_derivedName ht hs suffix).quote_eq, h.name]

theorem IsMade.isOver {e : Engine} {table : String} {columns : List String} {unique : Bool} {i : ListedIndex}
    (h : i.IsMade e table columns unique) (direct : i.columns = columns.map (catalogName e)) :
    i.isOver e columns unique = true := by
  rw [ListedIndex.isOver, h.owner, direct, h.unique]
  simp

end ListedIndex

namespace Editor

variable {ed : Editor σ} {table : String} {listing : σ → Listing} {x y : State (Noted σ Entry)}

/-- The changes that drop the index over some columns: all that is found by the columns goes, else the first that is
found by the expression. -/
theorem dropIndexOver_ok (hl : Lists ed.cursor (catalogName ed.engine table) listing)
    (hp : (listing x.base.link.link).Proper ed.engine) (hx : Recalls (listing ·.link) table x) {columns : List String}
    (hs : ∀ c ∈ columns, Simple c ∧ c.toList.length ≤ ed.engine.identifierLimit) {unique : Bool}
    (h : ed.traced.dropIndexOver table columns unique x = (.ok (), y)) :
    ∃ xs, Passes ed.emitted x y xs ∧
      ((changes xs).Perm (((listing x.base.link.link).indexes.filter (·.isOver ed.engine columns unique)).map
          (·.dropOf (ed.quote table))) ∧ changes xs ≠ [] ∨
        (∀ i ∈ (listing x.base.link.link).indexes, i.isOver ed.engine columns unique = false) ∧
          ∃ i, (listing x.base.link.link).indexes.find?
              (·.computes (Expression.normalize (ed.engine.hashSource columns).toList)) = some i ∧
            changes xs = [.dropIndex (ofStored i.name)]) := by
  obtain ⟨found, z, searched, h⟩ := Action.bind_ok h
  obtain ⟨xs, passes, quiet, -⟩ := constraintsWhere_emits _ x found z searched
  obtain ⟨rfl, same⟩ := constraintsWhere_ok hl.traced hp.legible hx searched
  have perm := (listing x.base.link.link).drops_perm ed hp hs unique table
  split at h
  · next empty =>
    -- Nothing is over the columns themselves. Only then the expression is asked for, and its uniqueness is not.
    obtain ⟨name, w, looked, h⟩ := Action.bind_ok h
    obtain ⟨ys, passes', quiet', -⟩ := expressionIndex?_emits _ z name w looked
    have found := hl.traced.expressionIndex?_ok (by rwa [same]) (onLink_ok looked)
    rw [same] at found
    have none : ∀ i ∈ (listing x.base.link.link).indexes, i.isOver ed.engine columns unique = false := by
      rw [List.isEmpty_iff.mp empty, List.map_nil] at perm
      have nil := List.map_eq_nil_iff.mp (List.nil_perm.mp perm)
      exact fun i hi => Bool.eq_false_iff.mpr fun hm => List.not_mem_nil (nil ▸ List.mem_filter.mpr ⟨hi, hm⟩)
    cases hi : (listing x.base.link.link).indexes.find?
        (·.computes (Expression.normalize (ed.engine.hashSource columns).toList)) with
    | none =>
      rw [show ed.traced.engine = ed.engine from rfl, hi] at found
      subst found
      exact absurd (congrArg Prod.fst h) (by simp)
    | some i =>
      rw [show ed.traced.engine = ed.engine from rfl, hi] at found
      subst found
      obtain ⟨zs, passes'', sent, -⟩ := run_emits table _ w () y h
      refine ⟨xs ++ ys ++ zs, (passes.trans passes').trans passes'', .inr ⟨none, i, rfl, ?_⟩⟩
      rw [Exchange.changes_append, Exchange.changes_append, quiet, quiet', sent]
      have canonical := (hp.indexes i (List.mem_of_find?_eq_some hi)).name
      exact congrArg (fun i => [Statement.dropIndex i]) canonical.quote_lowercase
  · next some =>
    obtain ⟨ys, passes', sent, -⟩ := Leaves.forEach (fun c => run_emits table (ed.dropStatement table c)) _ z () y h
    refine ⟨xs ++ ys, passes.trans passes', .inl ⟨?_, ?_⟩⟩
    · rw [Exchange.changes_append, quiet, sent]
      exact perm
    · rw [Exchange.changes_append, quiet, sent, List.nil_append, Ne, List.map_eq_nil_iff, ← List.isEmpty_iff]
      exact some

/-- The drops succeed on a connection that serves, if there is anything to drop. -/
theorem dropIndexOver_succeeds (hl : Lists ed.cursor (catalogName ed.engine table) listing)
    (hv : Serves ed.cursor) (ht : Simple table) (hp : (listing x.base.link.link).Proper ed.engine)
    (hx : Recalls (listing ·.link) table x) {columns : List String}
    (hs : ∀ c ∈ columns, Simple c ∧ c.toList.length ≤ ed.engine.identifierLimit) {unique : Bool}
    (some : ∃ i ∈ (listing x.base.link.link).indexes, i.isOver ed.engine columns unique = true ∨
      i.computes (Expression.normalize (ed.engine.hashSource columns).toList) = true) :
    (ed.traced.dropIndexOver table columns unique).Succeeds x := by
  have serves : Serves ed.traced.cursor := hv.traced
  refine (constraintsWhere_succeeds hl.traced hv.traced hp.legible _).bind fun found z searched => ?_
  obtain ⟨rfl, same⟩ := constraintsWhere_ok hl.traced hp.legible hx searched
  have perm := (listing x.base.link.link).drops_perm ed hp hs unique table
  split
  · next empty =>
    refine (onLink_succeeds (hl.traced.expressionIndex?_succeeds hv.traced (by rwa [same]) _)).bind fun name w looked => ?_
    have found := hl.traced.expressionIndex?_ok (by rwa [same]) (onLink_ok looked)
    rw [same, show ed.traced.engine = ed.engine from rfl] at found
    rw [List.isEmpty_iff.mp empty, List.map_nil] at perm
    have nil := List.map_eq_nil_iff.mp (List.nil_perm.mp perm)
    obtain ⟨i, hi, some⟩ := some
    have computes := some.resolve_left fun h => List.not_mem_nil (nil ▸ List.mem_filter.mpr ⟨hi, h⟩)
    have first := List.find?_isSome.mpr ⟨i, hi, computes⟩
    obtain ⟨j, first⟩ := Option.isSome_iff_exists.mp first
    rw [first] at found
    subst found
    have canonical := (hp.indexes j (List.mem_of_find?_eq_some first)).name
    have quoted : ed.traced.quote (Text.lowercase j.name) = ofStored j.name := canonical.quote_lowercase
    dsimp only [Option.map_some]
    rw [quoted]
    exact serves.run rfl (Statement.validate_dropIndex j.name) table w
  · refine Action.Succeeds.forEach (fun c hm t => ?_) z
    have stored : ed.traced.dropStatement table c ∈
        ((listing x.base.link.link).described.filter (isIndexOver columns unique)).map (ed.dropStatement table) :=
      List.mem_map_of_mem hm
    obtain ⟨i, -, h⟩ := List.mem_map.mp (perm.mem_iff.mp stored)
    have quoted : ed.quote table = ofStored (catalogName ed.engine table) := ht.quote_eq
    rw [dropConstraint, ← h, quoted]
    exact serves.run (i.drops_dropOf _) (i.validate_dropOf _) table t

/-! What is created after the drops, as far as that goes -/

/-- From one state to another only statements of one kind were tried. -/
def Tries (ed : Editor σ) (p : Statement → Bool) (x y : State (Noted σ Entry)) : Prop :=
  ∃ xs, Passes ed.emitted x y xs ∧ ∀ s ∈ changes xs, p s = true

theorem run_tries {p : Statement → Bool} {s : Statement} (h : p s = true) (table : String) :
    Keeps (ed.Tries p x) (ed.traced.run table s) := by
  rintro y ⟨xs, passes, tried⟩
  obtain ⟨ys, passes', same, -⟩ := attempt_run_emits table s y _ _ rfl
  refine ⟨xs ++ ys, passes.trans passes', fun s' hs' => ?_⟩
  rw [Exchange.changes_append, List.mem_append] at hs'
  exact hs'.elim (tried s') fun hs' => (congrArg p (same s' hs')).trans h

theorem createDerivedIndex_tries (columns : List String) (unique : Bool) :
    Keeps (ed.Tries Statement.createsIndex x) (ed.traced.createDerivedIndex table columns unique) := by
  refine Keeps.bind (Keeps.attempt (run_tries rfl table)) fun r => ?_
  cases r with
  | ok _ => exact Keeps.pure ()
  | error e => exact Keeps.ite (fun _ => run_tries rfl table) fun _ => Keeps.fail e

/-- What the statements drop that no longer index some columns together, in a table where they were. -/
structure Drops (e : Engine) (table : String) (columns : List String) (unique : Bool) (l : Listing) (made : ListedIndex)
    (ss : List Statement) : Prop where
  /-- All indexes and unique constraints of the kind over just these columns, if there are any, and nothing else. -/
  overColumns : (∃ i ∈ l.indexes, i.isOver e columns unique = true) →
    (ss.filter (·.drops)).Perm
      ((l.indexes.filter (·.isOver e columns unique)).map (·.dropOf (Identifier.quote e table)))
  /-- Thereby the one that was made. -/
  direct : made.columns = columns.map (catalogName e) →
    .dropIndex (Identifier.quote e (Identifier.derivedName e table columns (indexSuffix unique))) ∈ ss
  /-- Only the one that was made, if it is the one over the hash. -/
  hashed : made.computes (Expression.normalize (e.hashSource columns).toList) = true →
    (∀ i ∈ l.indexes, i.isOver e columns unique = false) →
    (∀ i ∈ l.indexes, i.computes (Expression.normalize (e.hashSource columns).toList) = true → i = made) →
    ss.filter (·.drops) = [.dropIndex (Identifier.quote e (Identifier.derivedName e table columns (indexSuffix unique)))]

namespace Drops

variable {e : Engine} {columns : List String} {unique : Bool} {l : Listing} {made : ListedIndex} {ss ss' : List Statement}

/-- Creating indexes drops none. -/
theorem append (h : Drops e table columns unique l made ss) (creates : ∀ s ∈ ss', s.createsIndex = true) :
    Drops e table columns unique l made (ss ++ ss') := by
  have kept : ∀ s ∈ ss', ¬s.drops = true := by
    intro s hs
    have created := creates s hs
    cases s <;> first | exact Bool.false_ne_true | cases created
  have same : (ss ++ ss').filter (·.drops) = ss.filter (·.drops) := by
    rw [List.filter_append, List.filter_eq_nil_iff.mpr kept, List.append_nil]
  constructor
  · rw [same]
    exact h.overColumns
  · exact fun direct => List.mem_append_left _ (h.direct direct)
  · rw [same]
    exact h.hashed

theorem of_over (hm : made ∈ l.indexes) (hmade : made.IsMade e table columns unique) (ht : Simple table)
    (hs : ∀ c ∈ columns, Simple c) (some : ss ≠ [])
    (perm : ss.Perm ((l.indexes.filter (·.isOver e columns unique)).map (·.dropOf (Identifier.quote e table)))) :
    Drops e table columns unique l made ss := by
  have drops : ss.filter (·.drops) = ss := by
    rw [List.filter_eq_self]
    intro s hs
    obtain ⟨i, -, rfl⟩ := List.mem_map.mp (perm.mem_iff.mp hs)
    exact i.drops_dropOf _
  constructor
  · rw [drops]
    exact fun _ => perm
  · intro direct
    refine perm.mem_iff.mpr (List.mem_map.mpr ⟨made, ?_, hmade.dropOf ht hs _⟩)
    exact List.mem_filter.mpr ⟨hm, hmade.isOver direct⟩
  · intro _ none
    have nothing := List.filter_eq_nil_iff.mpr fun i hi => Bool.eq_false_iff.mp (none i hi)
    rw [nothing] at perm
    exact absurd (List.perm_nil.mp perm) some

theorem of_hashed (hm : made ∈ l.indexes) (hmade : made.IsMade e table columns unique) (ht : Simple table)
    (hs : ∀ c ∈ columns, Simple c) (none : ∀ i ∈ l.indexes, i.isOver e columns unique = false) {i : ListedIndex}
    (first : l.indexes.find? (·.computes (Expression.normalize (e.hashSource columns).toList)) = some i)
    (only : ss = [.dropIndex (ofStored i.name)]) : Drops e table columns unique l made ss := by
  constructor
  · rintro ⟨i, hi, isOver⟩
    rw [none i hi] at isOver
    contradiction
  · intro direct
    have isOver := hmade.isOver direct
    rw [none made hm] at isOver
    contradiction
  · intro _ _ alone
    obtain rfl := alone i (List.mem_of_find?_eq_some first) (List.find?_some first)
    rw [only, ← hmade.dropOf ht hs (Identifier.quote e table), ListedIndex.dropOf, hmade.owner]
    rfl

end Drops

/-- Once the index over the columns that are no longer indexed together is dropped, others are created. -/
theorem alterTogether_of_dropped {m : Model} {columns : List String} {unique : Bool} {old new : List (List String)}
    {z : State σ} {ed : Editor σ} {x : State σ} (removed : old.filter (!new.contains ·) = [columns])
    (dropped : ed.dropIndexOver m.table columns unique x = (.ok (), z)) :
    ed.alterTogether unique m old new x =
      Action.forEach (ed.createDerivedIndex m.table · unique) (new.filter (!old.contains ·)) z := by
  refine Action.bind_of_ok (a := ()) ?_
  rw [removed]
  exact (congrFun (Action.bind_pure _) x).trans dropped

/-- Where columns are no longer indexed together, all indexes and unique constraints of the kind over just these columns
are dropped, and nothing else. An index that was made over their hash is dropped if nothing stands over the columns
themselves, and then it is the only one. -/
theorem alterTogether_drops {m : Model}
    (hl : Lists ed.cursor (catalogName ed.engine m.table) listing) (ht : Simple m.table) {unique : Bool}
    {old new : List (List String)} {columns : List String} (removed : old.filter (!new.contains ·) = [columns])
    (hs : ∀ c ∈ columns, Simple c ∧ c.toList.length ≤ ed.engine.identifierLimit)
    (hp : (listing x.base.link.link).Proper ed.engine) (hx : Recalls (listing ·.link) m.table x)
    {made : ListedIndex} (hm : made ∈ (listing x.base.link.link).indexes)
    (hmade : made.IsMade ed.engine m.table columns unique)
    (key : made.columns = columns.map (catalogName ed.engine) ∨
      made.computes (Expression.normalize (ed.engine.hashSource columns).toList) = true)
    (h : Serves ed.cursor ∨ (ed.traced.alterTogether unique m old new x).1.isOk = true) :
    ∃ xs, Passes ed.emitted x (ed.traced.alterTogether unique m old new x).2 xs ∧
      Drops ed.engine m.table columns unique (listing x.base.link.link) made (changes xs) := by
  have dropped : (ed.traced.dropIndexOver m.table columns unique).Succeeds x := by
    rcases h with serves | ok
    · refine dropIndexOver_succeeds hl serves ht hp hx hs ⟨made, hm, key.imp_left hmade.isOver⟩
    · cases done : ed.traced.alterTogether unique m old new x with
      | mk r y =>
        rw [done] at ok
        cases r with
        | error e => exact absurd ok Bool.false_ne_true
        | ok _ =>
          obtain ⟨_, z, dropped, -⟩ := Action.bind_ok done
          rw [removed] at dropped
          exact ⟨_, z, (congrFun (Action.bind_pure _) x).symm.trans dropped⟩
  obtain ⟨_, z, dropped⟩ := dropped
  obtain ⟨xs, passes, found⟩ := dropIndexOver_ok hl hp hx hs dropped
  have simple : ∀ c ∈ columns, Simple c := fun c hc => (hs c hc).1
  have drops : Drops ed.engine m.table columns unique (listing x.base.link.link) made (changes xs) := by
    rcases found with ⟨perm, some⟩ | ⟨none, i, first, only⟩
    · exact .of_over hm hmade ht simple some perm
    · exact .of_hashed hm hmade ht simple none first only
  obtain ⟨ys, passes', creates⟩ := Keeps.forEach (fun columns _ => createDerivedIndex_tries columns unique) z
    ⟨[], .nil, by simp [changes]⟩
  refine ⟨xs ++ ys, ?_, ?_⟩
  · rw [alterTogether_of_dropped removed dropped]
    exact passes.trans passes'
  · rw [Exchange.changes_append]
    exact drops.append creates

end Editor

/-- A table of a connection, with the rows that are still to be fetched. What is dropped is no longer listed. -/
structure Shelf where
  listing : Listing
  rows : List Row

namespace Shelf

def without (name : Identifier) (l : Listing) : Listing :=
  { l with indexes := l.indexes.filter fun i => ofStored i.title != name }

def exec (shelf : Shelf) : Statement → Shelf
  | .catalog (.indexes _) => { shelf with rows := shelf.listing.indexes.flatMap (·.rows) }
  | .catalog (.checks _) => { shelf with rows := shelf.listing.checks.flatMap (·.rows) }
  | .catalog (.expressionIndexes _) => { shelf with rows := ListedIndex.expressionRows shelf.listing.indexes }
  | .dropIndex name | .dropConstraint _ name => { shelf with listing := without name shelf.listing }
  | _ => shelf

def cursor : Cursor Shelf where
  execute s := Action.modify (·.exec s)
  fetchOne := return (← Action.get).rows.head?
  fetchAll := return (← Action.get).rows
  start _ := return ()
  commit := return ()
  rollback := return ()
  serverVersion := return ""

theorem lists (relation : String) : Lists cursor relation (·.listing) where
  indexes := by rintro s rows t ⟨⟩; exact ⟨rfl, rfl⟩
  checks := by rintro s rows t ⟨⟩; exact ⟨rfl, rfl⟩
  expressions := by rintro s rows t ⟨⟩; rfl

theorem serves : Serves cursor :=
  ⟨fun _ _ _ => ⟨(), _, rfl⟩, fun s => ⟨_, s, rfl⟩, fun s => ⟨(), s, rfl⟩⟩

def editor : Editor Shelf := ⟨cursor, ⟨⟨3, 0, 0, 0⟩⟩, Options.standard, false⟩

def model : Model := ⟨"book", [], [], [], []⟩

/-- An index over columns, by its name. -/
def indexOn (columns : List String) (unique : Bool) (name : String) : ListedIndex :=
  ⟨name, none, unique, false, .segments (columns.map (⟨·, none⟩))⟩

theorem proper_indexOn {e : Engine} {name : String} {columns : List String} (hn : Canonical e name)
    (hc : ∀ c ∈ columns, Canonical e c) (nodup : columns.Nodup) (nonempty : columns ≠ []) (unique : Bool) :
    (indexOn columns unique name).Proper e := by
  have same : (indexOn columns unique name).columns = columns := by
    simp [indexOn, ListedIndex.columns, ListedIndex.segments, Function.comp_def]
  exact ⟨hn, hn, by rwa [same], by rwa [same], .inl (by rwa [same])⟩

/-- The index that was made over the title and the author. -/
def made : ListedIndex :=
  indexOn ["TITLE", "AUTHOR"] true
    (catalogName editor.engine (Identifier.derivedName editor.engine "book" ["title", "author"] "_uniq"))

/-- An index with a name of its own over the same columns. -/
def named : ListedIndex := indexOn ["TITLE", "AUTHOR"] true "BOOK_KEY"

def books : Listing := ⟨[made, named, indexOn ["TITLE"] false "BOOK_TITLES"], []⟩

theorem proper_books : books.Proper editor.engine where
  indexes := by
    have title : Canonical editor.engine "TITLE" := ⟨by decide, by decide, by decide⟩
    have author : Canonical editor.engine "AUTHOR" := ⟨by decide, by decide, by decide⟩
    have derived : Simple (Identifier.derivedName editor.engine "book" ["title", "author"] "_uniq") :=
      Identifier.simple_derivedName (by decide) (by decide) (Text.visible_of_all (by decide))
    have both : ∀ c ∈ ["TITLE", "AUTHOR"], Canonical editor.engine c := by simpa using ⟨title, author⟩
    intro i hi
    simp only [books, List.mem_cons, List.not_mem_nil, or_false] at hi
    rcases hi with rfl | rfl | rfl
    · exact proper_indexOn derived.canonical both (by decide) (by decide) true
    · exact proper_indexOn ⟨by decide, by decide, by decide⟩ both (by decide) (by decide) true
    · exact proper_indexOn ⟨by decide, by decide, by decide⟩ (by simpa using title) (by decide) (by decide) false
  checks := by simp [books]
  names := by decide +kernel

def start : Editor.State (Noted Shelf Entry) := .ofBase ⟨⟨⟨books, []⟩, []⟩, .empty⟩

theorem isMade : made.IsMade editor.engine "book" ["title", "author"] true := ⟨rfl, rfl, rfl⟩

theorem simple : ∀ c ∈ ["title", "author"], Simple c ∧ c.toList.length ≤ editor.engine.identifierLimit := by
  decide +kernel

theorem columns_made : made.columns = ["title", "author"].map (catalogName editor.engine) := by decide +kernel

theorem recalls_start : Editor.Recalls (·.link.listing) "book" start := by rintro _ ⟨⟩

theorem over_title_author : books.indexes.filter (·.isOver editor.engine ["title", "author"] true) = [made, named] := by
  decide +kernel

end Shelf

theorem Editor.alterTogether_drops_book :
    ∃ xs, Passes Shelf.editor.emitted Shelf.start
        (Shelf.editor.traced.alterTogether true Shelf.model [["title", "author"]] [] Shelf.start).2 xs ∧
      ((changes xs).filter (·.drops)).Perm
        [Shelf.made.dropOf (Shelf.editor.quote "book"), Shelf.named.dropOf (Shelf.editor.quote "book")] := by
  have table : Simple Shelf.model.table := by decide
  have removed : [["title", "author"]].filter (!([] : List (List String)).contains ·) = [["title", "author"]] := rfl
  have found : Shelf.made ∈ (Shelf.start.base.link.link.listing).indexes := List.mem_cons_self
  obtain ⟨xs, passes, drops⟩ := Editor.alterTogether_drops (Shelf.lists _) table removed Shelf.simple
    Shelf.proper_books Shelf.recalls_start found Shelf.isMade (.inl Shelf.columns_made) (.inl Shelf.serves)
  have perm := drops.overColumns ⟨Shelf.made, found, Shelf.isMade.isOver Shelf.columns_made⟩
  rw [show Shelf.start.base.link.link.listing = Shelf.books from rfl, show Shelf.model.table = "book" from rfl,
    Shelf.over_title_author] at perm
  exact ⟨xs, passes, perm⟩

/-- An index with a name of its own goes with the one that was made. -/
theorem Editor.alterTogether_drops_named :
    Shelf.made ∈ Shelf.books.indexes ∧ Shelf.made.IsMade Shelf.editor.engine "book" ["title", "author"] true ∧
      ¬∀ s, Entry.sent s ∈ Shelf.editor.emitted
          (Shelf.editor.traced.alterTogether true Shelf.model [["title", "author"]] [] Shelf.start).2 →
        s.drops = true → s = Shelf.made.dropOf (Shelf.editor.quote "book") := by
  refine ⟨List.mem_cons_self, Shelf.isMade, fun h => ?_⟩
  have table : Simple "book" := by decide
  have found : Shelf.made ∈ (Shelf.start.base.link.link.listing).indexes := List.mem_cons_self
  have isOver := Shelf.isMade.isOver Shelf.columns_made
  obtain ⟨_, z, dropped⟩ := dropIndexOver_succeeds (Shelf.lists _) Shelf.serves table Shelf.proper_books
    Shelf.recalls_start Shelf.simple ⟨Shelf.made, found, .inl isOver⟩
  obtain ⟨xs, passes, drops⟩ := dropIndexOver_ok (Shelf.lists _) Shelf.proper_books Shelf.recalls_start Shelf.simple
    dropped
  have sent : Shelf.named.dropOf (Shelf.editor.quote "book") ∈ changes xs := by
    rcases drops with ⟨perm, -⟩ | ⟨none, -⟩
    · rw [show Shelf.start.base.link.link.listing = Shelf.books from rfl, Shelf.over_title_author] at perm
      exact perm.mem_iff.mpr (List.mem_cons_of_mem _ List.mem_cons_self)
    · exact absurd ((none Shelf.made found).symm.trans isOver) Bool.false_ne_true
  have removed : [["title", "author"]].filter (!([] : List (List String)).contains ·) = [["title", "author"]] := rfl
  have ends : (Shelf.editor.traced.alterTogether true Shelf.model [["title", "author"]] [] Shelf.start).2 = z := by
    rw [alterTogether_of_dropped (m := Shelf.model) removed dropped]
    rfl
  have same := h _ (ends ▸ passes.sent_mem sent) (ListedIndex.drops_dropOf _ _)
  exact absurd same (by decide +kernel)

end FirebirdSql
