import FirebirdSql.Proofs.Catalog.Cache
import FirebirdSql.Proofs.Noted
import FirebirdSql.Proofs.Subject

/-!
What a connection sees while a schema is edited: statements about tables, questions to the catalog and the rows that
answer them. A description that is remembered of a table comes from such rows.
-/

namespace FirebirdSql

inductive Event where
  /-- A statement with the table as its subject is tried. -/
  | about (table : Identifier)
  | asked (query : CatalogQuery)
  | answered (rows : List Row)
  deriving DecidableEq

namespace Event

/-- What is seen of a statement. An index that is dropped belongs to the owner. -/
def ofStatement (owner : Option Identifier) : Statement → List Event
  | .catalog query => [.asked query]
  | .dropIndex _ => (owner.map about).toList
  | s => (s.table?.map about).toList

def ofRows (rows : List Row) : List Event := [.answered rows]

theorem answered_notMem_ofStatement (owner : Option Identifier) (s : Statement) (rows : List Row) :
    .answered rows ∉ ofStatement owner s := by
  unfold ofStatement
  split
  · simp
  · cases owner <;> simp
  · cases Statement.table? _ <;> simp

end Event

def Cursor.watched (c : Cursor σ) (owner : Option Identifier) : Cursor (Noted σ Event) :=
  c.noting (Event.ofStatement owner) Event.ofRows

namespace Catalog

open Action (Triple Ends)

/-- The events of reading the columns of some table that shares its place in the cache with `table`. -/
def ColumnsRead (e : Engine) (table : String) (columns : List Column) (events : List Event) : Prop :=
  ∃ other rows, Cache.key other = Cache.key table ∧
    events = [.asked (.columns (Identifier.catalogName e other)), .answered rows] ∧
    rows.mapM Column.ofRow = .ok columns

def ConstraintsRead (e : Engine) (table : String) (constraints : List Constraint) (events : List Event) : Prop :=
  ∃ other indexes checks found foundChecks, Cache.key other = Cache.key table ∧
    events = [.asked (.indexes (Identifier.catalogName e other)), .answered indexes,
      .asked (.checks (Identifier.catalogName e other)), .answered checks] ∧
    Constraints.ofIndexRows indexes = .ok found ∧ Constraints.ofCheckRows checks = .ok foundChecks ∧
    constraints = Constraints.merge found foundChecks

def Untouched (events : List Event) : Prop := ∀ table, .about table ∉ events

section Read

variable {e : Engine} {table name : String} {columns : List Column} {constraints : List Constraint}
variable {events : List Event}

theorem ColumnsRead.shared (h : ColumnsRead e name columns events) (hk : Cache.key table = Cache.key name) :
    ColumnsRead e table columns events := by
  obtain ⟨other, rows, ho, hr⟩ := h
  exact ⟨other, rows, ho.trans hk.symm, hr⟩

theorem ConstraintsRead.shared (h : ConstraintsRead e name constraints events) (hk : Cache.key table = Cache.key name) :
    ConstraintsRead e table constraints events := by
  obtain ⟨other, indexes, checks, found, foundChecks, ho, hr⟩ := h
  exact ⟨other, indexes, checks, found, foundChecks, ho.trans hk.symm, hr⟩

theorem ColumnsRead.untouched (h : ColumnsRead e table columns events) : Untouched events := by
  obtain ⟨other, rows, -, rfl, -⟩ := h
  simp [Untouched]

theorem ConstraintsRead.untouched (h : ConstraintsRead e table constraints events) : Untouched events := by
  obtain ⟨other, indexes, checks, found, foundChecks, -, rfl, -⟩ := h
  simp [Untouched]

theorem ColumnsRead.ends (h : ColumnsRead e table columns events) : ∃ first rows, events = first ++ [.answered rows] := by
  obtain ⟨other, rows, -, rfl, -⟩ := h
  exact ⟨[.asked _], rows, rfl⟩

theorem ConstraintsRead.ends (h : ConstraintsRead e table constraints events) :
    ∃ first rows, events = first ++ [.answered rows] := by
  obtain ⟨other, indexes, checks, found, foundChecks, -, rfl, -⟩ := h
  exact ⟨[.asked _, .answered indexes, .asked _], checks, rfl⟩

end Read

variable (c : Cursor σ) (e : Engine) (owner : Option Identifier)

theorem ask_triple (q : CatalogQuery) (notes : List Event) :
    Triple (·.notes = notes) (ask (c.watched owner) q)
      (fun rows t => t.notes = notes ++ [.asked q, .answered rows]) fun _ t => t.notes = notes ++ [.asked q] :=
  (Cursor.noting_query_triple c (Event.ofStatement owner) Event.ofRows (.catalog q) notes).weaken (fun _ => id)
    (fun rows _ ht => ht.trans (List.append_assoc notes [.asked q] [.answered rows])) fun _ _ ht => ht

theorem incomingKeys_watched (table column : String) (t : Noted σ Event) :
    (incomingKeys (c.watched owner) e table column t).1 = (incomingKeys c e table column t.link).1 := by
  have same := Cursor.noting_query_fst c (Event.ofStatement owner) Event.ofRows
    (.catalog (.incomingKeys (Identifier.catalogName e table) (Identifier.catalogName e column))) t
  rw [incomingKeys, incomingKeys, ask, ask, Action.bind_apply, Action.bind_apply]
  revert same
  change ((c.watched owner).query _ t).1 = _ → _
  obtain ⟨r, link⟩ := (c.watched owner).query _ t
  obtain ⟨r', link'⟩ := c.query _ t.link
  rintro ⟨⟩
  cases r <;> rfl

theorem readColumns_triple (table : String) (notes : List Event) :
    Triple (·.notes = notes) (readColumns (c.watched owner) e table)
      (fun columns t => ∃ events, t.notes = notes ++ events ∧ ColumnsRead e table columns events)
      fun _ t => ∃ events, t.notes = notes ++ events ∧ Untouched events := by
  refine Triple.bind ((ask_triple c owner _ notes).weaken (fun _ => id) (fun _ _ => id) fun _ _ ht => ?_)
    fun rows => ?_
  · exact ⟨_, ht, by simp [Untouched]⟩
  · refine Triple.lift.weaken (fun _ => id) (fun columns t ht => ?_) fun _ t ht => ?_
    · exact ⟨_, ht.2, table, rows, rfl, rfl, ht.1⟩
    · exact ⟨_, ht, by simp [Untouched]⟩

theorem readConstraints_triple (table : String) (notes : List Event) :
    Triple (·.notes = notes) (readConstraints (c.watched owner) e table)
      (fun constraints t => ∃ events, t.notes = notes ++ events ∧ ConstraintsRead e table constraints events)
      fun _ t => ∃ events, t.notes = notes ++ events ∧ Untouched events := by
  refine Triple.bind ((ask_triple c owner _ notes).weaken (fun _ => id) (fun _ _ => id) fun _ _ ht => ?_)
    fun indexes => ?_
  · exact ⟨_, ht, by simp [Untouched]⟩
  refine Triple.bind (Triple.lift.weaken (fun _ => id) (fun _ _ => id) fun _ _ ht => ?_) fun found t ht => ?_
  · exact ⟨_, ht, by simp [Untouched]⟩
  obtain ⟨hfound, ht⟩ := ht
  refine Triple.bind ((ask_triple c owner _ _).weaken (fun _ => id) (fun _ _ => id) fun _ _ ht => ?_)
    (fun checks => ?_) t ht
  · exact ⟨_, ht.trans (List.append_assoc ..), by simp [Untouched]⟩
  refine Triple.bind (Triple.lift.weaken (fun _ => id) (fun _ _ => id) fun _ _ ht => ?_) fun foundChecks => ?_
  · exact ⟨_, ht.trans (List.append_assoc ..), by simp [Untouched]⟩
  refine Triple.pure fun t ht => ⟨_, ht.2.trans (List.append_assoc ..), ?_⟩
  exact ⟨table, indexes, checks, found, foundChecks, rfl, rfl, hfound, ht.1, rfl⟩

end Catalog

end FirebirdSql
