import FirebirdSql.Proofs.Log
import FirebirdSql.Proofs.Subject

/-!
The columns of all tables as a log tells them: statements that succeed make and remove columns, and a rollback takes
back what was not committed.
-/

namespace FirebirdSql

/-- A column of a table, by the identifiers that statements name them with. -/
structure Place where
  table : Identifier
  column : Identifier
  deriving DecidableEq

/-- Which columns there are. -/
abbrev Columns : Type := Place → Bool

namespace Statement

/-- The columns that there are after the statement. A statement of the caller counts as one that leaves them alone, and
the tables in which constraints are kept do not count. -/
def columnsAfter (cols : Columns) : Statement → Columns
  | .createTable table columns => fun p => cols p || p.table == table && columns.any (·.1 == p.column)
  | .dropTable table => fun p => cols p && p.table != table
  | .addColumn table column _ => fun p => cols p || p == ⟨table, column⟩
  | .dropColumn table column => fun p => cols p && p != ⟨table, column⟩
  | .renameColumn table old new => fun p =>
    if p = ⟨table, new⟩ then cols ⟨table, old⟩ else cols p && p != ⟨table, old⟩
  | _ => cols

theorem columnsAfter_of_keepsRows {s : Statement} (h : s.keepsRows = true) (cols : Columns) :
    s.columnsAfter cols = cols := by
  cases s <;> first | rfl | cases h

/-- The columns that the statement puts a foreign key over. -/
def keyPlaces : Statement → List Place
  | .addConstraint table _ (.foreignKey columns ..) => columns.map fun column => ⟨table, column⟩
  | _ => []

/-- What has a place for a key is a foreign key. -/
theorem isForeignKey_of_mem_keyPlaces {s : Statement} {p : Place} (h : p ∈ s.keyPlaces) : s.isForeignKey = true := by
  unfold keyPlaces at h
  split at h
  · rfl
  · cases h

end Statement

namespace Columns

/-- All columns are there that the keys are over. -/
def Supports (cols : Columns) (keys : List Statement) : Prop := ∀ key ∈ keys, ∀ p ∈ key.keyPlaces, cols p = true

instance (cols : Columns) (keys : List Statement) : Decidable (cols.Supports keys) :=
  inferInstanceAs (Decidable (∀ key ∈ keys, ∀ p ∈ key.keyPlaces, cols p = true))

variable {cols cols' : Columns} {keys : List Statement}

theorem supports_nil : cols.Supports [] := fun _ h => absurd h List.not_mem_nil

theorem supports_append {keys' : List Statement} :
    cols.Supports (keys ++ keys') ↔ cols.Supports keys ∧ cols.Supports keys' := List.forall_mem_append

theorem Supports.mono (h : cols.Supports keys) (kept : ∀ p, cols p = true → cols' p = true) : cols'.Supports keys :=
  fun key hk p hp => kept p (h key hk p hp)

/-- Where only certain columns may have gone, it is on these that the keys depend. -/
theorem Supports.iff_of_kept {gone : Place → Prop} (h : cols.Supports keys)
    (kept : ∀ p, ¬gone p → cols p = true → cols' p = true) :
    cols'.Supports keys ↔ ¬∃ key ∈ keys, ∃ p ∈ key.keyPlaces, gone p ∧ cols' p = false := by
  constructor
  · rintro supports ⟨key, hk, p, hp, -, missing⟩
    exact Bool.false_ne_true (missing.symm.trans (supports key hk p hp))
  · intro none key hk p hp
    cases there : cols' p with
    | true => rfl
    | false =>
      have remains : ¬gone p := fun hg => none ⟨key, hk, p, hp, hg, there⟩
      exact there.symm.trans (kept p remains (h key hk p hp))

end Columns

/-- The columns that are committed, and those that the transaction sees. -/
structure Standing where
  settled : Columns
  seen : Columns

namespace Standing

def after (st : Standing) : Logged → Standing
  | ⟨.execute s, none⟩ => { st with seen := s.columnsAfter st.seen }
  | ⟨.commit, none⟩ => { st with settled := st.seen }
  | ⟨.rollback, _⟩ => { st with seen := st.settled }
  | _ => st

/-- The transaction sees these columns. With a commit after every statement they are committed. -/
structure Shows (commits : Bool) (cols : Columns) (st : Standing) : Prop where
  seen : st.seen = cols
  settled : commits = true → st.settled = cols

variable {commits : Bool} {cols : Columns} {st : Standing}

/-- A statement changes columns if it succeeds and is committed where it has to be, and not at all otherwise. -/
theorem Shows.tried {s : Statement} {calls : List Logged} {r : Option Error} (shows : st.Shows commits cols)
    (h : Tried s commits calls r) :
    (calls.foldl after st).Shows commits (if r = none then s.columnsAfter cols else cols) := by
  obtain ⟨rfl, settled⟩ := shows
  cases h with
  | committed => exact ⟨rfl, fun _ => rfl⟩
  | executed => exact ⟨rfl, fun h => nomatch h⟩
  | failed e => exact ⟨rfl, settled⟩
  -- what the rollback goes back to is what was seen before, since every earlier statement is committed
  | refused e back | uncommitted e back => exact ⟨settled rfl, settled⟩

theorem Shows.commit (shows : st.Shows commits cols) (r : Option Error) :
    (st.after ⟨.commit, r⟩).Shows commits cols := by
  cases r with
  | none => exact ⟨shows.seen, fun _ => shows.seen⟩
  | some e => exact shows

theorem Shows.catalog (shows : st.Shows commits cols) (q : CatalogQuery) (r : Option Error) :
    (st.after ⟨.execute (.catalog q), r⟩).Shows commits cols := by
  cases r <;> exact shows

end Standing

namespace Logged

/-- Where the columns stand after a log, of which there were some before. -/
def standing (before : Columns) (calls : List Logged) : Standing := calls.foldl Standing.after ⟨before, before⟩

/-- The columns that the connection sees after a log. -/
def columns (before : Columns) (calls : List Logged) : Columns := (standing before calls).seen

theorem standing_append (before : Columns) (calls calls' : List Logged) :
    standing before (calls ++ calls') = calls'.foldl Standing.after (standing before calls) :=
  List.foldl_append

end Logged

end FirebirdSql
