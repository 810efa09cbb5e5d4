import FirebirdSql.Proofs.Check.Guarding

/-!
A table of which only the checks are kept, as an engine that can be edited.
-/

namespace FirebirdSql

open Catalog
open Identifier (Canonical Simple)

/-- A table of which only the checks are kept, with the rows that are still to be fetched. A check mentions the columns
whose names are in its clause. -/
structure Ledger (e : Engine) where
  columns : List String
  canonical : ∀ c ∈ columns, Canonical e c
  checks : List ListedCheck
  proper : (Listing.mk [] checks).Proper e
  rows : List Row

namespace Ledger

variable {e : Engine} (l : Ledger e)

def listing : Listing := ⟨[], l.checks⟩

def without (name : String) : Ledger e :=
  { l with
    checks := l.checks.filter (·.name != name)
    proper :=
      { indexes := by simp
        checks := fun k hk => l.proper.checks k (List.mem_filter.mp hk).1
        names := l.proper.names.sublist (List.filter_sublist.map _) } }

def columnsIn (source : String) : List String :=
  l.columns.filter fun c => Text.occurs (Identifier.ofStored c).text.toList source.toList

theorem proper_insert {name : String} (source : String) (hn : Canonical e name) (fresh : name ∉ l.checks.map (·.name)) :
    (Listing.mk [] (l.checks ++ [⟨⟨name, source⟩, l.columnsIn source⟩])).Proper e where
  indexes := by simp
  checks := by
    intro k hk
    rcases List.mem_append.mp hk with hk | hk
    · exact l.proper.checks k hk
    · obtain rfl := List.mem_singleton.mp hk
      exact ⟨hn, fun c hc => l.canonical c (List.mem_filter.mp hc).1⟩
  names := by
    have names : (l.checks.map (·.name)).Nodup := by simpa using l.proper.names
    rw [List.map_nil, List.nil_append, List.map_append, List.nodup_append]
    refine ⟨names, List.nodup_singleton name, ?_⟩
    intro other hm new hn same
    obtain rfl := List.mem_singleton.mp hn
    exact fresh (same ▸ hm)

/-- The table with one more check, whose name must be a new one. -/
def insert (name source : String) : Option (Ledger e) :=
  if h : Canonical e name ∧ name ∉ l.checks.map (·.name) then
    some { l with
      checks := l.checks ++ [⟨⟨name, source⟩, l.columnsIn source⟩]
      proper := l.proper_insert source h.1 h.2 }
  else none

/-- The table after a statement, unless that is refused. -/
def exec (relation : String) : Statement → Option (Ledger e)
  | .catalog (.checks r) => some { l with rows := if r = relation then l.checks.flatMap (·.rows) else [] }
  | .catalog _ => some { l with rows := [] }
  | .dropConstraint table name => some (if table.stored = relation then l.without name.stored else l)
  | .addConstraint table name (.check source) => if table.stored = relation then l.insert name.stored source else some l
  | _ => some l

def cursor (relation : String) : Cursor (Ledger e) where
  execute s := fun l =>
    match l.exec relation s with
    | some l => (.ok (), l)
    | none => (.error (.notSupported (.feature "check")), l)
  fetchOne := return (← Action.get).rows.head?
  fetchAll := return (← Action.get).rows
  start _ := return ()
  commit := return ()
  rollback := return ()
  serverVersion := return ""

variable {relation : String}

theorem makes_of_exec {l l' : Ledger e} {s : Statement} (h : l.exec relation s = some l') :
    s.Makes relation l.checks l'.checks := by
  unfold exec at h
  split at h
  · obtain rfl := Option.some.inj h
    rfl
  · obtain rfl := Option.some.inj h
    rfl
  · next table name =>
    obtain rfl := Option.some.inj h
    by_cases own : table.stored = relation
    · exact .inl ⟨own, by rw [if_pos own]; rfl⟩
    · exact .inr ⟨own, by rw [if_neg own]⟩
  · next table name source =>
    by_cases own : table.stored = relation
    · rw [if_pos own, insert] at h
      split at h
      · obtain rfl := Option.some.inj h
        exact .inl ⟨own, _, rfl, rfl⟩
      · contradiction
    · rw [if_neg own] at h
      obtain rfl := Option.some.inj h
      exact .inr ⟨own, rfl⟩
  · next noDrop noAdd =>
    obtain rfl := Option.some.inj h
    unfold Statement.Makes
    split
    · exact absurd rfl (noDrop _ _)
    · exact absurd rfl (noAdd _ _ _)
    · trivial
    · trivial
    · trivial
    · rfl

def editor (e : Engine) (relation : String) : Editor (Ledger e) := ⟨cursor relation, e, Options.standard, false⟩

theorem send_apply (s : Statement) : (editor e relation).send s l = match l.exec relation s with
    | some l => (.ok (), l)
    | none => (.error (.notSupported (.feature "check")), l) := by
  change (cursor relation).executeCommitted s l = _
  unfold Cursor.executeCommitted
  rw [Action.bind_apply, Action.attempt_apply, Action.bind_apply]
  cases h : l.exec relation s with
  | some l' =>
    have executed : (cursor relation).execute s l = (.ok (), l') := by simp [cursor, h]
    rw [executed]
    rfl
  | none =>
    have refused : (cursor relation).execute s l = (.error (.notSupported (.feature "check")), l) := by simp [cursor, h]
    rw [refused]
    rfl

theorem guards {table : String} (ht : Simple table) :
    Editor.Guards (editor e (Identifier.catalogName e table)) table listing where
  lists := {
    indexes := by rintro s rows t ⟨⟩; exact ⟨rfl, rfl⟩
    checks := by
      intro l rows l' asked
      have rows : ask (cursor (Identifier.catalogName e table)) (.checks (Identifier.catalogName e table)) l =
          (.ok (l.checks.flatMap (·.rows)), { l with rows := l.checks.flatMap (·.rows) }) := by
        refine (Action.bind_of_ok (a := ()) (t := { l with rows := l.checks.flatMap (·.rows) }) ?_).trans rfl
        simp [cursor, exec]
      obtain ⟨read, rfl⟩ := Prod.mk.inj (rows.symm.trans asked)
      exact ⟨(Except.ok.inj read).symm, rfl⟩
    expressions := by rintro s rows t ⟨⟩; rfl }
  proper l := l.proper
  asks q l := by cases q <;> rfl
  sends s l l' h := by
    have relation : (Identifier.quote e table).stored = Identifier.catalogName e table := ht.stored_quote
    rw [send_apply] at h
    split at h
    · next made =>
      obtain ⟨-, rfl⟩ := Prod.mk.inj h
      exact relation.symm ▸ makes_of_exec made
    · cases h
  refuses s l error l' h := by
    rw [send_apply] at h
    split at h
    · cases h
    · obtain ⟨-, rfl⟩ := Prod.mk.inj h
      rfl
  commits _ := rfl
  apart column l keys l' h := by
    obtain ⟨h, -⟩ := Prod.mk.inj h
    obtain rfl := Except.ok.inj h
    simp

end Ledger

end FirebirdSql
