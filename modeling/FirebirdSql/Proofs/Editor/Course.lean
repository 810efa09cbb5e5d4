import FirebirdSql.Proofs.Catalog.Cache
import FirebirdSql.Proofs.Trace

/-!
What the steps of an alteration leave on the connection: which statements they send, and which incoming keys they get
reported.
-/

namespace FirebirdSql

open Catalog (IncomingKey)

namespace Catalog

variable (c : Cursor σ) (e : Engine) (table : String)

theorem readConstraints_quiet : Quiet Noted.notes (readConstraints c.traced e table) :=
  (c.ask_quiet (by simp)).bind fun _ => Quiet.lift.bind fun _ => (c.ask_quiet (by simp)).bind fun _ =>
    Quiet.lift.bind fun _ => Quiet.pure

theorem constraints_quiet : Quiet Editor.State.notes (Editor.onBase (Cached.constraints c.traced e table)) := by
  intro x cs y h
  have read := Editor.onBase_ok h
  cases hc : x.base.cache.constraints? table with
  | some found =>
    rw [Cached.constraints_hit _ _ _ _ hc] at read
    refine ⟨[], ?_, rfl, rfl⟩
    rw [Passes, Editor.State.notes, ← (Prod.mk.inj read).2]
    exact Passes.nil
  | none =>
    rw [Cached.constraints_miss _ _ _ _ hc] at read
    have leaves := readConstraints_quiet c e table x.base.link
    revert leaves read
    obtain ⟨r, link⟩ := readConstraints c.traced e table x.base.link
    cases r with
    | error error => exact fun read => absurd (congrArg Prod.fst read) (by simp)
    | ok found =>
      intro read leaves
      obtain ⟨xs, passes, quiet⟩ := leaves found link rfl
      refine ⟨xs, ?_, quiet⟩
      rw [Passes, Editor.State.notes, ← (Prod.mk.inj read).2]
      exact passes

end Catalog

namespace Statement

def drops : Statement → Bool
  | .dropIndex _ | .dropConstraint .. => true
  | _ => false

def createsIndex : Statement → Bool
  | .createIndex .. | .createHashIndex .. => true
  | _ => false

end Statement

namespace Editor

variable {ed : Editor σ} (table : String)

theorem constraintsWhere_quiet (select : Catalog.Constraint → Bool) :
    Quiet State.notes (ed.traced.constraintsWhere table select) :=
  (Catalog.constraints_quiet ed.cursor ed.engine table).bind fun _ => Quiet.pure

theorem expressionIndex?_quiet (source : String) :
    Quiet State.notes (onLink (Catalog.expressionIndex? ed.traced.cursor ed.traced.engine table source)) :=
  onLink_leaves ((ed.cursor.ask_quiet (by simp)).bind fun _ => Quiet.lift)

/-- What is asked for incoming keys is what is reported of them. -/
theorem incomingKeys_leaves (hc : ed.collects = false) (column : String) :
    Leaves State.notes (ed.traced.incomingKeys table column) fun keys ss found => ss = [] ∧ found = keys := by
  rw [incomingKeys, unlessCollecting, if_neg (show ¬ed.traced.collects = true by rw [traced, hc]; exact Bool.false_ne_true)]
  refine onLink_leaves fun s keys t h => ?_
  obtain ⟨rows, u, asked, h⟩ := Action.bind_ok h
  obtain ⟨hr, rfl⟩ := Prod.mk.inj h
  refine ⟨_, ed.cursor.ask_passes asked, rfl, ?_⟩
  rw [Exchange.reported, List.flatMap_singleton, Exchange.incoming, hr]
  rfl

variable (hc : ed.collects = false)

include hc

/-- Statements about several tables, one for each member. -/
theorem forEach_run_leaves {α : Type} (tableOf : α → String) (statement : α → Statement) (as : List α) :
    Leaves State.notes (Action.forEach (fun a => ed.traced.run (tableOf a) (statement a)) as) fun _ ss keys =>
      ss = as.map statement ∧ keys = [] :=
  Leaves.forEach (fun a => run_leaves hc (tableOf a) (statement a)) as

theorem run_sends {p : Statement → Bool} {s : Statement} (hs : p s = true) :
    Sends p State.notes (ed.traced.run table s) := by
  refine (run_leaves hc table s).mono ?_
  rintro - ss keys ⟨rfl, rfl⟩
  exact ⟨by simpa using hs, rfl⟩

omit hc in
theorem drops_dropStatement (c : Catalog.Constraint) : (ed.dropStatement table c).drops = true := by
  unfold dropStatement
  split <;> rfl

theorem forEach_drop_sends (found : List Catalog.Constraint) :
    Sends Statement.drops State.notes (Action.forEach (ed.traced.dropConstraint table) found) :=
  Sends.forEach fun c _ => run_sends table hc (drops_dropStatement table c)

theorem dropWhere_sends (select : Catalog.Constraint → Bool) :
    Sends Statement.drops State.notes (ed.traced.dropWhere table select) :=
  (constraintsWhere_quiet table select).bind (forEach_drop_sends table hc)

theorem dropIndexOver_sends (columns : List String) (unique : Bool) :
    Sends Statement.drops State.notes (ed.traced.dropIndexOver table columns unique) := by
  refine (constraintsWhere_quiet table _).bind fun found => Leaves.ite (fun _ => ?_) fun _ => forEach_drop_sends table hc found
  refine (expressionIndex?_quiet table _).bind fun name => ?_
  cases name with
  | some name => exact run_sends table hc rfl
  | none => exact Leaves.fail _

theorem createIndex_sends (name : String) (columns : List String) (unique : Bool) :
    Sends Statement.createsIndex State.notes (ed.traced.createIndex table name columns unique) := by
  let direct : Statement := .createIndex unique (ed.quote name) (ed.quote table) (ed.quoteAll columns)
  have tried : Sends Statement.createsIndex State.notes (ed.traced.run table direct).attempt :=
    (attempt_run_leaves table direct).mono fun _ ss _ h => ⟨fun s hs => by rw [h.1 s hs]; rfl, h.2⟩
  refine tried.bind fun r => ?_
  cases r with
  | ok _ => exact .of_quiet Quiet.pure
  | error e => exact Leaves.ite (fun _ => run_sends table hc rfl) fun _ => Leaves.fail e

omit hc in
theorem triggerExists_quiet : Quiet State.notes (ed.traced.triggerExists table) :=
  Leaves.ite (fun _ => Quiet.pure) fun _ => onLink_leaves ((ed.cursor.ask_quiet (by simp)).bind fun _ => Quiet.pure)

omit hc in
theorem sequenceExists_quiet : Quiet State.notes (ed.traced.sequenceExists table) :=
  Leaves.ite (fun _ => Quiet.pure) fun _ => onLink_leaves ((ed.cursor.ask_quiet (by simp)).bind fun _ => Quiet.pure)

theorem dropCounting_sends : Sends Statement.counts State.notes (ed.traced.dropCounting table) := by
  refine Sends.bind ((triggerExists_quiet table).bind fun _ => ?_) fun _ => (sequenceExists_quiet table).bind fun _ => ?_
  · exact Leaves.ite (fun _ => run_sends table hc rfl) fun _ => Sends.of_quiet Quiet.pure
  · exact Leaves.ite (fun _ => run_sends table hc rfl) fun _ => Sends.of_quiet Quiet.pure

/-! The steps of an alteration that are about the table's own indexes, checks and counting -/

variable (a : Alteration)

theorem dropOwnForeignKey_sends : Sends Statement.drops State.notes (ed.traced.dropOwnForeignKey a) :=
  Leaves.ite (fun _ => dropWhere_sends a.table hc _) fun _ => Sends.of_quiet Quiet.pure

theorem dropOwnIndexes_sends : Sends Statement.drops State.notes (ed.traced.dropOwnIndexes a) := by
  have key : Sends Statement.drops State.notes (if a.dropsPrimaryKey ed.engine then
      ed.traced.dropWhere a.table (isPrimaryKeyOver a.old.column) else return ()) :=
    Leaves.ite (fun _ => dropWhere_sends a.table hc _) fun _ => Sends.of_quiet Quiet.pure
  have plain : Sends Statement.drops State.notes (do
      if a.dropsIndex ed.engine then ed.traced.dropIndexOver a.table [a.old.column] false
      if a.dropsPrimaryKey ed.engine then ed.traced.dropWhere a.table (isPrimaryKeyOver a.old.column)) :=
    Leaves.ite (fun _ => (dropIndexOver_sends a.table hc _ false).bind fun _ => key) fun _ => key
  exact Leaves.ite (fun _ => (dropIndexOver_sends a.table hc _ true).bind fun _ => plain) fun _ => plain

theorem dropOwnChecks_sends : Sends Statement.drops State.notes (ed.traced.dropOwnChecks a) :=
  Leaves.ite (fun _ => dropWhere_sends a.table hc _) fun _ => Sends.of_quiet Quiet.pure

theorem createOwnIndexes_sends : Sends Statement.createsIndex State.notes (ed.traced.createOwnIndexes a) := by
  have plain : Sends Statement.createsIndex State.notes (if a.createsIndex ed.engine then
      ed.traced.createDerivedIndex a.table [a.column] false else return ()) :=
    Leaves.ite (fun _ => createIndex_sends a.table hc _ _ false) fun _ => Sends.of_quiet Quiet.pure
  exact Leaves.ite (fun _ => (createIndex_sends a.table hc _ _ true).bind fun _ => plain) fun _ => plain

theorem runAll_leaves (ss : List Statement) : Leaves State.notes (ed.traced.runAll table ss) fun _ sent keys =>
    sent = ss ∧ keys = [] := by
  have all := forEach_run_leaves hc (fun _ => table) id ss
  rwa [List.map_id] at all

theorem alterCounting_sends : Sends Statement.counts State.notes (ed.traced.alterCounting a) := by
  refine Leaves.ite (fun _ => ?_) fun _ => Leaves.ite (fun _ => dropCounting_sends a.table hc) fun _ => Sends.of_quiet Quiet.pure
  refine (runAll_leaves a.table hc _).mono ?_
  rintro - ss keys ⟨rfl, rfl⟩
  simp [Sequence.setUp, Statement.counts]

omit hc in
theorem refresh_quiet : Quiet State.notes ed.traced.refresh := Leaves.ite (fun _ => commit_quiet) fun _ => Quiet.pure

end Editor

end FirebirdSql
