import FirebirdSql.Proofs.Editor.Course

/-!
What an editor emits. It sends its statements, or collects them; it reads the catalog either way.
-/

namespace FirebirdSql.Editor

open Action (Keeps)
open Exchange (changes)

/-- What was noted of the connection, or what was collected instead. -/
def emitted (ed : Editor σ) (x : State (Noted σ Entry)) : List Entry :=
  if ed.collects then x.collected.map .sent else x.notes

variable {ed : Editor σ} {table : String} {x : State (Noted σ Entry)}

theorem emitted_of_sends (hc : ed.collects = false) : ed.emitted = State.notes := by
  funext x
  rw [emitted, if_neg (by rw [hc]; exact Bool.false_ne_true)]

theorem emitted_of_collects (hc : ed.collects = true) (x : State (Noted σ Entry)) :
    ed.emitted x = x.collected.map .sent := if_pos hc

/-- What only reads emits nothing. -/
theorem quiet_emitted {y : Edit (Noted σ Entry) α} (quiet : Quiet State.notes y)
    (keeps : ∀ x, (y x).2.collected = x.collected) : Quiet ed.emitted y := by
  cases hc : ed.collects with
  | false =>
    rw [emitted_of_sends hc]
    exact quiet
  | true =>
    intro s a t h
    refine ⟨[], ?_, rfl, rfl⟩
    have same := keeps s
    rw [h] at same
    rw [Passes, emitted_of_collects hc, emitted_of_collects hc, same]
    exact (List.append_nil _).symm

theorem onLink_emits {y : Action (Noted σ Entry) α} (quiet : Quiet Noted.notes y) : Quiet ed.emitted (onLink y) :=
  quiet_emitted (onLink_leaves quiet) fun _ => rfl

theorem constraints_emits :
    Quiet ed.emitted (onBase (Catalog.Cached.constraints ed.traced.cursor ed.traced.engine table)) :=
  quiet_emitted (Catalog.constraints_quiet ed.cursor ed.engine table) fun _ => rfl

theorem constraintsWhere_emits (select : Catalog.Constraint → Bool) :
    Quiet ed.emitted (ed.traced.constraintsWhere table select) :=
  constraints_emits.bind fun _ => Quiet.pure

theorem expressionIndex?_emits (source : String) :
    Quiet ed.emitted (onLink (Catalog.expressionIndex? ed.traced.cursor ed.traced.engine table source)) :=
  onLink_emits ((ed.cursor.ask_quiet (by simp)).bind fun _ => Quiet.lift)

theorem columnIndexes_emits (column : String) :
    Quiet ed.emitted (onLink (Catalog.columnIndexes ed.traced.cursor ed.traced.engine table column)) :=
  onLink_emits ((ed.cursor.ask_quiet (by simp)).bind fun _ => Quiet.lift)

theorem triggerExists_emits : Quiet ed.emitted (ed.traced.triggerExists table) :=
  Leaves.ite (fun _ => Quiet.pure) fun _ => onLink_emits ((ed.cursor.ask_quiet (by simp)).bind fun _ => Quiet.pure)

theorem sequenceExists_emits : Quiet ed.emitted (ed.traced.sequenceExists table) :=
  Leaves.ite (fun _ => Quiet.pure) fun _ => onLink_emits ((ed.cursor.ask_quiet (by simp)).bind fun _ => Quiet.pure)

theorem refresh_emits : Quiet ed.emitted ed.traced.refresh :=
  Leaves.ite (fun _ => quiet_emitted commit_quiet fun _ => rfl) fun _ => Quiet.pure

/-- A statement that has its values is collected. -/
theorem run_collects (hc : ed.collects = true) (table : String) (s : Statement) (x : State σ) :
    ((ed.run table s x).1 = s.fragment.validate) ∧
      (ed.run table s x).2.collected = x.collected ++ (if s.fragment.validate.isOk then [s] else []) := by
  rw [run_apply, execute, Action.bind_apply, Action.lift_apply]
  cases s.fragment.validate with
  | error e => exact ⟨rfl, (List.append_nil _).symm⟩
  | ok _ =>
    rw [if_pos hc]
    exact ⟨rfl, rfl⟩

theorem passes_collected (hc : ed.collects = true) {y : State (Noted σ Entry)} {ss : List Statement}
    (h : y.collected = x.collected ++ ss) : Passes ed.emitted x y (ss.map .change) := by
  rw [Passes, emitted_of_collects hc, emitted_of_collects hc, h, List.map_append, List.flatMap_map]
  exact congrArg _ List.map_eq_flatMap

theorem changes_map (ss : List Statement) : changes (ss.map .change) = ss := by
  rw [changes, List.filterMap_map]
  exact List.filterMap_some

/-- A statement that succeeds is emitted. -/
theorem run_emits (table : String) (s : Statement) :
    Leaves ed.emitted (ed.traced.run table s) fun _ ss keys => ss = [s] ∧ keys = [] := by
  cases hc : ed.collects with
  | false =>
    rw [emitted_of_sends hc]
    exact run_leaves hc table s
  | true =>
    -- The link is not used, so what is emitted is read off the collected statements.
    intro x _ t h
    have hc' : ed.traced.collects = true := hc
    obtain ⟨result, collected⟩ := run_collects hc' table s x
    rw [h] at result collected
    rw [← result] at collected
    exact ⟨[.change s], passes_collected hc collected, rfl, rfl⟩

/-- One that is only tried may be refused before. -/
theorem attempt_run_emits (table : String) (s : Statement) :
    Leaves ed.emitted (ed.traced.run table s).attempt fun _ ss keys => (∀ s' ∈ ss, s' = s) ∧ keys = [] := by
  cases hc : ed.collects with
  | false =>
    rw [emitted_of_sends hc]
    exact attempt_run_leaves table s
  | true =>
    intro x r t h
    obtain ⟨-, rfl⟩ := Prod.mk.inj h
    have hc' : ed.traced.collects = true := hc
    obtain ⟨-, collected⟩ := run_collects hc' table s x
    refine ⟨_, passes_collected hc collected, ?_⟩
    rw [changes_map]
    split
    · exact ⟨by simp, rfl⟩
    · exact ⟨by simp, rfl⟩

end FirebirdSql.Editor
