import FirebirdSql.Proofs.Editor.Keeper
import FirebirdSql.Proofs.Noted

/-!
Editors whose connection keeps notes. What an editor notes of a statement is noted at most once, and what is read
of a table is remembered only from the connection.
-/

namespace FirebirdSql

def Editor.noting (ed : Editor σ) (note : Statement → List ε) (answer : List Row → List ε) :
    Editor (Noted σ ε) :=
  ⟨ed.cursor.noting note answer, ed.engine, ed.options, ed.collects⟩

namespace Editor

variable (ed : Editor σ) (note : Statement → List ε) (answer : List Row → List ε) (s : Statement)
variable (t : State (Noted σ ε))

theorem noting_send_adds : Noted.Adds (note s) ((ed.noting note answer).send s) := by
  unfold Editor.send
  split
  · exact Cursor.noting_executeCommitted_adds ed.cursor note answer s
  · exact Cursor.noting_executeClassified_adds ed.cursor note answer s

theorem noting_send_follows : Noted.Follows ((ed.noting note answer).send s) (ed.send s) := by
  rw [Editor.send, Editor.send, show (ed.noting note answer).options = ed.options from rfl]
  split
  · exact ed.cursor.noting_executeCommitted_follows note answer s
  · exact ed.cursor.noting_executeClassified_follows note answer s

/-- A statement that is tried is noted. Those that are only collected, or do not have their values, are not. -/
theorem noting_execute_notes :
    (((ed.noting note answer).execute s t).2.base.link.notes = t.base.link.notes ∨
      ((ed.noting note answer).execute s t).2.base.link.notes = t.base.link.notes ++ note s) ∧
    ((ed.noting note answer).execute s t).2.base.cache = t.base.cache := by
  unfold Editor.execute
  rw [Action.bind_apply, Action.lift_apply]
  cases s.fragment.validate with
  | error e => exact ⟨.inl rfl, rfl⟩
  | ok u =>
    dsimp only
    split
    · exact ⟨.inl rfl, rfl⟩
    · exact ⟨.inr (noting_send_adds ed note answer s t.base.link), rfl⟩

theorem noting_run_notes (table : String) :
    ((ed.noting note answer).run table s t).2.base.link.notes = t.base.link.notes ∨
      ((ed.noting note answer).run table s t).2.base.link.notes = t.base.link.notes ++ note s :=
  (ed.noting_execute_notes note answer s t).1

theorem noting_run_cache (table : String) :
    ((ed.noting note answer).run table s t).2.base.cache = t.base.cache.invalidate table := by
  rw [run_apply, (ed.noting_execute_notes note answer s t).2]

end Editor

end FirebirdSql
