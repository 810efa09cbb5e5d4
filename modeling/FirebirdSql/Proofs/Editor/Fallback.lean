import FirebirdSql.Proofs.Editor.Rehearsal

/-!
An index whose key is too long for the engine. It is tried over the hash of its columns, once: what the second attempt
ends with is what the caller gets.
-/

namespace FirebirdSql

/-- What could not be executed or committed is rolled back last. -/
theorem Tried.rolledBack {s : Statement} {calls : List Logged} {e : Error} (h : Tried s true calls (some e)) :
    ∃ before back, calls = before ++ [⟨.rollback, back⟩] := by
  cases h with
  | refused e back => exact ⟨[_], back, rfl⟩
  | uncommitted e back => exact ⟨[_, _], back, rfl⟩

namespace Editor

variable (ed : Editor σ) (table : String) {s : Statement}

/-- A statement is sent, and what is reported of it is the outcome. -/
theorem logged_run_tried (sends : ed.collects = false) (valid : s.fragment.validate = .ok ())
    (x : State (Noted σ Logged)) : ∃ calls, (ed.logged.run table s x).2.base.link.notes = x.base.link.notes ++ calls ∧
      Tried s ed.options.commitAfterDdl calls (failureOf (ed.logged.run table s x).1) := by
  have sends : ¬ed.logged.collects = true := ne_true_of_eq_false sends
  rw [run_apply, execute, Action.bind_apply, Action.lift_apply, valid]
  dsimp only
  rw [if_neg sends]
  exact ed.send_logs s x.base.link

/-- A statement is collected instead, or it is refused. -/
theorem run_unsent (quiet : ed.collects = true ∨ ∃ e, s.fragment.validate = .error e) (x : State σ) :
    (ed.run table s x).1 = s.fragment.validate ∧ (ed.run table s x).2.base.link = x.base.link := by
  rw [run_apply, execute, Action.bind_apply, Action.lift_apply]
  cases valid : s.fragment.validate with
  | error e => exact ⟨rfl, rfl⟩
  | ok _ =>
    have collects : ed.collects = true := quiet.resolve_right fun ⟨e, invalid⟩ => nomatch valid.symm.trans invalid
    dsimp only
    rw [if_pos collects]
    exact ⟨rfl, rfl⟩

section Steps

variable (name : String) (columns : List String) (unique : Bool) {x y : State σ} {e : Error}

theorem createIndex_of_ok
    (h : ed.run table (.createIndex unique (ed.quote name) (ed.quote table) (ed.quoteAll columns)) x = (.ok (), y)) :
    ed.createIndex table name columns unique x = (.ok (), y) := by
  rw [createIndex, Action.bind_apply, Action.attempt_apply, h]
  rfl

theorem createIndex_of_tooBig
    (h : ed.run table (.createIndex unique (ed.quote name) (ed.quote table) (ed.quoteAll columns)) x = (.error e, y))
    (tooBig : e.isKeyTooBig = true) : ed.createIndex table name columns unique x =
      ed.run table (.createHashIndex unique (ed.quote name) (ed.quote table) (ed.quoteAll columns)) y := by
  rw [createIndex, Action.bind_apply, Action.attempt_apply, h]
  dsimp only
  rw [if_pos tooBig]

theorem createIndex_of_other
    (h : ed.run table (.createIndex unique (ed.quote name) (ed.quote table) (ed.quoteAll columns)) x = (.error e, y))
    (other : e.isKeyTooBig = false) : ed.createIndex table name columns unique x = (.error e, y) := by
  rw [createIndex, Action.bind_apply, Action.attempt_apply, h]
  dsimp only
  rw [if_neg (ne_true_of_eq_false other)]
  rfl

theorem createIndex_unsent {direct : Statement}
    (is : direct = .createIndex unique (ed.quote name) (ed.quote table) (ed.quoteAll columns))
    (quiet : ed.collects = true ∨ ∃ e, direct.fragment.validate = .error e) (x : State σ) :
    (ed.createIndex table name columns unique x).1 = direct.fragment.validate ∧
      (ed.createIndex table name columns unique x).2.base.link = x.base.link := by
  obtain ⟨ended, link⟩ := ed.run_unsent table quiet x
  revert ended link
  cases ran : ed.run table direct x with
  | mk r y =>
    rintro ended link
    rw [is] at ran
    cases r with
    | ok _ =>
      rw [ed.createIndex_of_ok table name columns unique ran]
      exact ⟨ended, link⟩
    | error e =>
      have other : e.isKeyTooBig = false := Fragment.not_isKeyTooBig_of_validate ended.symm
      rw [ed.createIndex_of_other table name columns unique ran other]
      exact ⟨ended, link⟩

end Steps

/-- Whatever fails on the way, an index is made by at most two statements. The second is sent exactly if the failure
that is reported of the first is a key that is too long, and it is the first but for the hash that takes the place of
the columns. With a commit after every statement the first is rolled back before. What is reported of the last statement
is the outcome, another key that is too long included. An editor that collects sends nothing, nor does one for an index
whose names have placeholders in them. -/
theorem createIndex_falls_back (table name : String) (columns : List String) (unique : Bool)
    (x : State (Noted σ Logged)) :
    let head := Statement.createIndexHead unique (ed.quote name) (ed.quote table)
    let direct := Statement.createIndex unique (ed.quote name) (ed.quote table) (ed.quoteAll columns)
    let hashed := Statement.createHashIndex unique (ed.quote name) (ed.quote table) (ed.quoteAll columns)
    let commits := ed.options.commitAfterDdl
    let outcome := ed.logged.createIndex table name columns unique x
    direct.fragment = .sql (head ++ " (" ++ Statement.identifiers (ed.quoteAll columns) ++ ")") ∧
    hashed.fragment = .sql (head ++ " COMPUTED BY (" ++ ed.engine.hashSource columns ++ ")") ∧
    ∃ first second, outcome.2.base.link.notes = x.base.link.notes ++ first ++ second ∧
      match direct.fragment.validate, ed.collects with
      | .ok (), false => ∃ r, Tried direct commits first r ∧
        if r.any Error.isKeyTooBig then
          Tried hashed commits second (failureOf outcome.1) ∧ Logged.sent (first ++ second) = [direct, hashed] ∧
            (commits = true → ∃ before back, first = before ++ [⟨.rollback, back⟩])
        else second = [] ∧ failureOf outcome.1 = r ∧ Logged.sent first = [direct]
      | valid, _ => first = [] ∧ second = [] ∧ outcome.1 = valid := by
  intro head direct hashed commits outcome
  have made : ed.logged.createIndex table name columns unique x = outcome := rfl
  clear_value outcome
  refine ⟨rfl, rfl, ?_⟩
  have unsent (quiet : ed.collects = true ∨ ∃ e, direct.fragment.validate = .error e) :
      outcome.1 = direct.fragment.validate ∧ outcome.2.base.link.notes = x.base.link.notes ++ [] ++ [] := by
    obtain ⟨ended, link⟩ := ed.logged.createIndex_unsent table name columns unique rfl quiet x
    rw [← made, link, List.append_nil, List.append_nil]
    exact ⟨ended, rfl⟩
  cases valid : direct.fragment.validate with
  | error e =>
    obtain ⟨ended, notes⟩ := unsent (.inr ⟨e, valid⟩)
    exact ⟨[], [], notes, rfl, rfl, ended.trans valid⟩
  | ok _ =>
    cases mode : ed.collects with
    | true =>
      obtain ⟨ended, notes⟩ := unsent (.inl mode)
      exact ⟨[], [], notes, rfl, rfl, ended.trans valid⟩
    | false =>
      obtain ⟨first, notes, tried⟩ := ed.logged_run_tried table mode valid x
      obtain ⟨r, y, ran⟩ : ∃ r y, ed.logged.run table direct x = (r, y) := ⟨_, _, rfl⟩
      rw [ran] at notes tried
      have sent : Logged.sent first = [direct] := tried.sent_eq rfl
      cases r with
      | ok _ =>
        obtain rfl := made.symm.trans (ed.logged.createIndex_of_ok table name columns unique ran)
        refine ⟨first, [], ?_, none, tried, rfl, rfl, sent⟩
        rw [notes, List.append_nil]
      | error e =>
        cases tooBig : e.isKeyTooBig with
        | false =>
          obtain rfl := made.symm.trans (ed.logged.createIndex_of_other table name columns unique ran tooBig)
          refine ⟨first, [], ?_, some e, tried, ?_⟩
          · rw [notes, List.append_nil]
          · rw [if_neg (show ¬(some e).any Error.isKeyTooBig = true from ne_true_of_eq_false tooBig)]
            exact ⟨rfl, rfl, sent⟩
        | true =>
          have again : outcome = ed.logged.run table hashed y :=
            made.symm.trans (ed.logged.createIndex_of_tooBig table name columns unique ran tooBig)
          have valid' : hashed.fragment.validate = .ok () := (Statement.validate_createHashIndex ..).trans valid
          obtain ⟨second, notes', tried'⟩ := ed.logged_run_tried table mode valid' y
          rw [← again] at notes' tried'
          refine ⟨first, second, ?_, some e, tried, ?_⟩
          · rw [notes', notes]
          · rw [if_pos (show (some e).any Error.isKeyTooBig = true from tooBig)]
            refine ⟨tried', ?_, fun committing => ?_⟩
            · rw [Logged.sent_append, sent, tried'.sent_eq rfl]
              rfl
            · have tried : Tried direct commits first (some e) := tried
              rw [committing] at tried
              exact tried.rolledBack

end Editor

end FirebirdSql
