import FirebirdSql.Proofs.Editor.Program
import FirebirdSql.Proofs.Placeholders

/-!
The transactions of an editor that sends its statements. Each statement is one of its own if the options say so, and
what fails is rolled back before the request ends or goes on with another form of the index; otherwise an editor neither
commits nor rolls back, but for the commit by which it refreshes the connection.
-/

namespace FirebirdSql

theorem Statement.validate_of_retry? {s s' : Statement} (h : s.retry? = some s') :
    s'.fragment.validate = s.fragment.validate := by
  cases s with
  | createIndex unique name table columns =>
    obtain rfl := Option.some.inj h
    exact validate_createHashIndex unique name table columns
  | _ => cases h

theorem Fragment.not_isKeyTooBig_of_validate {f : Fragment} {e : Error} (h : f.validate = .error e) :
    e.isKeyTooBig = false := by
  unfold validate at h
  split at h
  · cases h
  · obtain rfl := Except.error.inj h
    rfl

/-- What it comes to that a statement is executed: it is tried, unless its values are missing. -/
inductive Executed (s : Statement) (commits : Bool) : List Logged → Option Error → Prop where
  | tried : s.fragment.validate = .ok () → Tried s commits calls r → Executed s commits calls r
  | unsent (e : Error) : s.fragment.validate = .error e → Executed s commits [] (some e)

namespace Executed

variable {s s' : Statement} {commits : Bool} {calls calls' : List Logged} {e : Error} {r : Option Error}

theorem changed (h : Executed s commits calls none) (change : s.isCatalogRead = false) : Course commits calls none := by
  cases h with
  | tried _ h =>
    rw [← List.append_nil calls]
    exact .changed change h (.ends none)

theorem stopped (h : Executed s commits calls (some e)) (change : s.isCatalogRead = false)
    (last : s.retry? = none ∨ e.isKeyTooBig = false) : Course commits calls (some e) := by
  cases h with
  | tried _ h => exact .stopped change h last
  | unsent => exact .ends (some e)

theorem course (h : Executed s commits calls r) (single : s.isSingle = true) : Course commits calls r := by
  cases r with
  | none => exact h.changed (Statement.isCatalogRead_of_single single)
  | some e =>
    exact h.stopped (Statement.isCatalogRead_of_single single) (.inl (Statement.retry?_of_single single))

/-- What takes the place of a statement that was sent has its values too. -/
theorem retried (h : Executed s commits calls (some e)) (tooBig : e.isKeyTooBig = true) (hr : s.retry? = some s')
    (h' : Executed s' commits calls' r) : Course commits (calls ++ calls') r := by
  cases h with
  | unsent _ invalid => exact absurd tooBig (by simp [Fragment.not_isKeyTooBig_of_validate invalid])
  | tried valid h =>
    cases h' with
    | unsent _ invalid =>
      rw [Statement.validate_of_retry? hr, valid] at invalid
      cases invalid
    | tried _ h' =>
      cases r with
      | none =>
        rw [← List.append_nil (calls ++ calls')]
        exact .retried hr h tooBig h' (.ends none)
      | some e' => exact .retriedInVain hr h tooBig h'

end Executed

namespace Editor

open Noted (Logs)

/-- The editor over the connection that logs its calls. -/
def logged (ed : Editor σ) : Editor (Noted σ Logged) := ⟨ed.cursor.logged, ed.engine, ed.options, ed.collects⟩

theorem send_logs (ed : Editor σ) (s : Statement) :
    Logs (Tried s ed.options.commitAfterDdl) (ed.logged.send s) := by
  unfold send
  split
  · next h =>
    rw [show ed.options.commitAfterDdl = true from h]
    exact ed.cursor.logged_executeCommitted s
  · next h =>
    rw [show ed.options.commitAfterDdl = false from Bool.not_eq_true _ ▸ h]
    exact ed.cursor.logged_executeClassified s

/-- Nothing is put off but statements that nothing takes the place of. -/
def State.Tidy (s : State σ) : Prop := ∀ d ∈ s.deferred, d.isSingle = true

/-- The calls that the log gets are as `K` says for the outcome. -/
def Follows (K : List Logged → Option Error → Prop) (x : Edit (Noted σ Logged) α) : Prop :=
  ∀ s, s.Tidy → (x s).2.Tidy ∧
    ∃ calls, (x s).2.base.link.notes = s.base.link.notes ++ calls ∧ K calls (failureOf (x s).1)

theorem finish_apply (ed : Editor σ) (s : State σ) : (do let _ ← ed.finish; return () : Edit σ Unit) s =
    Action.forEach ed.execute s.deferred { s with deferred := [] } := by
  simp only [finish, Action.bind_apply, Action.get_apply, Action.modify_apply]
  obtain ⟨r, t⟩ := Action.forEach ed.execute s.deferred { s with deferred := [] }
  cases r <;> rfl

namespace Follows

variable {commits : Bool} {K : List Logged → Option Error → Prop}

theorem mono {J : List Logged → Option Error → Prop} {x : Edit (Noted σ Logged) α} (h : Follows J x)
    (hk : ∀ calls r, J calls r → K calls r) : Follows K x := by
  intro s tidy
  obtain ⟨tidy, calls, notes, done⟩ := h s tidy
  exact ⟨tidy, calls, notes, hk calls _ done⟩

theorem onLink {x : Action (Noted σ Logged) α} (h : Logs K x) : Follows K (onLink x) :=
  fun s tidy => ⟨tidy, h s.base.link⟩

theorem lift {r : Except Error α} (h : K [] (failureOf r)) : Follows K (Action.lift r : Edit (Noted σ Logged) α) :=
  fun _ tidy => ⟨tidy, [], (List.append_nil _).symm, h⟩

/-- What is done after a failure continues the calls that led to it. -/
theorem attempt {J : List Logged → Option Error → Prop} {x : Edit (Noted σ Logged) α}
    {f : Except Error α → Edit (Noted σ Logged) β} (hx : Follows J x)
    (hf : ∀ calls r, J calls (failureOf r) → Follows (fun calls' => K (calls ++ calls')) (f r)) :
    Follows K (x.attempt >>= f) := by
  intro s tidy
  obtain ⟨tidy, calls, notes, done⟩ := hx s tidy
  obtain ⟨tidy, calls', notes', rest⟩ := hf calls (x s).1 done (x s).2 tidy
  rw [notes, List.append_assoc] at notes'
  exact ⟨tidy, calls ++ calls', notes', rest⟩

theorem bind {x : Edit (Noted σ Logged) α} {f : α → Edit (Noted σ Logged) β}
    (stop : ∀ calls e, Course commits calls (some e) → K calls (some e))
    (go : ∀ calls calls' r, Course commits calls none → K calls' r → K (calls ++ calls') r)
    (hx : Follows (Course commits) x) (hf : ∀ a, Follows K (f a)) : Follows K (x >>= f) := by
  intro s tidy
  obtain ⟨tidy, calls, notes, course⟩ := hx s tidy
  rw [Action.bind_apply]
  revert tidy notes course
  obtain ⟨r, t⟩ := x s
  cases r with
  | error e => exact fun tidy notes course => ⟨tidy, calls, notes, stop calls e course⟩
  | ok a =>
    intro tidy notes course
    obtain ⟨tidy, calls', notes', rest⟩ := hf a t tidy
    refine ⟨tidy, calls ++ calls', ?_, go calls calls' _ course rest⟩
    rw [notes', notes, List.append_assoc]

theorem course_bind {x : Edit (Noted σ Logged) α} {f : α → Edit (Noted σ Logged) β} (hx : Follows (Course commits) x)
    (hf : ∀ a, Follows (Course commits) (f a)) : Follows (Course commits) (x >>= f) :=
  bind (fun _ _ => id) (fun _ _ _ => Course.append) hx hf

variable {ed : Editor σ}

theorem execute (s : Statement) :
    Follows (Executed s ed.options.commitAfterDdl) (ed.logged.sending.execute s) := by
  intro t tidy
  unfold Editor.execute
  rw [Action.bind_apply, Action.lift_apply]
  cases valid : s.fragment.validate with
  | error e => exact ⟨tidy, [], (List.append_nil _).symm, .unsent e valid⟩
  | ok _ =>
    obtain ⟨tidy, calls, notes, tried⟩ := onLink (ed.send_logs s) t tidy
    exact ⟨tidy, calls, notes, .tried valid tried⟩

theorem run (table : String) (s : Statement) :
    Follows (Executed s ed.options.commitAfterDdl) (ed.logged.sending.run table s) := by
  intro t tidy
  have executed : Follows (Executed s ed.options.commitAfterDdl) (ed.logged.sending.execute s) := execute s
  obtain ⟨tidy, calls, notes, done⟩ := executed t tidy
  rw [run_apply]
  exact ⟨tidy, calls, notes, done⟩

/-- An index whose key is too long is tried over its hash, and nothing else is tried again. -/
theorem createIndex (table name : String) (columns : List String) (unique : Bool) :
    Follows (Course ed.options.commitAfterDdl) (ed.logged.sending.createIndex table name columns unique) := by
  refine attempt (run table _) fun calls r done => ?_
  cases r with
  | ok _ =>
    refine lift ?_
    rw [List.append_nil]
    exact done.changed rfl
  | error e =>
    change Follows _ (if e.isKeyTooBig then ed.logged.sending.run table _ else Action.lift (.error e))
    split
    · next tooBig => exact (run table _).mono fun calls' r done' => done.retried tooBig rfl done'
    · next other =>
      refine lift ?_
      rw [List.append_nil]
      exact done.stopped rfl (.inr (Bool.not_eq_true _ ▸ other))

/-- What the cache has costs no call. -/
theorem cached {i : Catalog.Inquiry} {c : Cursor (Noted σ Logged)} {e : Engine}
    (h : Follows (Course commits) (Editor.onLink (i.direct c e))) :
    Follows (Course commits) (onBase (i.cached c e)) := by
  intro s tidy
  cases hit : i.found s.base.cache with
  | some d =>
    rw [onBase, Action.within_apply, Catalog.Inquiry.cached_hit hit]
    exact ⟨tidy, [], (List.append_nil _).symm, .ends none⟩
  | none =>
    obtain ⟨outcome, link, -⟩ := Catalog.Inquiry.cached_miss (c := c) (e := e) hit
    obtain ⟨-, calls, notes, course⟩ := h s tidy
    rw [onBase, Action.within_apply]
    refine ⟨tidy, calls, (congrArg Noted.notes link).trans notes, ?_⟩
    rw [outcome]
    exact course

theorem defer {ss : List Statement} (h : ∀ s ∈ ss, s.isSingle = true) :
    Follows (Course commits) (Editor.defer ss : Edit (Noted σ Logged) Unit) :=
  fun _ tidy => ⟨List.forall_mem_append.mpr ⟨tidy, h⟩, [], (List.append_nil _).symm, .ends none⟩

theorem finish {ed : Editor (Noted σ Logged)} (h : ∀ ss : List Statement, (∀ s ∈ ss, s.isSingle = true) →
      Follows (Course commits) (Action.forEach ed.execute ss)) :
    Follows (Course commits) (do let _ ← ed.finish; return ()) := by
  intro s tidy
  rw [finish_apply]
  exact h s.deferred tidy { s with deferred := [] } fun d hd => absurd hd List.not_mem_nil

end Follows

theorem InStep.follows {ed : Editor σ} {P : CatalogQuery → Prop} {x y : Edit (Noted σ Logged) α}
    (h : InStep ed.logged P x y) : Follows (Course ed.options.commitAfterDdl) y := by
  -- A failure ends every step but the creation of an index, so only there two statements are looked at together.
  induction h with
  | lift r => exact .lift (.ends _)
  | bind _ _ ihx ihf => exact ihx.course_bind ihf
  | execute s single => exact (Follows.execute s).mono fun _ _ done => done.course single
  | run table s single => exact (Follows.run table s).mono fun _ _ done => done.course single
  | createIndex table name columns unique => exact .createIndex table name columns unique
  | ask q => exact .onLink (ed.cursor.logged_query _ q)
  | inquire i _ ih => exact ih.cached
  | presume q read given _ _ =>
    rw [onLink_bind]
    exact (Follows.onLink (ed.cursor.logged_query _ q)).course_bind fun _ => .lift (.ends _)
  | defer ss single => exact .defer single
  | finish _ ih => exact .finish ih

theorem Ending.follows {ed : Editor σ} {P : CatalogQuery → Prop} {x y : Edit (Noted σ Logged) Unit}
    (h : Ending ed.logged P x y) :
    Follows (Concluded ed.options.commitAfterDdl ed.options.persistsOldColumns) y := by
  induction h with
  | refresh =>
    unfold Editor.refresh
    split
    · next h =>
      have persists : ed.options.persistsOldColumns = true := (Bool.and_eq_true_iff.mp h).1
      rw [persists]
      refine .onLink fun t => ⟨[_], rfl, ?_⟩
      exact .refreshed _ (.ends none)
    · next h =>
      have persists : ed.options.persistsOldColumns = false := by simpa [sending, logged] using h
      rw [persists]
      exact .lift (.complete (.ends none))
  | bind hx _ ih => exact .bind (fun _ _ => .stopped) (fun _ _ _ => Concluded.prepend) hx.follows ih

/-- Along any requests, and whatever fails, each one leaves in the log the calls of a course. Without a commit after
every statement nothing is rolled back, and at most the last call is a commit, if the columns of a table are others
then. -/
theorem requests_concluded (c : Cursor σ) (e : Engine) (o : Options) (b : Catalog.Cached (Noted σ Logged))
    (before : List Request) (r : Request) :
    let ed : Editor (Noted σ Logged) := ⟨c.logged, e, o, false⟩
    let s := Action.after (Request.run ed) before (.ofBase b)
    ∃ calls, (r.run ed s).2.base.link.notes = s.base.link.notes ++ calls ∧
      Concluded o.commitAfterDdl (r.refreshes && o.persistsOldColumns) calls (failureOf (r.run ed s).1) ∧
      (o.commitAfterDdl = false → ∃ sent last, calls = sent ++ last ∧ (∀ l ∈ sent, ∃ s, l.call = .execute s) ∧
        (last = [] ∨ r.refreshes = true ∧ o.persistsOldColumns = true ∧ ∃ f, last = [⟨.commit, f⟩])) := by
  intro ed s
  have follows (r : Request) : Follows (Concluded o.commitAfterDdl (r.refreshes && o.persistsOldColumns)) (r.run ed) := by
    let plain : Editor σ := ⟨c, e, o, false⟩
    cases h : r.refreshes with
    | false => exact (Request.inStep plain.logged h).follows.mono fun _ _ course => course.concluded
    | true => exact (Request.ending plain.logged h).follows
  have tidy : s.Tidy := by
    refine Action.Keeps.after (I := State.Tidy) (fun r _ s tidy => (follows r s tidy).1) ?_
    exact fun d hd => absurd hd List.not_mem_nil
  obtain ⟨-, calls, notes, concluded⟩ := follows r s tidy
  refine ⟨calls, notes, concluded, fun keeps => ?_⟩
  rw [keeps] at concluded
  obtain ⟨sent, last, split, sends, ends⟩ := concluded.executes
  refine ⟨sent, last, split, sends, ends.imp_right fun ⟨refreshes, commit⟩ => ?_⟩
  rw [Bool.and_eq_true] at refreshes
  exact ⟨refreshes.1, refreshes.2, _, commit⟩

/-- A key that is too long is rolled back before its hash is tried. -/
example :
    let tooLong : Script.Failure := ⟨"(\"TITLE\")", 0, some 1, ⟨-607, Error.keyTooBigCode, ""⟩⟩
    let ed : Editor (Noted Script Logged) := ⟨Script.cursor.logged, ⟨⟨3, 0, 0, 0⟩⟩, Options.standard, false⟩
    ((Request.createIndex "book" "by_title" ["title"] false).run ed
        (.ofBase ⟨⟨⟨"", [], [tooLong], [], []⟩, []⟩, .empty⟩)).2.base.link.notes.map (·.call.text) =
      ["CREATE INDEX \"BY_TITLE\" ON \"BOOK\" (\"TITLE\")", "ROLLBACK",
        "CREATE INDEX \"BY_TITLE\" ON \"BOOK\" COMPUTED BY (HASH(\"TITLE\"))", "COMMIT"] := by
  decide +kernel

end Editor

end FirebirdSql
