import FirebirdSql.Proofs.Along
import FirebirdSql.Proofs.Editor.Rows

/-!
What an editor has sent, or collected instead. Of the statements by which a field is altered only those weigh that change
the column, and after them those that make it count or stop to count.
-/

namespace FirebirdSql.Editor

open Action (Keeps Triple Ends ends_ok ends_error)
open Statement (weighty)

/-- All statements so far, those included that the connection has refused. -/
def sent (ed : Editor σ) (x : State (Noted σ Statement)) : List Statement :=
  if ed.collects then x.collected else x.base.link.notes

/-- Beyond `start` statements were sent of which these weigh. -/
def Sent (ed : Editor σ) (start ss : List Statement) (x : State (Noted σ Statement)) : Prop :=
  ∃ all, ed.sent x = start ++ all ∧ weighty all = ss

variable {ed : Editor σ} {start ss : List Statement} {x y : State (Noted σ Statement)} {s : Statement} {table : String}

theorem sent_of_sends (sends : ed.collects = false) (x : State (Noted σ Statement)) : ed.sent x = x.base.link.notes :=
  if_neg (by rw [sends]; exact Bool.false_ne_true)

theorem sent_of_collects (collects : ed.collects = true) (x : State (Noted σ Statement)) : ed.sent x = x.collected :=
  if_pos collects

theorem Sent.refl (x : State (Noted σ Statement)) : ed.Sent (ed.sent x) [] x := ⟨[], (List.append_nil _).symm, rfl⟩

theorem Sent.same (h : ed.Sent start ss x) (hy : ed.sent y = ed.sent x) : ed.Sent start ss y := by
  rw [Sent, hy]
  exact h

theorem Sent.more (h : ed.Sent start ss x) (hy : ed.sent y = ed.sent x ++ [s]) : ed.Sent start (ss ++ weighty [s]) y := by
  obtain ⟨all, beyond, rfl⟩ := h
  refine ⟨all ++ [s], ?_, Statement.weighty_append all [s]⟩
  rw [hy, beyond, List.append_assoc]

theorem Sent.weighing (h : ed.Sent start ss x) (weighs : s.isAside = false) (hy : ed.sent y = ed.sent x ++ [s]) :
    ed.Sent start (ss ++ [s]) y := Statement.weighty_singleton weighs ▸ h.more hy

theorem Sent.aside (h : ed.Sent start ss x) (aside : s.isAside = true) (hy : ed.sent y = ed.sent x ++ [s]) :
    ed.Sent start ss y := by
  have more := h.more hy
  rwa [Statement.weighty_aside aside, List.append_nil] at more

/-- A statement that succeeds was sent, and one that fails may have been. -/
theorem run_sends_one (ed : Editor σ) (table : String) (s : Statement) (x : State (Noted σ Statement)) :
    Ends (fun _ y => ed.sent y = ed.sent x ++ [s]) (fun _ y => ed.sent y = ed.sent x ∨ ed.sent y = ed.sent x ++ [s])
      (ed.recording.run table s x) := by
  rw [run_apply, execute, Action.bind_apply, Action.lift_apply]
  cases s.fragment.validate with
  | error e => exact ends_error.mpr (.inl rfl)
  | ok _ =>
    dsimp only
    cases collects : ed.collects with
    | true =>
      rw [show ed.recording.collects = true from collects, if_pos rfl]
      refine ends_ok.mpr ?_
      rw [sent_of_collects collects, sent_of_collects collects]
      rfl
    | false =>
      have noted := ed.noting_send_adds (fun s => [s]) (fun _ => []) s x.base.link
      rw [show ed.recording.collects = false from collects, if_neg Bool.false_ne_true]
      have more : ed.sent (onLink (ed.recording.send s) x).2 = ed.sent x ++ [s] := by
        rw [sent_of_sends collects, sent_of_sends collects]
        exact noted
      revert more
      obtain ⟨r, y⟩ := onLink (ed.recording.send s) x
      intro more
      cases r with
      | ok _ => exact ends_ok.mpr more
      | error e => exact ends_error.mpr (.inr more)

theorem ask_sent (q : CatalogQuery) : Keeps (ed.Sent start ss) (onLink (Catalog.ask ed.recording.cursor q)) := by
  intro x h
  cases collects : ed.collects with
  | true => exact h.same (by rw [sent_of_collects collects, sent_of_collects collects]; rfl)
  | false =>
    have asked := Cursor.noting_query_triple ed.cursor (fun s => [s]) (fun _ => []) (.catalog q) _ x.base.link rfl
    have noted := Action.ends_always.mp (asked.mono (fun _ _ hn => hn.trans (List.append_nil _)) fun _ _ hn => hn)
    refine h.aside (s := .catalog q) rfl ?_
    rw [sent_of_sends collects, sent_of_sends collects]
    exact noted

theorem commit_sent : Keeps (ed.Sent start ss) (onLink ed.recording.cursor.commit) := by
  intro x h
  have noted := Cursor.noting_commit_adds ed.cursor (fun s => [s]) (fun _ => []) x.base.link
  refine h.same ?_
  cases collects : ed.collects with
  | true => rw [sent_of_collects collects, sent_of_collects collects]; rfl
  | false =>
    rw [sent_of_sends collects, sent_of_sends collects]
    exact noted.trans (List.append_nil _)

theorem keeper_sent (ed : Editor σ) (start ss : List Statement) :
    Keeper ed.recording (ed.Sent start ss) (fun _ s => s.isAside = true) fun _ => True := by
  refine Keeper.of_blind (fun _ _ _ => id) (fun table s aside x h => ?_) ask_sent commit_sent
  have one : Ends (fun _ => ed.Sent start ss) (fun _ => ed.Sent start ss) (ed.recording.run table s x) :=
    (run_sends_one ed table s x).mono (fun _ _ => h.aside aside) fun _ _ hy => hy.elim h.same (h.aside aside)
  exact Action.ends_always.mp one

theorem run_sent (weighs : s.isAside = false) :
    Triple (ed.Sent start ss) (ed.recording.run table s) (fun _ => ed.Sent start (ss ++ [s]))
      (fun _ y => ed.Sent start ss y ∨ ed.Sent start (ss ++ [s]) y) := fun x h =>
  (run_sends_one ed table s x).mono (fun _ _ => h.weighing weighs) fun _ _ hy => hy.imp h.same (h.weighing weighs)

/-- What is sent of statements that all weigh, up to the first that fails. -/
theorem runAll_sent {more : List Statement} (weigh : ∀ s ∈ more, s.isAside = false) :
    Triple (ed.Sent start ss) (ed.recording.runAll table more) (fun _ => ed.Sent start (ss ++ more))
      (fun _ y => ∃ part, part <+: more ∧ ed.Sent start (ss ++ part) y) := by
  induction more generalizing ss with
  | nil =>
    rw [List.append_nil]
    exact Triple.pure fun _ => id
  | cons s more ih =>
    have rest := @ih (ss ++ [s]) fun s' hs => weigh s' (List.mem_cons_of_mem s hs)
    rw [List.append_assoc] at rest
    refine Triple.bind (R := fun _ => ed.Sent start (ss ++ [s])) ?_ fun _ => ?_
    · -- The statement that fails may not have been sent at all, if it could not be made.
      refine (run_sent (weigh s List.mem_cons_self)).weaken (fun _ => id) (fun _ _ => id) fun _ y hy => ?_
      rcases hy with hy | hy
      · exact ⟨[], List.nil_prefix, by rwa [List.append_nil]⟩
      · exact ⟨[s], List.prefix_append [s] more, hy⟩
    · refine rest.weaken (fun _ => id) (fun _ _ => id) fun _ y hy => ?_
      obtain ⟨part, first, hy⟩ := hy
      exact ⟨s :: part, List.cons_prefix_cons.mpr ⟨rfl, first⟩, by rwa [List.append_assoc] at hy⟩

theorem allowsKeys_aside (ed : Editor σ) (Listed : Catalog.IncomingKey → Prop) :
    ed.AllowsKeys (fun _ s => s.isAside = true) Listed := fun _ _ _ named => Statement.isAside_of_table? named

/-- After the statements `ss` what weighs is only about what counts for a table. -/
def Counted (ed : Editor σ) (start ss : List Statement) (x : State (Noted σ Statement)) : Prop :=
  ∃ cs, (∀ s ∈ cs, s.counts = true) ∧ ed.Sent start (ss ++ cs) x

theorem keeper_counted (ed : Editor σ) (start ss : List Statement) :
    Keeper ed.recording (ed.Counted start ss) (fun _ s => s.keepsRows = true) fun _ => True := by
  refine Keeper.of_blind (fun _ _ _ => id) ?_ ?_ ?_
  · rintro table s keeps x ⟨cs, count, h⟩
    -- What keeps rows either counts and comes after the others, or is aside.
    cases counts : s.counts with
    | false =>
      have aside : s.isAside = true := by rw [Statement.isAside, keeps, counts]; rfl
      exact ⟨cs, count, (keeper_sent ed start _).run table s aside x h⟩
    | true =>
      have weighs : s.isAside = false := by rw [Statement.isAside, keeps, counts]; rfl
      have more {y : State (Noted σ Statement)} (hy : ed.Sent start (ss ++ cs ++ [s]) y) : ed.Counted start ss y :=
        ⟨cs ++ [s], List.forall_mem_append.mpr ⟨count, List.forall_mem_singleton.mpr counts⟩,
          by rwa [List.append_assoc] at hy⟩
      have ran : Ends (fun _ => ed.Counted start ss) (fun _ => ed.Counted start ss) (ed.recording.run table s x) :=
        (run_sent weighs x h).mono (fun _ _ => more) fun _ _ hy => hy.elim (fun hy => ⟨cs, count, hy⟩) more
      exact Action.ends_always.mp ran
  · exact fun q x ⟨cs, count, h⟩ => ⟨cs, count, ask_sent q x h⟩
  · exact fun x ⟨cs, count, h⟩ => ⟨cs, count, commit_sent x h⟩

theorem columnStatements_weigh (a : Alteration) (e : Engine) (o : Options) :
    ∀ s ∈ a.columnStatements e o, s.isAside = false := by
  intro s hs
  cases Alteration.changesColumn_of_mem hs <;> rfl

/-- What weighs of the statements by which a field is altered: those that change the column, all of them and in their
order after a success, and then those about what counts for the table. -/
theorem alterField_sends (ed : Editor σ) (a : Alteration) (x : State (Noted σ Statement)) :
    Ends (fun _ => ed.Counted (ed.sent x) (a.columnStatements ed.engine ed.options))
      (fun _ y => ∃ cs part, (∀ s ∈ cs, s.counts = true) ∧ part <+: a.columnStatements ed.engine ed.options ++ cs ∧
        ed.Sent (ed.sent x) part y)
      (ed.recording.alterField a x) := by
  have counting : ed.recording.AllowsQuiet (fun _ s => s.keepsRows = true) a.table := fun _ _ keeps => keeps
  have counted := keeper_counted ed (ed.sent x) (a.columnStatements ed.engine ed.options)
  have column := keeper_sent ed (ed.sent x) (a.columnStatements ed.engine ed.options)
  refine Keeper.alterField_counting_triple (keeper_sent ed (ed.sent x) []) column (fun _ _ aside => aside)
    (allowsKeys_aside _ _) ?_ ?_ counted.refresh ?_ ?_ ?_ x (.refl x)
  · refine (runAll_sent (columnStatements_weigh a ed.engine ed.options)).weaken (fun _ => id) (fun _ _ => id) ?_
    rintro - y ⟨part, first, hy⟩
    exact ⟨[], part, by simp, by rwa [List.append_nil], hy⟩
  · refine (Action.keeps_iff_triple.mp (counted.alterCounting counting)).weaken ?_ (fun _ _ => id) ?_
    · exact fun y hy => ⟨[], by simp, by rwa [List.append_nil]⟩
    · exact fun _ y ⟨cs, count, hy⟩ => ⟨cs, _, count, List.prefix_rfl, hy⟩
  · exact fun _ y hy => ⟨[], [], by simp, List.nil_prefix, hy⟩
  · exact fun _ y hy => ⟨[], _, by simp, List.prefix_append _ [], hy⟩
  · exact fun _ y ⟨cs, count, hy⟩ => ⟨cs, _, count, List.prefix_rfl, hy⟩

end FirebirdSql.Editor
