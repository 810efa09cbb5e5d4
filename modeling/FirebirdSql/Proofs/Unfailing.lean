import FirebirdSql.Proofs.Editor.Rehearsal
import FirebirdSql.Proofs.Trace

/-!
What is achieved on a connection that does not fail: an operation comes to an end, and sends all its statements, in the
order of the program.
-/

namespace FirebirdSql

/-- No call of the connection fails. What rows it fetches is open. -/
structure Cursor.Unfailing (c : Cursor σ) : Prop extends c.Accepts where
  start : ∀ o link, (c.start o link).1 = .ok ()
  fetchAll : ∀ link, ∃ rows, (c.fetchAll link).1 = .ok rows

namespace Noted

/-- The action succeeds, and its result and the statements that it sends, questions apart, are as `p` says. -/
def Achieves (x : Action (Noted σ Logged) α) (p : α → List Statement → Prop) : Prop :=
  ∀ s, ∃ a t sent, x s = (.ok a, t) ∧ Logged.sent t.notes = Logged.sent s.notes ++ sent ∧ p a sent

namespace Achieves

variable {x : Action (Noted σ Logged) α} {f : α → Action (Noted σ Logged) β} {p p' : α → List Statement → Prop}
variable {q : β → List Statement → Prop}

theorem mono (h : Achieves x p) (hp : ∀ a sent, p a sent → p' a sent) : Achieves x p' := by
  intro s
  obtain ⟨a, t, sent, run, notes, ha⟩ := h s
  exact ⟨a, t, sent, run, notes, hp a sent ha⟩

theorem pure {a : α} (h : p a []) : Achieves (Pure.pure a : Action (Noted σ Logged) α) p :=
  fun s => ⟨a, s, [], rfl, (List.append_nil _).symm, h⟩

theorem bind (hx : Achieves x p) (hf : ∀ a sent, p a sent → Achieves (f a) fun b more => q b (sent ++ more)) :
    Achieves (x >>= f) q := by
  intro s
  obtain ⟨a, t, sent, run, notes, ha⟩ := hx s
  obtain ⟨b, u, more, run', notes', hb⟩ := hf a sent ha t
  refine ⟨b, u, sent ++ more, (Action.bind_of_ok run).trans run', ?_, hb⟩
  rw [notes', notes, List.append_assoc]

theorem attempt (h : Achieves x p) : Achieves x.attempt fun r sent => ∃ a, r = .ok a ∧ p a sent := by
  intro s
  obtain ⟨a, t, sent, run, notes, ha⟩ := h s
  refine ⟨.ok a, t, sent, ?_, notes, a, rfl, ha⟩
  rw [Action.attempt_apply, run]

theorem forEach {f : α → Action (Noted σ Logged) Unit} {g : α → Statement}
    (h : ∀ a, Achieves (f a) fun _ sent => sent = [g a]) (as : List α) :
    Achieves (Action.forEach f as) fun _ sent => sent = as.map g := by
  induction as with
  | nil => exact pure rfl
  | cons a as ih =>
    refine (h a).bind ?_
    rintro - - rfl
    refine ih.mono ?_
    rintro - - rfl
    rfl

/-- A call that succeeds is known by what it sends. -/
theorem logging {y : Action σ Unit} (ok : ∀ link, (y link).1 = .ok ()) (call : Call) :
    Achieves (Noted.logging call y) fun _ sent => sent = Logged.sent [⟨call, none⟩] := by
  intro s
  refine ⟨(), _, _, Prod.ext (ok s.link) rfl, ?_, rfl⟩
  change Logged.sent (s.notes ++ [⟨call, failureOf (y s.link).1⟩]) = _
  rw [ok s.link, Logged.sent_append]
  rfl

end Achieves

end Noted

namespace Cursor.Unfailing

open Noted (Achieves)

variable {c : Cursor σ} (h : c.Unfailing) (s : Statement)

include h

theorem execute_achieves (change : s.isCatalogRead = false) : Achieves (c.logged.execute s) fun _ sent => sent = [s] := by
  refine (Achieves.logging (h.execute s) (.execute s)).mono ?_
  rintro - - rfl
  simp [Logged.sent, change]

theorem commit_achieves : Achieves c.logged.commit fun _ sent => sent = [] := Achieves.logging h.commit .commit

theorem executeClassified_achieves (change : s.isCatalogRead = false) :
    Achieves (c.logged.executeClassified s) fun _ sent => sent = [s] := by
  refine (h.execute_achieves s change).attempt.bind ?_
  rintro - - ⟨⟨⟩, rfl, rfl⟩
  exact Achieves.pure rfl

theorem executeCommitted_achieves (change : s.isCatalogRead = false) :
    Achieves (c.logged.executeCommitted s) fun _ sent => sent = [s] := by
  have committed : Achieves (do c.logged.execute s; c.logged.commit) fun _ sent => sent = [s] := by
    refine (h.execute_achieves s change).bind ?_
    rintro - - rfl
    refine h.commit_achieves.mono ?_
    rintro - - rfl
    rfl
  refine committed.attempt.bind ?_
  rintro - - ⟨⟨⟩, rfl, rfl⟩
  exact Achieves.pure rfl

theorem ask_achieves (q : CatalogQuery) : Achieves (Catalog.ask c.logged q) fun _ sent => sent = [] := by
  refine (Achieves.logging (h.execute (.catalog q)) (.execute (.catalog q))).bind ?_
  rintro - - rfl t
  obtain ⟨rows, fetched⟩ := h.fetchAll t.link
  exact ⟨rows, _, [], Prod.ext fetched rfl, (List.append_nil _).symm, rfl⟩

theorem inTransaction_achieves {o : Transaction.Options} {x : Action (Noted σ Logged) α} {ss : List Statement}
    (hx : Achieves x fun _ sent => sent = ss) : Achieves (c.logged.inTransaction o x) fun _ sent => sent = ss := by
  have started : Achieves (c.logged.start o) fun _ sent => sent = [] := Achieves.logging (h.start o) (.start o)
  have committed : Achieves c.logged.commitOrAbandon fun _ sent => sent = [] := by
    refine h.commit_achieves.attempt.bind ?_
    rintro - - ⟨⟨⟩, rfl, rfl⟩
    exact Achieves.pure rfl
  refine started.bind ?_
  rintro - - rfl
  refine hx.attempt.bind ?_
  rintro - - ⟨a, rfl, rfl⟩
  refine committed.bind ?_
  rintro - - rfl
  exact Achieves.pure (List.append_nil _)

end Cursor.Unfailing

end FirebirdSql
