import FirebirdSql.Editor.Basic
import FirebirdSql.Proofs.Triple

/-!
Transactions of a cursor, from what its calls reach. Abandoning one does not fail, and the first failure is reported.
-/

namespace FirebirdSql.Cursor

open Action (Triple)

/-- The connection takes every statement and every commit. What it answers to questions is open. -/
structure Accepts (c : Cursor σ) : Prop where
  execute : ∀ s link, (c.execute s link).1 = .ok ()
  commit : ∀ link, (c.commit link).1 = .ok ()

namespace Accepts

variable {c : Cursor σ} (h : c.Accepts) (s : Statement) (link : σ)

include h

theorem executeClassified : (c.executeClassified s link).1 = .ok () := by
  rw [Cursor.executeClassified, Action.bind_apply, Action.attempt_apply]
  dsimp only
  rw [h.execute s link]
  rfl

theorem executeCommitted : (c.executeCommitted s link).1 = .ok () := by
  have done : ((c.execute s >>= fun _ => c.commit) link).1 = .ok () := by
    have executed := h.execute s link
    rw [Action.bind_apply]
    revert executed
    obtain ⟨r, link⟩ := c.execute s link
    rintro ⟨rfl⟩
    exact h.commit link
  rw [Cursor.executeCommitted, Action.bind_apply, Action.attempt_apply]
  dsimp only
  rw [done]
  rfl

omit h in
theorem send {ed : Editor σ} (h : ed.cursor.Accepts) : (ed.send s link).1 = .ok () := by
  unfold Editor.send
  split
  · exact h.executeCommitted s link
  · exact h.executeClassified s link

end Accepts

variable {c : Cursor σ} {statement : Statement} {P R M : σ → Prop} {Q : α → σ → Prop} {E U : Error → σ → Prop}

theorem abandon_triple (h : Triple P c.rollback (fun _ => R) (fun _ => R)) :
    Triple P c.abandon (fun _ => R) (fun _ _ => False) :=
  h.attempt.bind fun _ => Triple.pure fun _ h => Action.ends_always.mp h

theorem abandon_fail {e : Error} (h : Triple P c.abandon (fun _ => E e) (fun _ _ => False)) :
    Triple P (do c.abandon; Action.fail e) Q E :=
  h.unfailing.bind fun _ => Triple.fail fun _ h => h

theorem executeClassified_triple (h : Triple P (c.execute statement) (fun _ => R) fun e => E e.classify) :
    Triple P (c.executeClassified statement) (fun _ => R) E := by
  refine h.attempt.unfailing.bind fun r => ?_
  cases r with
  | ok _ => exact Triple.pure fun s h => h.of_ok _ _ rfl
  | error e => exact Triple.fail fun s h => h.of_error _ _ rfl

theorem executeCommitted_triple (hx : Triple P (c.execute statement) (fun _ => M) U)
    (hc : Triple M c.commit (fun _ => R) U)
    (hb : ∀ e, Triple (U e) c.abandon (fun _ => E e.classify) (fun _ _ => False)) :
    Triple P (c.executeCommitted statement) (fun _ => R) E := by
  refine (hx.bind fun _ => hc).attempt.unfailing.bind fun r => ?_
  cases r with
  | ok _ => exact Triple.pure fun s h => h.of_ok _ _ rfl
  | error e => exact fun s h => abandon_fail (hb e) s (h.of_error _ _ rfl)

theorem commitOrAbandon_triple (hc : Triple P c.commit (fun _ => R) U)
    (hb : ∀ e, Triple (U e) c.abandon (fun _ => E e) (fun _ _ => False)) :
    Triple P c.commitOrAbandon (fun _ => R) E := by
  refine hc.attempt.unfailing.bind fun r => ?_
  cases r with
  | ok _ => exact Triple.pure fun s h => h.of_ok _ _ rfl
  | error e => exact fun s h => abandon_fail (hb e) s (h.of_error _ _ rfl)

theorem inTransaction_triple {o : Transaction.Options} {x : Action σ α} {S : σ → Prop} {N : α → σ → Prop}
    (hs : Triple P (c.start o) (fun _ => S) E) (hx : Triple S x N U)
    (hc : ∀ a, Triple (N a) c.commitOrAbandon (fun _ => Q a) E)
    (hb : ∀ e, Triple (U e) c.abandon (fun _ => E e) (fun _ _ => False)) :
    Triple P (c.inTransaction o x) Q E := by
  refine hs.bind fun _ => hx.attempt.unfailing.bind fun r => ?_
  cases r with
  | ok a => exact fun s h => Triple.bind (hc a) (fun _ => Triple.pure fun _ h => h) s (h.of_ok _ _ rfl)
  | error e => exact fun s h => abandon_fail (hb e) s (h.of_error _ _ rfl)

end FirebirdSql.Cursor
