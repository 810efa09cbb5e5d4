import FirebirdSql.Cursor
import FirebirdSql.Proofs.Triple

/-!
Connections that keep notes of what is executed through them, and of what they answer. Their answers are those of the
plain connection, so what the notes show of an operation holds of every connection.
-/

namespace FirebirdSql

/-- A connection with the notes that were taken of it. -/
structure Noted (σ ε : Type) where
  link : σ
  notes : List ε

namespace Noted

def onLink (x : Action σ α) : Action (Noted σ ε) α :=
  Action.within (·.link) (fun link s => { s with link := link }) x

def add (es : List ε) : Action (Noted σ ε) Unit := Action.modify fun s => { s with notes := s.notes ++ es }

/-- The action takes just these notes, whether or not it fails. -/
def Adds (es : List ε) (x : Action (Noted σ ε) α) : Prop := ∀ s, (x s).2.notes = s.notes ++ es

namespace Adds

variable {es : List ε} {x : Action (Noted σ ε) α} {f : α → Action (Noted σ ε) β}

theorem onLink (y : Action σ α) : Adds ([] : List ε) (Noted.onLink y) := fun _ => (List.append_nil _).symm

theorem pure (a : α) : Adds ([] : List ε) (Pure.pure a : Action (Noted σ ε) α) := fun _ => (List.append_nil _).symm

theorem fail (e : Error) : Adds ([] : List ε) (Action.fail e : Action (Noted σ ε) α) :=
  fun _ => (List.append_nil _).symm

theorem attempt (h : Adds es x) : Adds es x.attempt := h

theorem then_quiet (hx : Adds es x) (hf : ∀ a, Adds [] (f a)) : Adds es (x >>= f) := by
  intro s
  have hs := hx s
  rw [Action.bind_apply]
  revert hs
  obtain ⟨r, t⟩ := x s
  cases r with
  | ok a =>
    intro hs
    have ht := hf a t
    rw [List.append_nil] at ht
    exact ht.trans hs
  | error e => exact id

end Adds

/-- The action is the other one done to the connection, with the same outcome, whatever notes it takes. -/
def Follows (x : Action (Noted σ ε) α) (y : Action σ α) : Prop :=
  ∀ s, (x s).1 = (y s.link).1 ∧ (x s).2.link = (y s.link).2

namespace Follows

variable {x : Action (Noted σ ε) α} {y : Action σ α} {f : α → Action (Noted σ ε) β} {g : α → Action σ β}

theorem onLink (y : Action σ α) : Follows (Noted.onLink y : Action (Noted σ ε) α) y := fun _ => ⟨rfl, rfl⟩

theorem pure (a : α) : Follows (Pure.pure a : Action (Noted σ ε) α) (Pure.pure a) := fun _ => ⟨rfl, rfl⟩

theorem fail (e : Error) : Follows (Action.fail e : Action (Noted σ ε) α) (Action.fail e) := fun _ => ⟨rfl, rfl⟩

theorem attempt (h : Follows x y) : Follows x.attempt y.attempt := fun s => ⟨congrArg Except.ok (h s).1, (h s).2⟩

theorem bind (hx : Follows x y) (hf : ∀ a, Follows (f a) (g a)) : Follows (x >>= f) (y >>= g) := by
  intro s
  obtain ⟨outcome, link⟩ := hx s
  rw [Action.bind_apply, Action.bind_apply]
  revert outcome link
  obtain ⟨r, t⟩ := x s
  obtain ⟨r', u⟩ := y s.link
  rintro ⟨rfl⟩ ⟨rfl⟩
  cases r with
  | ok a => exact hf a t
  | error e => exact ⟨rfl, rfl⟩

/-- What notes are taken before is not seen. -/
theorem noted (es : List ε) (h : Follows x y) : Follows (Noted.add es >>= fun _ => x) y :=
  fun s => h { s with notes := s.notes ++ es }

theorem eq_of_ok (h : Follows x y) {s t : Noted σ ε} {a : α} (hx : x s = (.ok a, t)) : y s.link = (.ok a, t.link) := by
  obtain ⟨outcome, link⟩ := h s
  rw [hx] at outcome link
  exact Prod.ext outcome.symm link.symm

end Follows

end Noted

namespace Cursor

/-- The cursor that notes every statement before it tries it, and all rows that it fetches. -/
def noting (c : Cursor σ) (note : Statement → List ε) (answer : List Row → List ε) : Cursor (Noted σ ε) where
  execute s := do
    Noted.add (note s)
    Noted.onLink (c.execute s)
  fetchOne := Noted.onLink c.fetchOne
  fetchAll := do
    let rows ← Noted.onLink c.fetchAll
    Noted.add (answer rows)
    return rows
  start o := Noted.onLink (c.start o)
  commit := Noted.onLink c.commit
  rollback := Noted.onLink c.rollback
  serverVersion := Noted.onLink c.serverVersion

variable (c : Cursor σ) (note : Statement → List ε) (answer : List Row → List ε) (s : Statement)

open Noted (Adds)

theorem noting_execute_adds : Adds (note s) ((c.noting note answer).execute s) := fun _ => rfl

theorem noting_commit_adds : Adds [] (c.noting note answer).commit := Adds.onLink c.commit

theorem noting_abandon_adds : Adds [] (c.noting note answer).abandon :=
  (Adds.onLink c.rollback).attempt.then_quiet fun _ => Adds.pure ()

theorem noting_executeClassified_adds : Adds (note s) ((c.noting note answer).executeClassified s) := by
  refine (noting_execute_adds c note answer s).attempt.then_quiet fun r => ?_
  cases r with
  | ok _ => exact Adds.pure ()
  | error e => exact Adds.fail e.classify

theorem noting_executeCommitted_adds : Adds (note s) ((c.noting note answer).executeCommitted s) := by
  have h : Adds (note s) (do (c.noting note answer).execute s; (c.noting note answer).commit) :=
    (noting_execute_adds c note answer s).then_quiet fun _ => noting_commit_adds c note answer
  refine h.attempt.then_quiet fun r => ?_
  cases r with
  | ok _ => exact Adds.pure ()
  | error e => exact (noting_abandon_adds c note answer).then_quiet fun _ => Adds.fail e.classify

/-- A question is noted, and after it the rows that answer it, if there are any to fetch. -/
theorem noting_query_triple (notes : List ε) :
    Action.Triple (·.notes = notes) ((c.noting note answer).query s)
      (fun rows t => t.notes = notes ++ note s ++ answer rows) fun _ t => t.notes = notes ++ note s := by
  refine Action.Triple.bind (R := fun _ t => t.notes = notes ++ note s) ?_ fun _ => ?_
  · rintro t rfl
    cases h : ((c.noting note answer).execute s) t with
    | mk r t' =>
      have added := noting_execute_adds c note answer s t
      rw [h] at added
      cases r with
      | ok _ => exact Action.ends_ok.mpr added
      | error e => exact Action.ends_error.mpr added
  · intro t ht
    change Action.Ends _ _ ((Noted.onLink c.fetchAll >>= fun rows => Noted.add (answer rows) >>= fun _ => pure rows) t)
    rw [Action.bind_apply, Noted.onLink, Action.within_apply]
    obtain ⟨r, link⟩ := c.fetchAll t.link
    cases r with
    | ok rows => exact Action.ends_ok.mpr (congrArg (· ++ answer rows) ht)
    | error e => exact Action.ends_error.mpr ht

/-! The noting connection does what the plain one does -/

open Noted (Follows)

theorem noting_execute_follows : Follows ((c.noting note answer).execute s) (c.execute s) :=
  (Follows.onLink _).noted _

theorem noting_fetchAll_follows : Follows (c.noting note answer).fetchAll c.fetchAll := by
  have fetched : Follows (c.noting note answer).fetchAll (c.fetchAll >>= Pure.pure) :=
    (Follows.onLink _).bind fun rows => (Follows.pure rows).noted _
  rwa [bind_pure] at fetched

theorem noting_query_follows : Follows ((c.noting note answer).query s) (c.query s) :=
  (noting_execute_follows c note answer s).bind fun _ => noting_fetchAll_follows c note answer

theorem noting_abandon_follows : Follows (c.noting note answer).abandon c.abandon :=
  (Follows.onLink c.rollback).attempt.bind fun _ => Follows.pure ()

theorem noting_executeClassified_follows : Follows ((c.noting note answer).executeClassified s) (c.executeClassified s) := by
  refine (noting_execute_follows c note answer s).attempt.bind fun r => ?_
  cases r with
  | ok _ => exact Follows.pure ()
  | error e => exact Follows.fail e.classify

theorem noting_executeCommitted_follows : Follows ((c.noting note answer).executeCommitted s) (c.executeCommitted s) := by
  refine ((noting_execute_follows c note answer s).bind fun _ => Follows.onLink c.commit).attempt.bind fun r => ?_
  cases r with
  | ok _ => exact Follows.pure ()
  | error e => exact (noting_abandon_follows c note answer).bind fun _ => Follows.fail e.classify

theorem noting_query_fst (t : Noted σ ε) : ((c.noting note answer).query s t).1 = (c.query s t.link).1 :=
  (noting_query_follows c note answer s t).1

/-- A connection that takes everything and answers nothing. -/
def silent : Cursor Unit where
  execute _ := return ()
  fetchOne := return none
  fetchAll := return []
  start _ := return ()
  commit := return ()
  rollback := return ()
  serverVersion := return ""

end Cursor

end FirebirdSql
