import FirebirdSql.Proofs.Noted
import FirebirdSql.Script

/-!
Connections that log their calls, and what such a log may hold. With a commit after every statement each of them is a
transaction of its own; without, transactions are left to the caller. Whoever has a statement refused stops there,
unless it is an index whose key is too long, which is tried once more over a hash.
-/

namespace FirebirdSql

/-- A call, and the failure that it ended with. -/
structure Logged where
  call : Call
  failure : Option Error
  deriving DecidableEq

def failureOf : Except Error α → Option Error
  | .ok _ => none
  | .error e => some e

/-- An action as one call. -/
def Noted.logging (call : Call) (x : Action σ α) : Action (Noted σ Logged) α := fun s =>
  ((x s.link).1, ⟨(x s.link).2, s.notes ++ [⟨call, failureOf (x s.link).1⟩]⟩)

/-- The cursor that logs every call when it is over. Fetches belong to the statement whose rows they fetch. -/
def Cursor.logged (c : Cursor σ) : Cursor (Noted σ Logged) where
  execute s := Noted.logging (.execute s) (c.execute s)
  fetchOne := Noted.onLink c.fetchOne
  fetchAll := Noted.onLink c.fetchAll
  start o := Noted.logging (.start o) (c.start o)
  commit := Noted.logging .commit c.commit
  rollback := Noted.logging .rollback c.rollback
  serverVersion := Noted.logging .serverVersion c.serverVersion

namespace Statement

/-- The statement that takes the place of one whose key is too long. -/
def retry? : Statement → Option Statement
  | .createIndex unique name table columns => some (.createHashIndex unique name table columns)
  | _ => none

/-- It changes the schema or the rows, and nothing takes its place. -/
def isSingle (s : Statement) : Bool := !s.isCatalogRead && s.retry?.isNone

theorem isCatalogRead_of_single {s : Statement} (h : s.isSingle = true) : s.isCatalogRead = false := by
  simp only [isSingle, Bool.and_eq_true, Bool.not_eq_true'] at h
  exact h.1

theorem retry?_of_single {s : Statement} (h : s.isSingle = true) : s.retry? = none := by
  simp only [isSingle, Bool.and_eq_true, Option.isNone_iff_eq_none] at h
  exact h.2

end Statement

/-- The calls that one statement comes to, and the failure that is reported of it. With `commits` it is committed at
once; what cannot be executed or committed is rolled back, whether or not that works. -/
inductive Tried (s : Statement) : Bool → List Logged → Option Error → Prop where
  | committed : Tried s true [⟨.execute s, none⟩, ⟨.commit, none⟩] none
  | refused (e : Error) (back : Option Error) :
      Tried s true [⟨.execute s, some e⟩, ⟨.rollback, back⟩] (some e.classify)
  | uncommitted (e : Error) (back : Option Error) :
      Tried s true [⟨.execute s, none⟩, ⟨.commit, some e⟩, ⟨.rollback, back⟩] (some e.classify)
  | executed : Tried s false [⟨.execute s, none⟩] none
  | failed (e : Error) : Tried s false [⟨.execute s, some e⟩] (some e.classify)

/-- The calls of an operation, and the failure that it ends with. -/
inductive Course (commits : Bool) : List Logged → Option Error → Prop where
  /-- It ends for a reason of its own. -/
  | ends (r : Option Error) : Course commits [] r
  | asked (q : CatalogQuery) : Course commits rest r → Course commits (⟨.execute (.catalog q), none⟩ :: rest) r
  | unanswered (q : CatalogQuery) (e : Error) : Course commits [⟨.execute (.catalog q), some e⟩] (some e)
  | changed : s.isCatalogRead = false → Tried s commits calls none → Course commits rest r →
      Course commits (calls ++ rest) r
  /-- Nothing is sent after a statement that fails, and its failure is what the operation ends with. -/
  | stopped : s.isCatalogRead = false → Tried s commits calls (some e) → (s.retry? = none ∨ e.isKeyTooBig = false) →
      Course commits calls (some e)
  /-- After a key that is too long the statement that takes the place of the failed one is sent. -/
  | retried : s.retry? = some s' → Tried s commits calls (some e) → e.isKeyTooBig = true →
      Tried s' commits calls' none → Course commits rest r → Course commits (calls ++ calls' ++ rest) r
  | retriedInVain : s.retry? = some s' → Tried s commits calls (some e) → e.isKeyTooBig = true →
      Tried s' commits calls' (some e') → Course commits (calls ++ calls') (some e')

theorem Course.append {commits : Bool} {calls calls' : List Logged} {r : Option Error} (h : Course commits calls none)
    (h' : Course commits calls' r) : Course commits (calls ++ calls') r := by
  generalize hn : (none : Option Error) = nothing at h
  induction h with
  | ends => exact h'
  | asked q _ ih => exact .asked q (ih hn)
  | changed hs ht _ ih =>
    rw [List.append_assoc]
    exact .changed hs ht (ih hn)
  | retried hs ht too ht' _ ih =>
    rw [List.append_assoc]
    exact .retried hs ht too ht' (ih hn)
  | unanswered | stopped | retriedInVain => cases hn

/-- Without a commit after every statement there are statements only. -/
theorem Course.executes {calls : List Logged} {r : Option Error} (h : Course false calls r) :
    ∀ l ∈ calls, ∃ s, l.call = .execute s := by
  have tried {s : Statement} {calls : List Logged} {r : Option Error} (h : Tried s false calls r) :
      ∀ l ∈ calls, ∃ s, l.call = .execute s := by
    cases h <;> simp
  induction h with
  | ends | unanswered => simp
  | asked q _ ih => simpa using ih
  | changed _ ht _ ih => exact List.forall_mem_append.mpr ⟨tried ht, ih⟩
  | stopped _ ht _ => exact tried ht
  | retried _ ht _ ht' _ ih => exact List.forall_mem_append.mpr ⟨List.forall_mem_append.mpr ⟨tried ht, tried ht'⟩, ih⟩
  | retriedInVain _ ht _ ht' => exact List.forall_mem_append.mpr ⟨tried ht, tried ht'⟩

/-- The calls of a whole request. One that refreshes the connection ends, if it is not stopped, with a commit. -/
inductive Concluded (commits : Bool) : Bool → List Logged → Option Error → Prop where
  | stopped : Course commits calls (some e) → Concluded commits refreshes calls (some e)
  | complete : Course commits calls none → Concluded commits false calls none
  | refreshed (r : Option Error) : Course commits calls none →
      Concluded commits true (calls ++ [⟨.commit, r⟩]) r

theorem Course.concluded {commits : Bool} {calls : List Logged} {r : Option Error} (h : Course commits calls r) :
    Concluded commits false calls r := by
  cases r with
  | none => exact .complete h
  | some e => exact .stopped h

theorem Concluded.prepend {commits refreshes : Bool} {calls calls' : List Logged} {r : Option Error}
    (h : Course commits calls none) (h' : Concluded commits refreshes calls' r) :
    Concluded commits refreshes (calls ++ calls') r := by
  cases h' with
  | stopped h' => exact .stopped (h.append h')
  | complete h' => exact .complete (h.append h')
  | refreshed r h' =>
    rw [← List.append_assoc]
    exact .refreshed r (h.append h')

/-- Without a commit after every statement there is no more to transactions than the commit at the end. -/
theorem Concluded.executes {refreshes : Bool} {calls : List Logged} {r : Option Error}
    (h : Concluded false refreshes calls r) : ∃ sent last, calls = sent ++ last ∧
      (∀ l ∈ sent, ∃ s, l.call = .execute s) ∧ (last = [] ∨ refreshes = true ∧ last = [⟨.commit, r⟩]) := by
  cases h with
  | stopped h | complete h => exact ⟨calls, [], (List.append_nil calls).symm, h.executes, .inl rfl⟩
  | refreshed r h => exact ⟨_, _, rfl, h.executes, .inr ⟨rfl, rfl⟩⟩

namespace Noted

/-- Whatever was logged before, the action logs calls that are as `K` says for its outcome. -/
def Logs (K : List Logged → Option Error → Prop) (x : Action (Noted σ Logged) α) : Prop :=
  ∀ s, ∃ calls, (x s).2.notes = s.notes ++ calls ∧ K calls (failureOf (x s).1)

end Noted

namespace Cursor

open Noted (Logs)

variable (c : Cursor σ) (s : Statement)

theorem logged_executeClassified : Logs (Tried s false) (c.logged.executeClassified s) := by
  intro t
  simp only [executeClassified, logged, Action.bind_apply, Action.attempt_apply, Noted.logging]
  cases (c.execute s t.link).1 with
  | ok _ => exact ⟨_, rfl, .executed⟩
  | error e => exact ⟨_, rfl, .failed e⟩

theorem logged_executeCommitted : Logs (Tried s true) (c.logged.executeCommitted s) := by
  intro t
  simp only [executeCommitted, abandon, logged, Action.bind_apply, Action.attempt_apply, Noted.logging]
  cases (c.execute s t.link).1 with
  | error e => exact ⟨_, List.append_assoc .., .refused e _⟩
  | ok _ =>
    dsimp only
    cases (c.commit (c.execute s t.link).2).1 with
    | ok _ => exact ⟨_, List.append_assoc .., .committed⟩
    | error e => exact ⟨_, (List.append_assoc (_ ++ _) ..).trans (List.append_assoc ..), .uncommitted e _⟩

/-- A question that has no answer ends the operation. -/
theorem logged_query (commits : Bool) (q : CatalogQuery) : Logs (Course commits) (c.logged.query (.catalog q)) := by
  intro t
  simp only [query, logged, Action.bind_apply, Noted.logging]
  cases (c.execute (.catalog q) t.link).1 with
  | ok _ => exact ⟨[_], rfl, .asked q (.ends _)⟩
  | error e => exact ⟨_, rfl, .unanswered q e⟩

end Cursor

end FirebirdSql
