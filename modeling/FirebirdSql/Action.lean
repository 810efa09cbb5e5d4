import FirebirdSql.Error

/-!
Actions: they may fail, and they move a state on either way. A sequence of actions ends at its first failure.
-/

namespace FirebirdSql

/-- A failure keeps the state that was reached. -/
def Action (σ α : Type) : Type := σ → Except Error α × σ

namespace Action

def pure (a : α) : Action σ α := fun s => (.ok a, s)

def bind (x : Action σ α) (f : α → Action σ β) : Action σ β := fun s =>
  match x s with
  | (.ok a, s) => f a s
  | (.error e, s) => (.error e, s)

instance : Monad (Action σ) where
  pure := Action.pure
  bind := Action.bind

def fail (e : Error) : Action σ α := fun s => (.error e, s)

def lift (r : Except Error α) : Action σ α := fun s => (r, s)

/-- The outcome of an action, which itself does not fail. -/
def attempt (x : Action σ α) : Action σ (Except Error α) := fun s =>
  match x s with
  | (r, s) => (.ok r, s)

def get : Action σ σ := fun s => (.ok s, s)

def modify (f : σ → σ) : Action σ Unit := fun s => (.ok (), f s)

/-- An action on a part of the state. -/
def within (read : σ → τ) (write : τ → σ → σ) (x : Action τ α) : Action σ α := fun s =>
  match x (read s) with
  | (r, t) => (r, write t s)

/-- Does an action for every member, up to the first failure. -/
def forEach (f : α → Action σ Unit) : List α → Action σ Unit
  | [] => Action.pure ()
  | a :: rest => (f a).bind fun _ => forEach f rest

@[simp] theorem pure_apply (a : α) (s : σ) : (Pure.pure a : Action σ α) s = (.ok a, s) := rfl

@[simp] theorem fail_apply (e : Error) (s : σ) : (fail e : Action σ α) s = (.error e, s) := rfl

@[simp] theorem lift_apply (r : Except Error α) (s : σ) : lift r s = (r, s) := rfl

@[simp] theorem attempt_apply (x : Action σ α) (s : σ) : x.attempt s = (.ok (x s).1, (x s).2) := rfl

@[simp] theorem get_apply (s : σ) : get s = (.ok s, s) := rfl

@[simp] theorem modify_apply (f : σ → σ) (s : σ) : modify f s = (.ok (), f s) := rfl

theorem within_apply (read : σ → τ) (write : τ → σ → σ) (x : Action τ α) (s : σ) :
    within read write x s = ((x (read s)).1, write (x (read s)).2 s) := rfl

theorem bind_apply (x : Action σ α) (f : α → Action σ β) (s : σ) :
    (x >>= f) s = match x s with
      | (.ok a, s) => f a s
      | (.error e, s) => (.error e, s) := rfl

theorem bind_pure (x : Action σ α) : x.bind Action.pure = x := by
  funext s
  unfold Action.bind Action.pure
  split
  · next h => rw [h]
  · next h => rw [h]

theorem bind_bind (x : Action σ α) (f : α → Action σ β) (g : β → Action σ γ) :
    (x.bind f).bind g = x.bind fun a => (f a).bind g := by
  funext s
  unfold Action.bind
  cases x s with
  | mk r t => cases r <;> rfl

theorem forEach_append (f : α → Action σ Unit) (as bs : List α) :
    forEach f (as ++ bs) = (forEach f as).bind fun _ => forEach f bs := by
  induction as with
  | nil => rfl
  | cons a as ih => simp only [List.cons_append, forEach, ih, bind_bind]

instance : LawfulMonad (Action σ) :=
  LawfulMonad.mk' (Action σ) bind_pure (fun _ _ => rfl) bind_bind

end Action

end FirebirdSql
