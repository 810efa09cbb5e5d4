import FirebirdSql.Proofs.Subject

/-!
Statements one after another, and what is tracked through them. What only asks, or is about indexes and constraints,
changes nothing of columns and of what counts for a table, so that only the others weigh.
-/

namespace FirebirdSql.Statement

def weighty (ss : List Statement) : List Statement := ss.filter (!·.isAside)

theorem weighty_append (ss ss' : List Statement) : weighty (ss ++ ss') = weighty ss ++ weighty ss' := List.filter_append ..

theorem weighty_singleton {s : Statement} (h : s.isAside = false) : weighty [s] = [s] :=
  List.filter_cons_of_pos (by rw [h]; rfl)

theorem weighty_aside {s : Statement} (h : s.isAside = true) : weighty [s] = [] :=
  List.filter_cons_of_neg (by simp [h])

theorem mem_weighty {s : Statement} {ss : List Statement} (h : s.isAside = false) : s ∈ weighty ss ↔ s ∈ ss := by
  rw [weighty, List.mem_filter, h]
  exact and_iff_left rfl

variable {τ : Type} {after : τ → Statement → τ} {p : τ → Statement → Prop} {t : τ} {ss ss' : List Statement}

/-- Each statement is, when its turn comes, as `p` says of it and of what those before it have led to. -/
def Along (after : τ → Statement → τ) (p : τ → Statement → Prop) : τ → List Statement → Prop
  | _, [] => True
  | t, s :: ss => p t s ∧ Along after p (after t s) ss

instance decidableAlong [∀ t s, Decidable (p t s)] : (t : τ) → (ss : List Statement) → Decidable (Along after p t ss)
  | _, [] => inferInstanceAs (Decidable True)
  | t, s :: ss =>
    have := decidableAlong (after t s) ss
    inferInstanceAs (Decidable (p t s ∧ Along after p (after t s) ss))

theorem along_append : Along after p t (ss ++ ss') ↔ Along after p t ss ∧ Along after p (ss.foldl after t) ss' := by
  induction ss generalizing t with
  | nil => exact ⟨fun h => ⟨trivial, h⟩, And.right⟩
  | cons s ss ih => exact (and_congr_right fun _ => ih).trans and_assoc.symm

theorem Along.front (h : Along after p t ss') (first : ss <+: ss') : Along after p t ss := by
  obtain ⟨rest, rfl⟩ := first
  exact (along_append.mp h).1

theorem along_of_forall (h : ∀ s ∈ ss, ∀ t, p t s) : Along after p t ss := by
  induction ss generalizing t with
  | nil => trivial
  | cons s ss ih => exact ⟨h s List.mem_cons_self t, ih fun s' hs => h s' (List.mem_cons_of_mem s hs)⟩

theorem foldl_still (still : ∀ s ∈ ss, ∀ t, after t s = t) : ss.foldl after t = t := by
  induction ss with
  | nil => rfl
  | cons s ss ih =>
    rw [List.foldl_cons, still s List.mem_cons_self]
    exact ih fun s' hs => still s' (List.mem_cons_of_mem s hs)

theorem foldl_weighty (still : ∀ s : Statement, s.isAside = true → ∀ t, after t s = t) (ss : List Statement) (t : τ) :
    ss.foldl after t = (weighty ss).foldl after t := by
  induction ss generalizing t with
  | nil => rfl
  | cons s ss ih =>
    rw [List.foldl_cons, ih]
    cases aside : s.isAside with
    | true => rw [still s aside, weighty, weighty, List.filter_cons_of_neg (by simp [aside])]
    | false => rw [weighty, weighty, List.filter_cons_of_pos (by simp [aside]), List.foldl_cons]

theorem along_weighty (still : ∀ s : Statement, s.isAside = true → ∀ t, after t s = t)
    (allowed : ∀ s : Statement, s.isAside = true → ∀ t, p t s) :
    Along after p t ss ↔ Along after p t (weighty ss) := by
  induction ss generalizing t with
  | nil => rfl
  | cons s ss ih =>
    cases aside : s.isAside with
    | true =>
      rw [Along, still s aside, and_iff_right (allowed s aside t), weighty, List.filter_cons_of_neg (by simp [aside])]
      exact ih
    | false =>
      rw [weighty, List.filter_cons_of_pos (by simp [aside])]
      exact and_congr_right fun _ => ih

end FirebirdSql.Statement
