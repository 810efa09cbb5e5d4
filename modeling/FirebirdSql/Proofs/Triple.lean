import FirebirdSql.Action

/-!
What actions keep and what they reach. A triple says what holds after a success and what after a failure, since a
failure keeps the state that was reached.
-/

namespace FirebirdSql.Action

/-- After a success `Q` holds of the result and the state, after a failure `E` of the cause and the state. -/
structure Ends (Q : α → σ → Prop) (E : Error → σ → Prop) (r : Except Error α × σ) : Prop where
  of_ok : ∀ a s, r = (.ok a, s) → Q a s
  of_error : ∀ e s, r = (.error e, s) → E e s

def Triple (P : σ → Prop) (x : Action σ α) (Q : α → σ → Prop) (E : Error → σ → Prop) : Prop :=
  ∀ s, P s → Ends Q E (x s)

/-- An invariant holds after the action, whether or not it fails. -/
def Keeps (I : σ → Prop) (x : Action σ α) : Prop := ∀ s, I s → I (x s).2

variable {P : σ → Prop} {I : σ → Prop} {x : Action σ α} {f : α → Action σ β}
variable {Q : α → σ → Prop} {E : Error → σ → Prop}

theorem ends_ok {a : α} {s : σ} : Ends Q E (.ok a, s) ↔ Q a s :=
  ⟨fun h => h.of_ok a s rfl, fun h => ⟨by rintro _ _ ⟨⟩; exact h, by rintro _ _ ⟨⟩⟩⟩

theorem ends_error {e : Error} {s : σ} : Ends Q E ((.error e, s) : Except Error α × σ) ↔ E e s :=
  ⟨fun h => h.of_error e s rfl, fun h => ⟨by rintro _ _ ⟨⟩, by rintro _ _ ⟨⟩; exact h⟩⟩

theorem Ends.mono {Q' : α → σ → Prop} {E' : Error → σ → Prop} {r : Except Error α × σ} (h : Ends Q E r)
    (hq : ∀ a s, Q a s → Q' a s) (he : ∀ e s, E e s → E' e s) : Ends Q' E' r where
  of_ok a s hr := hq a s (h.of_ok a s hr)
  of_error e s hr := he e s (h.of_error e s hr)

theorem Ends.and {Q' : α → σ → Prop} {E' : Error → σ → Prop} {r : Except Error α × σ} (h : Ends Q E r)
    (h' : Ends Q' E' r) : Ends (fun a s => Q a s ∧ Q' a s) (fun e s => E e s ∧ E' e s) r where
  of_ok a s hr := ⟨h.of_ok a s hr, h'.of_ok a s hr⟩
  of_error e s hr := ⟨h.of_error e s hr, h'.of_error e s hr⟩

theorem Ends.of_isOk {r : Except Error α × σ} (h : Ends Q E r) (ok : r.1.isOk = true) : ∃ a, Q a r.2 := by
  obtain ⟨r, s⟩ := r
  cases r with
  | ok a => exact ⟨a, ends_ok.mp h⟩
  | error e => exact absurd ok Bool.false_ne_true

theorem ends_always {r : Except Error α × σ} : Ends (fun _ => I) (fun _ => I) r ↔ I r.2 := by
  obtain ⟨r, s⟩ := r
  cases r with
  | ok a => exact ends_ok
  | error e => exact ends_error

theorem keeps_iff_triple : Keeps I x ↔ Triple I x (fun _ => I) (fun _ => I) :=
  forall₂_congr fun _ _ => ends_always.symm

namespace Triple

theorem weaken {P' : σ → Prop} {Q' : α → σ → Prop} {E' : Error → σ → Prop} (h : Triple P x Q E)
    (hp : ∀ s, P' s → P s) (hq : ∀ a s, Q a s → Q' a s) (he : ∀ e s, E e s → E' e s) :
    Triple P' x Q' E' :=
  fun s hs => (h s (hp s hs)).mono hq he

theorem unfailing (h : Triple P x Q fun _ _ => False) : Triple P x Q E :=
  h.weaken (fun _ => id) (fun _ _ => id) fun _ _ => False.elim

/-- An action that fails nowhere is judged by the states it reaches. -/
theorem of_accepted {x : Action σ Unit} {R : σ → Prop} (accepted : ∀ s, (x s).1 = .ok ())
    (reached : ∀ s, P s → R (x s).2) : Triple P x (fun _ => R) E := by
  intro s hs
  have ok := accepted s
  have done := reached s hs
  revert ok done
  obtain ⟨r, t⟩ := x s
  rintro ⟨⟩ done
  exact ends_ok.mpr done

theorem pure {a : α} (h : ∀ s, P s → Q a s) : Triple P (Pure.pure a) Q E := fun s hs => ends_ok.mpr (h s hs)

theorem fail {e : Error} (h : ∀ s, P s → E e s) : Triple P (Action.fail e : Action σ α) Q E :=
  fun s hs => ends_error.mpr (h s hs)

/-- What is known of the outcome holds beside what held before. -/
theorem lift {r : Except Error α} : Triple P (Action.lift r) (fun a s => r = .ok a ∧ P s) (fun _ => P) := by
  intro s hs
  cases r with
  | ok a => exact ends_ok.mpr ⟨rfl, hs⟩
  | error e => exact ends_error.mpr hs

/-- The outcome tells which of both holds. -/
theorem attempt (h : Triple P x Q E) :
    Triple P x.attempt (fun r s => Ends Q E (r, s)) (fun _ _ => False) :=
  fun s hs => ends_ok.mpr (h s hs)

theorem bind {R : α → σ → Prop} {Q : β → σ → Prop} (hx : Triple P x R E) (hf : ∀ a, Triple (R a) (f a) Q E) :
    Triple P (x >>= f) Q E := by
  intro s hs
  have hr := hx s hs
  rw [bind_apply]
  revert hr
  obtain ⟨r, t⟩ := x s
  cases r with
  | ok a => exact fun hr => hf a t (ends_ok.mp hr)
  | error e => exact fun hr => ends_error.mpr (ends_error.mp hr)

theorem when {c : Prop} [Decidable c] {x : Action σ Unit} {y : Action σ β} {R : σ → Prop} {Q : β → σ → Prop}
    (hx : c → Triple P x (fun _ => R) E) (hn : ¬c → ∀ s, P s → R s) (hy : Triple R y Q E) :
    Triple P (if c then x >>= fun _ => y else y) Q E := by
  split
  · next h => exact (hx h).bind fun _ => hy
  · next h => exact fun s hs => hy s (hn h s hs)

end Triple

namespace Keeps

theorem pure (a : α) : Keeps I (Pure.pure a) := fun _ hs => hs

theorem fail (e : Error) : Keeps I (Action.fail e : Action σ α) := fun _ hs => hs

theorem lift (r : Except Error α) : Keeps I (Action.lift r) := fun _ hs => hs

theorem get : Keeps I (Action.get : Action σ σ) := fun _ hs => hs

theorem modify {g : σ → σ} (h : ∀ s, I s → I (g s)) : Keeps I (Action.modify g) := h

theorem attempt (h : Keeps I x) : Keeps I x.attempt := h

theorem bind (hx : Keeps I x) (hf : ∀ a, Keeps I (f a)) : Keeps I (x >>= f) :=
  keeps_iff_triple.mpr
    ((keeps_iff_triple.mp hx).bind fun a => keeps_iff_triple.mp (hf a))

theorem ending (h : Keeps I x) (he : ∀ e s, I s → E e s) : Triple I x (fun _ => I) E :=
  (keeps_iff_triple.mp h).weaken (fun _ => id) (fun _ _ => id) he

theorem triple {R : α → Prop} (h : Keeps I x) (hr : ∀ s a, (x s).1 = .ok a → R a) :
    Triple I x (fun a s => R a ∧ I s) (fun _ => I) := by
  intro s hs
  have hi := h s hs
  have hr := hr s
  revert hi hr
  obtain ⟨r, t⟩ := x s
  cases r with
  | ok a => exact fun hi hr => ends_ok.mpr ⟨hr a rfl, hi⟩
  | error e => exact fun hi _ => ends_error.mpr hi

theorem ite {c : Prop} [Decidable c] {y : Action σ α} (hx : c → Keeps I x) (hy : ¬c → Keeps I y) :
    Keeps I (if c then x else y) := by
  split
  · next h => exact hx h
  · next h => exact hy h

theorem forEach {g : α → Action σ Unit} {as : List α} (h : ∀ a ∈ as, Keeps I (g a)) :
    Keeps I (Action.forEach g as) := by
  induction as with
  | nil => exact pure ()
  | cons a as ih =>
    refine bind (h a List.mem_cons_self) fun _ => ih fun b hb => ?_
    exact h b (List.mem_cons_of_mem a hb)

theorem mapM {g : α → Action σ β} {as : List α} (h : ∀ a ∈ as, Keeps I (g a)) : Keeps I (as.mapM g) := by
  induction as with
  | nil => exact pure []
  | cons a as ih =>
    rw [List.mapM_cons]
    refine bind (h a List.mem_cons_self) fun b => bind (ih fun c hc => h c (List.mem_cons_of_mem a hc)) fun bs => ?_
    exact pure (b :: bs)

end Keeps

theorem mapM_triple {R : β → Prop} {g : α → Action σ β}
    (h : ∀ a, Triple I (g a) (fun b s => R b ∧ I s) E) (as : List α) :
    Triple I (as.mapM g) (fun bs s => (∀ b ∈ bs, R b) ∧ I s) E := by
  induction as with
  | nil =>
    rw [List.mapM_nil]
    exact Triple.pure fun s hs => ⟨by simp, hs⟩
  | cons a as ih =>
    rw [List.mapM_cons]
    refine (h a).bind fun b => ?_
    intro s hs
    refine Triple.bind (R := fun bs s => (∀ c ∈ bs, R c) ∧ I s) ih (fun bs => ?_) s hs.2
    refine Triple.pure fun s hbs => ⟨?_, hbs.2⟩
    rintro c (_ | ⟨_, hc⟩)
    · exact hs.1
    · exact hbs.1 c hc

/-! One action after another, where a failure does not stop the rest -/

/-- The outcomes of them all. -/
def results (f : ι → Action σ α) : List ι → σ → List (Except Error α)
  | [], _ => []
  | i :: rest, s => (f i s).1 :: results f rest (f i s).2

/-- The state that is reached in the end. -/
def after (f : ι → Action σ α) : List ι → σ → σ
  | [], s => s
  | i :: rest, s => after f rest (f i s).2

theorem Keeps.after {f : ι → Action σ α} {is : List ι} (h : ∀ i ∈ is, Keeps I (f i)) {s : σ} (hs : I s) :
    I (after f is s) := by
  induction is generalizing s with
  | nil => exact hs
  | cons i is ih => exact ih (fun j hj => h j (List.mem_cons_of_mem i hj)) (h i List.mem_cons_self s hs)

/-- Every state on the way, the first and the last included, is as `p` says. -/
def Throughout (p : σ → Prop) (f : ι → Action σ α) : List ι → σ → Prop
  | [], s => p s
  | i :: rest, s => p s ∧ Throughout p f rest (f i s).2

/-- Every action is as `q` says of it and of the state in which it begins. -/
def Each (q : ι → σ → Prop) (f : ι → Action σ α) : List ι → σ → Prop
  | [], _ => True
  | i :: rest, s => q i s ∧ Each q f rest (f i s).2

instance decidableEach {q : ι → σ → Prop} {f : ι → Action σ α} [∀ i s, Decidable (q i s)] :
    (is : List ι) → (s : σ) → Decidable (Each q f is s)
  | [], _ => inferInstanceAs (Decidable True)
  | i :: rest, s =>
    have := decidableEach (q := q) (f := f) rest (f i s).2
    inferInstanceAs (Decidable (q i s ∧ Each q f rest (f i s).2))

theorem Throughout.first {p : σ → Prop} {f : ι → Action σ α} {is : List ι} {s : σ} (h : Throughout p f is s) : p s := by
  cases is with
  | nil => exact h
  | cons i is => exact h.1

theorem Throughout.last {p : σ → Prop} {f : ι → Action σ α} {is : List ι} {s : σ} (h : Throughout p f is s) :
    p (after f is s) := by
  induction is generalizing s with
  | nil => exact h
  | cons i is ih => exact ih h.2

/-- If exactly the actions of which `q` holds lead from `p` to `p`, then `p` holds throughout if `q` holds of each. -/
theorem throughout_iff {p : σ → Prop} {q : ι → σ → Prop} {f : ι → Action σ α} (kept : ∀ i, Keeps I (f i))
    (step : ∀ i s, I s → p s → (p (f i s).2 ↔ q i s)) {is : List ι} {s : σ} (hi : I s) (hp : p s) :
    Throughout p f is s ↔ Each q f is s := by
  induction is generalizing s with
  | nil => exact ⟨fun _ => trivial, fun _ => hp⟩
  | cons i is ih =>
    have rest := fun hp' => @ih (f i s).2 (kept i s hi) hp'
    constructor
    · rintro ⟨-, h⟩
      exact ⟨(step i s hi hp).mp h.first, (rest h.first).mp h⟩
    · rintro ⟨hq, h⟩
      exact ⟨hp, (rest ((step i s hi hp).mpr hq)).mpr h⟩

end FirebirdSql.Action
