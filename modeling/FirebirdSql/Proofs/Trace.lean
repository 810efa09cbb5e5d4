import FirebirdSql.Proofs.Editor.Noting

/-!
The course of an edit that succeeds: the changes it sends to the engine, and the questions it asks of the catalog with
their answers.
-/

namespace FirebirdSql

open Catalog (IncomingKey)

inductive Entry where
  | sent (s : Statement)
  | answered (rows : List Row)
  deriving DecidableEq

inductive Exchange where
  | change (s : Statement)
  | question (q : CatalogQuery) (rows : List Row)
  deriving DecidableEq

namespace Exchange

def entries : Exchange → List Entry
  | .change s => [.sent s]
  | .question q rows => [.sent (.catalog q), .answered rows]

def change? : Exchange → Option Statement
  | .change s => some s
  | .question .. => none

def changes (xs : List Exchange) : List Statement := xs.filterMap change?

/-- The keys that an answer reports as incoming ones. -/
def incoming : Exchange → List IncomingKey
  | .question (.incomingKeys ..) rows => (rows.mapM IncomingKey.ofRow).toOption.getD []
  | _ => []

def reported (xs : List Exchange) : List IncomingKey := xs.flatMap incoming

@[simp] theorem changes_append (xs ys : List Exchange) : changes (xs ++ ys) = changes xs ++ changes ys :=
  List.filterMap_append

@[simp] theorem reported_append (xs ys : List Exchange) : reported (xs ++ ys) = reported xs ++ reported ys :=
  List.flatMap_append

theorem sent_mem {xs : List Exchange} {s : Statement} (h : s ∈ changes xs) :
    Entry.sent s ∈ xs.flatMap entries := by
  obtain ⟨x, hx, hs⟩ := List.mem_filterMap.mp h
  refine List.mem_flatMap.mpr ⟨x, hx, ?_⟩
  cases x with
  | change s' =>
    obtain rfl := Option.some.inj hs
    exact List.mem_cons_self
  | question q rows => cases hs

end Exchange

open Exchange (changes reported)

/-- Just these exchanges were noted from one state to another. -/
def Passes (notes : τ → List Entry) (s t : τ) (xs : List Exchange) : Prop :=
  notes t = notes s ++ xs.flatMap Exchange.entries

/-- A success is noted as exchanges whose changes and reported keys fit the result. -/
def Leaves (notes : τ → List Entry) (x : Action τ α) (R : α → List Statement → List IncomingKey → Prop) : Prop :=
  ∀ s a t, x s = (.ok a, t) → ∃ xs, Passes notes s t xs ∧ R a (changes xs) (reported xs)

/-- A success changes nothing and gets no key reported. -/
def Quiet (notes : τ → List Entry) (x : Action τ α) : Prop := Leaves notes x fun _ ss keys => ss = [] ∧ keys = []

/-- A success sends statements of one kind, and gets no key reported. -/
def Sends (p : Statement → Bool) (notes : τ → List Entry) (x : Action τ α) : Prop :=
  Leaves notes x fun _ ss keys => (∀ s ∈ ss, p s = true) ∧ keys = []

section Passes

variable {notes : τ → List Entry} {s t u : τ} {xs ys : List Exchange}

theorem Passes.nil : Passes notes s s [] := (List.append_nil _).symm

theorem Passes.trans (h : Passes notes s t xs) (h' : Passes notes t u ys) : Passes notes s u (xs ++ ys) := by
  rw [Passes] at h h' ⊢
  rw [h', h, List.append_assoc, List.flatMap_append]

theorem Passes.sent_mem (h : Passes notes s t xs) {statement : Statement} (hs : statement ∈ changes xs) :
    Entry.sent statement ∈ notes t := by
  rw [h]
  exact List.mem_append_right _ (Exchange.sent_mem hs)

end Passes

theorem bind_eq_ok_iff {ε α β : Type} {x : Except ε α} {f : α → Except ε β} {b : β} :
    (x >>= f) = .ok b ↔ ∃ a, x = .ok a ∧ f a = .ok b := by
  cases x with
  | error e =>
    constructor
    · intro h
      cases h
    · rintro ⟨a, h, -⟩
      cases h
  | ok a =>
    constructor
    · exact fun h => ⟨a, rfl, h⟩
    · rintro ⟨a, ⟨⟩, h⟩
      exact h

theorem Action.bind_ok {x : Action τ α} {f : α → Action τ β} {s u : τ} {b : β} (h : (x >>= f) s = (.ok b, u)) :
    ∃ a t, x s = (.ok a, t) ∧ f a t = (.ok b, u) := by
  rw [Action.bind_apply] at h
  revert h
  obtain ⟨r, t⟩ := x s
  cases r with
  | ok a => exact fun h => ⟨a, t, rfl, h⟩
  | error e => exact fun h => absurd (congrArg Prod.fst h) (by simp)

theorem Action.bind_of_ok {x : Action τ α} {f : α → Action τ β} {s t : τ} {a : α} (h : x s = (.ok a, t)) :
    (x >>= f) s = f a t := by rw [Action.bind_apply, h]

namespace Leaves

variable {notes : τ → List Entry} {x : Action τ α} {R R' : α → List Statement → List IncomingKey → Prop}

theorem mono (h : Leaves notes x R) (hr : ∀ a ss keys, R a ss keys → R' a ss keys) : Leaves notes x R' := by
  intro s a t hx
  obtain ⟨xs, hp, hxs⟩ := h s a t hx
  exact ⟨xs, hp, hr a _ _ hxs⟩

theorem pure {a : α} (h : R a [] []) : Leaves notes (Pure.pure a) R := by
  rintro s _ t ⟨⟩
  exact ⟨[], .nil, h⟩

theorem fail (e : Error) : Leaves notes (Action.fail e) R := by rintro s a t ⟨⟩

theorem lift {r : Except Error α} (h : ∀ a, r = .ok a → R a [] []) : Leaves notes (Action.lift r) R := by
  intro s a t hx
  obtain ⟨hr, rfl⟩ := Prod.mk.inj hx
  exact ⟨[], .nil, h a hr⟩

theorem bind {f : α → Action τ β} {G : α → β → List Statement → List IncomingKey → Prop}
    {S : β → List Statement → List IncomingKey → Prop} (hx : Leaves notes x R) (hf : ∀ a, Leaves notes (f a) (G a))
    (h : ∀ a b ss keys ss' keys', R a ss keys → G a b ss' keys' → S b (ss ++ ss') (keys ++ keys')) :
    Leaves notes (x >>= f) S := by
  intro s b u hb
  obtain ⟨a, t, ha, hb⟩ := Action.bind_ok hb
  obtain ⟨xs, hp, hxs⟩ := hx s a t ha
  obtain ⟨ys, hq, hys⟩ := hf a t b u hb
  refine ⟨xs ++ ys, hp.trans hq, ?_⟩
  rw [Exchange.changes_append, Exchange.reported_append]
  exact h a b _ _ _ _ hxs hys

theorem ite {c : Prop} [Decidable c] {y : Action τ α} (hx : c → Leaves notes x R) (hy : ¬c → Leaves notes y R) :
    Leaves notes (if c then x else y) R := by
  split
  · next h => exact hx h
  · next h => exact hy h

/-- One statement for each member. -/
theorem forEach {f : α → Action τ Unit} {g : α → Statement}
    (h : ∀ a, Leaves notes (f a) fun _ ss keys => ss = [g a] ∧ keys = []) (as : List α) :
    Leaves notes (Action.forEach f as) fun _ ss keys => ss = as.map g ∧ keys = [] := by
  induction as with
  | nil => exact pure ⟨rfl, rfl⟩
  | cons a as ih =>
    refine (h a).bind (fun _ => ih) ?_
    rintro - - ss keys ss' keys' ⟨rfl, rfl⟩ ⟨rfl, rfl⟩
    exact ⟨rfl, rfl⟩

end Leaves

namespace Quiet

variable {notes : τ → List Entry} {x : Action τ α} {R : α → List Statement → List IncomingKey → Prop}

theorem pure {a : α} : Quiet notes (Pure.pure a) := Leaves.pure ⟨rfl, rfl⟩

theorem lift {r : Except Error α} : Quiet notes (Action.lift r) := Leaves.lift fun _ _ => ⟨rfl, rfl⟩

theorem leaves (h : Quiet notes x) (hr : ∀ a, R a [] []) : Leaves notes x R := by
  refine h.mono fun a ss keys hs => ?_
  rw [hs.1, hs.2]
  exact hr a

/-- After a quiet step only the rest counts. -/
theorem bind {f : α → Action τ β} {R : β → List Statement → List IncomingKey → Prop} (h : Quiet notes x)
    (hf : ∀ a, Leaves notes (f a) R) : Leaves notes (x >>= f) R := by
  refine Leaves.bind h hf fun a b ss keys ss' keys' hs hr => ?_
  rw [hs.1, hs.2]
  exact hr

end Quiet

namespace Sends

variable {p : Statement → Bool} {notes : τ → List Entry} {x : Action τ α}

theorem of_quiet (h : Quiet notes x) : Sends p notes x := h.leaves fun _ => ⟨by simp, rfl⟩

theorem bind {f : α → Action τ β} (hx : Sends p notes x) (hf : ∀ a, Sends p notes (f a)) : Sends p notes (x >>= f) := by
  refine Leaves.bind hx hf ?_
  rintro - - ss keys ss' keys' ⟨hs, rfl⟩ ⟨hs', rfl⟩
  refine ⟨fun s hm => ?_, rfl⟩
  exact (List.mem_append.mp hm).elim (hs s) (hs' s)

theorem forEach {f : α → Action τ Unit} {as : List α} (h : ∀ a ∈ as, Sends p notes (f a)) :
    Sends p notes (Action.forEach f as) := by
  induction as with
  | nil => exact of_quiet Quiet.pure
  | cons a as ih =>
    refine bind (h a List.mem_cons_self) fun _ => ih fun b hb => ?_
    exact h b (List.mem_cons_of_mem a hb)

end Sends

namespace Cursor

def traced (c : Cursor σ) : Cursor (Noted σ Entry) := c.noting (fun s => [.sent s]) fun rows => [.answered rows]

variable (c : Cursor σ) {q : CatalogQuery}

theorem ask_passes {s t : Noted σ Entry} {rows : List Row} (h : Catalog.ask c.traced q s = (.ok rows, t)) :
    Passes Noted.notes s t [.question q rows] := by
  have noted := (noting_query_triple c (fun s => [Entry.sent s]) (fun rows => [Entry.answered rows]) (.catalog q) s.notes
    s rfl).of_ok rows t h
  exact noted.trans (List.append_assoc ..)

/-- What is asked through the connection that notes is asked of the connection. -/
theorem ask_follows (q : CatalogQuery) : Noted.Follows (Catalog.ask c.traced q) (Catalog.ask c q) :=
  c.noting_query_follows _ _ (.catalog q)

theorem ask_plain {s t : Noted σ Entry} {rows : List Row} (h : Catalog.ask c.traced q s = (.ok rows, t)) :
    Catalog.ask c q s.link = (.ok rows, t.link) :=
  (c.ask_follows q).eq_of_ok h

theorem ask_quiet (hq : ∀ relation column, q ≠ .incomingKeys relation column) :
    Quiet Noted.notes (Catalog.ask c.traced q) := by
  intro s rows t h
  refine ⟨_, c.ask_passes h, rfl, ?_⟩
  rw [reported, List.flatMap_singleton, Exchange.incoming]
  rintro relation column rows ⟨⟩
  exact absurd rfl (hq relation column)

end Cursor

namespace Editor

def traced (ed : Editor σ) : Editor (Noted σ Entry) := { ed with cursor := ed.cursor.traced }

/-- What was noted of the connection. -/
def State.notes (x : State (Noted σ ε)) : List ε := x.base.link.notes

variable {ed : Editor σ} {R : α → List Statement → List IncomingKey → Prop}

theorem onBase_ok {x : Action (Catalog.Cached σ) α} {s t : State σ} {a : α} (h : onBase x s = (.ok a, t)) :
    x s.base = (.ok a, t.base) := by
  obtain ⟨hr, rfl⟩ := Prod.mk.inj h
  exact Prod.ext hr rfl

theorem onLink_ok {x : Action σ α} {s t : State σ} {a : α} (h : onLink x s = (.ok a, t)) :
    x s.base.link = (.ok a, t.base.link) := by
  obtain ⟨hr, rfl⟩ := Prod.mk.inj h
  exact Prod.ext hr rfl

theorem onLink_leaves {x : Action (Noted σ Entry) α} (h : Leaves Noted.notes x R) :
    Leaves State.notes (onLink x) R := by
  intro s a t hx
  exact h s.base.link a t.base.link (onLink_ok hx)

/-- A statement that succeeds was sent. -/
theorem run_leaves (hc : ed.collects = false) (table : String) (s : Statement) :
    Leaves State.notes (ed.traced.run table s) fun _ ss keys => ss = [s] ∧ keys = [] := by
  intro x a t hx
  have sent := noting_send_adds ed (fun s => [Entry.sent s]) (fun rows => [Entry.answered rows]) s x.base.link
  rw [run_apply, execute, Action.bind_apply, Action.lift_apply] at hx
  cases hv : s.fragment.validate with
  | error e =>
    rw [hv] at hx
    exact absurd (congrArg Prod.fst hx) (by simp)
  | ok _ =>
    rw [hv, if_neg (show ¬ed.traced.collects = true by rw [traced, hc]; exact Bool.false_ne_true)] at hx
    refine ⟨[.change s], ?_, rfl, rfl⟩
    rw [← (Prod.mk.inj hx).2]
    exact sent

/-- One that is only tried may be refused before it is sent. -/
theorem attempt_run_leaves (table : String) (s : Statement) :
    Leaves State.notes (ed.traced.run table s).attempt fun _ ss keys => (∀ s' ∈ ss, s' = s) ∧ keys = [] := by
  intro x r t hx
  obtain ⟨-, rfl⟩ := Prod.mk.inj hx
  rcases noting_run_notes ed (fun s => [Entry.sent s]) (fun rows => [Entry.answered rows]) s x table with h | h
  · exact ⟨[], h.trans (List.append_nil _).symm, by simp [changes], rfl⟩
  · exact ⟨[.change s], h, by simp [changes, Exchange.change?], rfl⟩

theorem commit_quiet : Quiet State.notes (onLink ed.traced.cursor.commit) := by
  refine onLink_leaves fun s a t h => ?_
  have quiet : (ed.traced.cursor.commit s).2.notes = s.notes ++ [] := Cursor.noting_commit_adds ed.cursor _ _ s
  rw [h] at quiet
  exact ⟨[], quiet, rfl, rfl⟩

end Editor

end FirebirdSql
