import FirebirdSql.Catalog.Reader
import FirebirdSql.Proofs.Shadow.Server
import FirebirdSql.Proofs.Transaction
import FirebirdSql.Shadow.Store

/-!
Between two transactions nothing is left uncommitted, whether or not a call has failed: a statement that is executed as
a transaction of its own has its whole effect or none.
-/

namespace FirebirdSql.Shadow.Server

open Action (Triple)

variable {u : Usage} {saved db : Database} {statement : Statement}

/-- The last commit saved the one database, the current transaction sees the other. -/
structure Holds (saved db : Database) (s : Server) : Prop where
  committed : s.committed = saved
  current : s.current = db

/-- Nothing is uncommitted. -/
def Rests (db : Database) (s : Server) : Prop := Holds db db s

/-- What was done can be undone: no call fails any more, or nothing was done. -/
def Undoes (saved : Database) (s : Server) : Prop := ∃ db, Holds saved db s ∧ (s.failing = none ∨ db = saved)

/-- A call that fails is the last one to do so. -/
theorem call_triple {α : Type} {P : Server → Prop} {x : Action Server α} {Q : α → Server → Prop}
    {E : Error → Server → Prop} (hp : ∀ s f, P s → P { s with failing := f }) (hx : Triple P x Q E)
    (he : ∀ s, P s → s.failing = none → E u.lost s) : Triple P (call u x) Q E := by
  intro s hs
  unfold call
  split
  · exact hx s hs
  · exact Action.ends_error.mpr (he _ (hp s none hs) rfl)
  · exact hx _ (hp s _ hs)

theorem holds_of_failing (s : Server) (f : Option Nat) (h : Holds saved db s) : Holds saved db { s with failing := f } :=
  ⟨h.committed, h.current⟩

theorem ask_rests (q : CatalogQuery) :
    Triple (Rests db) (Catalog.ask (cursor u) q) (fun rows s => db.answer u q = some rows ∧ Rests db s)
      (fun _ => Rests db) := by
  refine Triple.bind (R := fun _ s => db.answer u q = some s.rows ∧ Rests db s) ?_ fun _ => ?_
  · refine call_triple holds_of_failing (fun s hs => ?_) fun _ hs _ => hs
    unfold execute
    dsimp only
    rw [hs.current]
    split
    · next h => exact Action.ends_ok.mpr ⟨h, hs.committed, rfl⟩
    · exact Action.ends_error.mpr ⟨hs.committed, rfl⟩
  · refine call_triple (fun _ f h => ⟨h.1, holds_of_failing _ f h.2⟩) (fun s hs => ?_) fun _ hs _ => hs.2
    exact Action.ends_ok.mpr ⟨hs.1, hs.2.committed, hs.2.current⟩

theorem execute_holds (hs : ∀ q, statement ≠ .catalog q) :
    Triple (Holds saved db) ((cursor u).execute statement)
      (fun _ s => ∃ after, db.exec u statement = some after ∧ Holds saved after s)
      (fun _ s => Holds saved db s ∧ (s.failing = none ∨ db.exec u statement = none)) := by
  refine call_triple holds_of_failing (fun s h => ?_) fun _ h hf => ⟨h, .inl hf⟩
  unfold execute
  split
  · exact absurd rfl (hs _)
  · rw [h.current]
    split
    · next after ha => exact Action.ends_ok.mpr ⟨after, ha, h.committed, rfl⟩
    · next ha => exact Action.ends_error.mpr ⟨⟨h.committed, rfl⟩, .inr ha⟩

theorem commit_holds :
    Triple (Holds saved db) (cursor u).commit (fun _ => Rests db) (fun _ s => Holds saved db s ∧ s.failing = none) := by
  refine call_triple holds_of_failing (fun s h => ?_) fun _ h hf => ⟨h, hf⟩
  exact Action.ends_ok.mpr ⟨h.current, h.current⟩

theorem abandon_undoes : Triple (Undoes saved) (cursor u).abandon (fun _ => Rests saved) (fun _ _ => False) := by
  refine Cursor.abandon_triple ?_
  rintro s ⟨db, h, hf⟩
  rcases hf with hf | rfl
  · change Action.Ends _ _ (call u _ s)
    rw [call, hf]
    exact Action.ends_ok.mpr ⟨h.committed, h.committed⟩
  · refine call_triple (P := Rests db) holds_of_failing (fun s h => ?_) (fun _ h _ => h) s h
    exact Action.ends_ok.mpr ⟨h.committed, h.committed⟩

/-- A statement that is a transaction of its own has its effect, or none. -/
theorem executeCommitted_rests (hs : ∀ q, statement ≠ .catalog q) :
    Triple (Rests db) ((cursor u).executeCommitted statement)
      (fun _ s => ∃ after, db.exec u statement = some after ∧ Rests after s) (fun _ => Rests db) := by
  refine Cursor.executeCommitted_triple (U := fun _ => Undoes db)
    (M := fun s => ∃ after, db.exec u statement = some after ∧ Holds db after s) ?_ ?_ fun _ => abandon_undoes
  · exact (execute_holds hs).weaken (fun _ => id) (fun _ _ => id) fun _ _ h => ⟨db, h.1, .inr rfl⟩
  · rintro s ⟨after, ha, h⟩
    exact (commit_holds s h).mono (fun _ _ hr => ⟨after, ha, hr⟩) fun _ _ h => ⟨after, h.1, .inl h.2⟩

theorem executeClassified_holds (hs : ∀ q, statement ≠ .catalog q) :
    Triple (Holds saved db) ((cursor u).executeClassified statement)
      (fun _ s => ∃ after, db.exec u statement = some after ∧ Holds saved after s)
      (fun _ s => Holds saved db s ∧ (s.failing = none ∨ db.exec u statement = none)) :=
  Cursor.executeClassified_triple (execute_holds hs)

/-- Where both tables are there, both are filled, or neither is. -/
theorem capture_rests {after : Database} (hc : db.exec u .captureConstraints = some after)
    {last : Database} (hs : after.exec u .captureSegments = some last) :
    Triple (Rests db) (capture (cursor u)) (fun _ => Rests last) (fun _ => Rests db) := by
  have started : Triple (Rests db) ((cursor u).start .snapshot) (fun _ => Rests db) (fun _ => Rests db) :=
    call_triple holds_of_failing (fun _ h => Action.ends_ok.mpr h) fun _ h _ => h
  have filled : Triple (Rests db) (do
      (cursor u).executeClassified .captureConstraints
      (cursor u).executeClassified .captureSegments) (fun _ => Holds db last) (fun _ => Undoes db) := by
    refine Triple.bind ((executeClassified_holds fun _ h => by cases h).weaken (fun _ => id) (fun _ _ => id)
      fun _ _ h => ⟨db, h.1, .inr rfl⟩) fun _ => ?_
    rintro s ⟨next, hnext, h⟩
    obtain rfl := Option.some.inj (hnext.symm.trans hc)
    refine (executeClassified_holds (fun _ h => by cases h) s h).mono ?_ ?_
    · rintro _ t ⟨reached, hr, ht⟩
      obtain rfl := Option.some.inj (hr.symm.trans hs)
      exact ht
    · rintro _ t ⟨ht, hf | hn⟩
      · exact ⟨_, ht, .inl hf⟩
      · exact absurd (hn.symm.trans hs) (by simp)
  have committed : Triple (Holds db last) (cursor u).commitOrAbandon (fun _ => Rests last) (fun _ => Rests db) := by
    refine Cursor.commitOrAbandon_triple (U := fun _ => Undoes db) ?_ fun _ => abandon_undoes
    exact commit_holds.weaken (fun _ => id) (fun _ _ => id) fun _ _ h => ⟨last, h.1, .inl h.2⟩
  exact Cursor.inTransaction_triple started filled (fun _ => committed) fun _ => abandon_undoes

/-! When no call fails any more -/

/-- The server rests, and every call does what it should. -/
def Calm (db : Database) (s : Server) : Prop := Rests db s ∧ s.failing = none

theorem call_of_none {α : Type} {x : Action Server α} {s : Server} (h : s.failing = none) : call u x s = x s := by
  rw [call, h]

theorem ask_calm {q : CatalogQuery} {rows : List Row} (h : db.answer u q = some rows) :
    Triple (Calm db) (Catalog.ask (cursor u) q) (fun r s => r = rows ∧ Calm db s) (fun _ _ => False) := by
  refine Triple.bind (R := fun _ s => s.rows = rows ∧ Calm db s) (fun s hs => ?_) fun _ s hs => ?_
  · change Action.Ends _ _ (call u (execute u (.catalog q)) s)
    rw [call_of_none hs.2, execute, hs.1.current, h]
    exact Action.ends_ok.mpr ⟨rfl, ⟨hs.1.committed, rfl⟩, hs.2⟩
  · change Action.Ends _ _ (call u fetchAll s)
    rw [call_of_none hs.2.2]
    exact Action.ends_ok.mpr ⟨hs.1, ⟨hs.2.1.committed, hs.2.1.current⟩, hs.2.2⟩

theorem ask_refused {q : CatalogQuery} (h : db.answer u q = none) :
    Triple (Calm db) (Catalog.ask (cursor u) q) (fun _ _ => False) (fun _ => Calm db) := by
  refine Triple.bind (R := fun _ _ => False) (fun s hs => ?_) fun _ _ => False.elim
  change Action.Ends _ _ (call u (execute u (.catalog q)) s)
  rw [call_of_none hs.2, execute, hs.1.current, h]
  exact Action.ends_error.mpr ⟨⟨hs.1.committed, rfl⟩, hs.2⟩

theorem execute_of_ne (hs : ∀ q, statement ≠ .catalog q) {s : Server} (h : s.failing = none) :
    (cursor u).execute statement s = match s.current.exec u statement with
      | some db => (.ok (), { s with current := db, rows := [] })
      | none => (.error u.refusal, { s with rows := [] }) := by
  change call u (execute u statement) s = _
  rw [call_of_none h]
  unfold execute
  split
  · exact absurd rfl (hs _)
  · rfl

theorem executeCommitted_calm (hs : ∀ q, statement ≠ .catalog q) {after : Database}
    (he : db.exec u statement = some after) :
    Triple (Calm db) ((cursor u).executeCommitted statement) (fun _ => Calm after) (fun _ _ => False) := by
  refine Cursor.executeCommitted_triple (U := fun _ _ => False) (M := fun s => s.current = after ∧ s.failing = none)
    (fun s h => ?_) (fun s h => ?_) fun _ _ => False.elim
  · rw [execute_of_ne hs h.2, h.1.current, he]
    exact Action.ends_ok.mpr ⟨rfl, h.2⟩
  · change Action.Ends _ _ (call u _ s)
    rw [call_of_none h.2]
    exact Action.ends_ok.mpr ⟨⟨h.1, h.1⟩, h.2⟩

theorem executeCommitted_refused (hs : ∀ q, statement ≠ .catalog q) (he : db.exec u statement = none) :
    Triple (Calm db) ((cursor u).executeCommitted statement) (fun _ _ => False) (fun _ => Calm db) := by
  refine Cursor.executeCommitted_triple (U := fun _ => Calm db) (M := fun _ => False) (fun s h => ?_)
    (fun _ => False.elim) fun _ => Cursor.abandon_triple fun s h => ?_
  · rw [execute_of_ne hs h.2, h.1.current, he]
    exact Action.ends_error.mpr ⟨⟨h.1.committed, rfl⟩, h.2⟩
  · change Action.Ends _ _ (call u _ s)
    rw [call_of_none h.2]
    exact Action.ends_ok.mpr ⟨⟨h.1.committed, h.1.committed⟩, h.2⟩

end FirebirdSql.Shadow.Server
