import FirebirdSql.Proofs.Editor.Counting

/-!
Models that are created and deleted again. Whether a sequence is made is decided by the fields of the model, and whether
one is dropped by the catalog, or not at all if statements are only collected. Both agree for a model that counts under a
name without a quote in it.
-/

namespace FirebirdSql.Editor

open Action (Keeps Triple Ends)

/-- Just the sequences that were made are dropped. -/
def Balanced (ss : List Statement) : Prop := ∀ sequence, .createSequence sequence ∈ ss ↔ .dropSequence sequence ∈ ss

theorem balanced_weighty {ss : List Statement} : Balanced (Statement.weighty ss) ↔ Balanced ss :=
  forall_congr' fun _ => iff_congr (Statement.mem_weighty rfl) (Statement.mem_weighty rfl)

theorem balanced_iff {e : Engine} {m : Model} {table table' : Identifier} {columns : List (Identifier × ColumnDefinition)}
    (dropped : Bool) :
    Balanced (.createTable table columns :: Sequence.setUpModel e m ++ [.dropTable table'] ++
        if dropped then [.dropSequence (Sequence.ofTable e m.table).sequence] else []) ↔
      m.autoField?.isSome = dropped := by
  unfold Sequence.setUpModel Sequence.setUp
  cases m.autoField? with
  | none => cases dropped <;> simp [Balanced]
  | some f => cases dropped <;> simp [Balanced, eq_comm]

section Following

variable {ed : Editor σ} {standing : σ → Counters.Standing} (truth : ed.collects = false → ed.cursor.Reflects standing)
variable {start ss : List Statement} {k : Counters} (m : Model)

include truth

theorem createModel_followed :
    Triple (ed.Followed standing start ss k) (ed.recording.createModel m)
      (fun _ => ed.Followed standing start (ss ++ ed.createTableStatement m :: Sequence.setUpModel ed.engine m)
        ((Sequence.setUpModel ed.engine m).foldl Statement.countersAfter k)) (fun _ _ => True) := by
  have indexes := keeper_followed truth start (ss ++ ed.createTableStatement m :: Sequence.setUpModel ed.engine m)
    ((Sequence.setUpModel ed.engine m).foldl Statement.countersAfter k)
  have weigh : ∀ s ∈ Sequence.setUpModel ed.engine m, s.isAside = false := by
    unfold Sequence.setUpModel Sequence.setUp
    cases m.autoField? <;> simp [Statement.isAside, Statement.keepsRows, Statement.counts]
  have counting : Triple (ed.Followed standing start (ss ++ [ed.createTableStatement m]) k)
      (ed.recording.runAll m.table (Sequence.setUpModel ed.engine m)) _ _ := runAll_followed truth weigh
  rw [List.append_assoc] at counting
  refine Runner.createModel_counting_triple indexes.toRunner (fun _ _ aside => aside) ?_ (run_followed truth rfl) counting
    fun _ _ _ => trivial
  exact ((keeper_followed truth start ss k).putOff _).ending fun _ _ _ => trivial

theorem deleteModel_followed :
    Triple (ed.Followed standing start ss k) (ed.recording.deleteModel m)
      (fun _ y => ∃ k', ed.Followed standing start
        (ss ++ [.dropTable (ed.quote m.table)] ++
          if ed.collects || k.sequences (Sequence.ofTable ed.engine m.table).sequenceCatalogName then
            [.dropSequence (Sequence.ofTable ed.engine m.table).sequence] else []) k' y) (fun _ _ => True) :=
  (run_followed truth rfl).bind fun _ => dropSequence_followed truth m.table

end Following

/-- The sequence is there after the model was created, just if the model counts and the catalog finds the sequence under
the name that it is asked for. -/
theorem setUpModel_sequence {e : Engine} {m : Model} {k : Counters} {name : String} (absent : k.sequences name = false) :
    ((Sequence.setUpModel e m).foldl Statement.countersAfter k).sequences name =
      (m.autoField?.isSome && (Sequence.ofTable e m.table).sequence.denoted? == some name) := by
  unfold Sequence.setUpModel Sequence.setUp
  cases m.autoField? with
  | none => exact absent
  | some f => simp [Statement.countersAfter, absent]

/-- A model that is created and deleted again has just the sequence dropped that was made for it: always if the statements
are sent, where the catalog tells truly what is there and nothing of the model was there before, unless the model counts
and a quote is left in the name of its sequence; and only if the model counts, where they are collected. -/
theorem create_delete_balanced_iff {ed : Editor σ} {standing : σ → Counters.Standing}
    (truth : ed.collects = false → ed.cursor.Reflects standing) (m : Model) {x : State (Noted σ Statement)}
    (fresh : ed.collects = false → ∃ k : Counters, ed.recording.Shows (fun link => standing link.link) k x ∧
      k.sequences (Sequence.ofTable ed.engine m.table).sequenceCatalogName = false) :
    Ends
      (fun _ y => ∃ ss, ed.sent y = ed.sent x ++ ss ∧
        (Balanced ss ↔ if ed.collects then m.autoField?.isSome = true
          else m.autoField?.isSome = true → '"' ∉ Identifier.kept (ed.engine.identifierLimit - 3) m.table.toList))
      (fun _ _ => True) ((do ed.recording.createModel m; ed.recording.deleteModel m) x) := by
  let name := (Sequence.ofTable ed.engine m.table).sequenceCatalogName
  obtain ⟨k, followed, absent⟩ : ∃ k : Counters, ed.Followed standing (ed.sent x) [] k x ∧ k.sequences name = false := by
    cases sends : ed.collects with
    | true =>
      -- The connection is not asked, so that nothing has to hold of it.
      exact ⟨⟨fun _ => false, fun _ => none⟩, .of_collects sends (.refl x), rfl⟩
    | false =>
      obtain ⟨k, shows, absent⟩ := fresh sends
      exact ⟨k, ⟨.refl x, fun _ => shows⟩, absent⟩
  have made : Triple (ed.Followed standing (ed.sent x) [] k) (ed.recording.createModel m) _ _ :=
    createModel_followed truth m
  refine ((made.bind fun _ => deleteModel_followed truth m) x followed).mono (fun _ y hy => ?_) fun _ _ _ => trivial
  obtain ⟨k', ⟨ss, beyond, weigh⟩, -⟩ := hy
  refine ⟨ss, beyond, ?_⟩
  rw [← balanced_weighty, weigh, List.nil_append, createTableStatement, balanced_iff, setUpModel_sequence absent,
    ← Sequence.sequence_denoted?_iff]
  cases ed.collects <;> cases m.autoField?.isSome <;> simp [name]

namespace Shelf

/-- A book is numbered, and a tag has its name as the key. -/
def book : Model := ⟨"book", [.autoKey "id"], [], [], []⟩

def tag : Model := ⟨"tag", [{ Field.ofType "name" (.char 20) with primaryKey := true }], [], [], []⟩

def collector : Editor Registry := { ofRegistry with collects := true }

/-- What is sent while the model is created and deleted again, with nothing there before. -/
def sentFor (ed : Editor Registry) (m : Model) : List Statement :=
  ed.sent ((do ed.recording.createModel m; ed.recording.deleteModel m) (startOf .empty)).2

theorem book_isOk :
    ((do ofRegistry.recording.createModel book; ofRegistry.recording.deleteModel book) (startOf .empty)).1.isOk = true := by
  decide +kernel

end Shelf

theorem create_delete_balanced_book :
    (ofRegistry.collects = false → ofRegistry.cursor.Reflects Registry.standing) ∧
      (ofRegistry.collects = false → ∃ k : Counters,
        ofRegistry.recording.Shows (fun link => link.link.standing) k (startOf .empty) ∧
        k.sequences (Sequence.ofTable ofRegistry.engine Shelf.book.table).sequenceCatalogName = false) ∧
      Balanced (Shelf.sentFor ofRegistry Shelf.book) ∧
      .dropSequence ⟨"\"BOOK_SQ\""⟩ ∈ Shelf.sentFor ofRegistry Shelf.book := by
  have fresh : ofRegistry.collects = false → ∃ k : Counters,
      ofRegistry.recording.Shows (fun link => link.link.standing) k (startOf .empty) ∧
      k.sequences (Sequence.ofTable ofRegistry.engine Shelf.book.table).sequenceCatalogName = false :=
    fun _ => ⟨_, startOf_shows rfl, rfl⟩
  have ends := create_delete_balanced_iff ofRegistry_reflects Shelf.book fresh
  obtain ⟨-, ss, beyond, balanced⟩ := ends.of_isOk Shelf.book_isOk
  refine ⟨ofRegistry_reflects, fresh, ?_, by decide +kernel⟩
  rw [Shelf.sentFor, beyond]
  exact balanced.mpr fun _ => by decide +kernel

/-- For a tag, which does not count, a sequence that was never made is dropped. -/
theorem create_delete_unbalanced_tag :
    ((do Shelf.collector.recording.createModel Shelf.tag; Shelf.collector.recording.deleteModel Shelf.tag)
        (startOf .empty)).1.isOk = true ∧
      ¬Balanced (Shelf.sentFor Shelf.collector Shelf.tag) := by
  refine ⟨by decide +kernel, fun balanced => ?_⟩
  have dropped : .dropSequence ⟨"\"TAG_SQ\""⟩ ∈ Shelf.sentFor Shelf.collector Shelf.tag := by decide +kernel
  exact absurd ((balanced _).mpr dropped) (by decide +kernel)

end FirebirdSql.Editor
