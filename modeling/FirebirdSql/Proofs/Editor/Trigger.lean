import FirebirdSql.Proofs.Alteration.Trigger
import FirebirdSql.Proofs.Editor.Counting

/-!
The trigger of a counting column while its field is altered. It goes out of the way of a new name if the column counts on.
If the column stops to count the trigger goes last, after the column was renamed or rebuilt under it.
-/

namespace FirebirdSql.Editor

open Action (Keeps Triple Ends)
open Statement (Along Respects countersAfter weighty)

/-- What counts for the table is dropped as far as it is found. -/
def takeDown (ed : Editor σ) (table : String) (trigger sequence : Bool) : List Statement :=
  (if trigger then [.dropTrigger (Sequence.ofTable ed.engine table).trigger] else []) ++
    if sequence then [.dropSequence (Sequence.ofTable ed.engine table).sequence] else []

theorem takeDown_count (ed : Editor σ) (table : String) (trigger sequence : Bool) :
    ∀ s ∈ ed.takeDown table trigger sequence, s.counts = true := by
  cases trigger <;> cases sequence <;> simp [takeDown, Statement.counts]

theorem takeDown_triggers {ed : Editor σ} {table n : String}
    (stored : (Sequence.ofTable ed.engine table).trigger.denoted? = some n) (trigger sequence : Bool) (k : Counters) :
    ((ed.takeDown table trigger sequence).foldl countersAfter k).triggers n = if trigger then none else k.triggers n := by
  have sequences (k : Counters) : ((if sequence then [Statement.dropSequence (Sequence.ofTable ed.engine table).sequence]
      else []).foldl countersAfter k).triggers = k.triggers := by
    cases sequence <;> rfl
  rw [takeDown, List.foldl_append, sequences]
  cases trigger with
  | true => exact Statement.dropTrigger_triggers stored
  | false => rfl

section Following

variable {ed : Editor σ} {standing : σ → Counters.Standing} (truth : ed.collects = false → ed.cursor.Reflects standing)
variable {start : List Statement} {k : Counters} {a : Alteration} (auto : a.old.type.isAuto = true)

include truth auto

/-- A column that goes on counting needs nothing more. Of one that stops the trigger is dropped if it is found, and then
the sequence. -/
theorem alterCounting_followed {ss : List Statement} :
    Triple (ed.Followed standing start ss k) (ed.recording.alterCounting a)
      (fun _ y => ∃ k' sequence, ed.Followed standing start
        (ss ++ ed.takeDown a.table (!a.new.type.isAuto &&
          (ed.collects || (k.triggers (Sequence.ofTable ed.engine a.table).triggerCatalogName).isSome)) sequence) k' y)
      (fun _ _ => True) := by
  unfold Editor.alterCounting
  rw [auto, Bool.not_true, Bool.and_false, if_neg Bool.false_ne_true, Bool.true_and]
  cases a.new.type.isAuto with
  | true => exact Triple.pure fun x hx => ⟨k, false, (List.append_nil ss).symm ▸ hx⟩
  | false =>
    refine (dropTrigger_followed truth a.table).bind fun _ x hx => ?_
    obtain ⟨k', hx⟩ := hx
    refine (dropSequence_followed truth a.table x hx).mono (fun _ y hy => ?_) fun _ _ _ => trivial
    obtain ⟨k'', hy⟩ := hy
    rw [List.append_assoc] at hy
    exact ⟨k'', _, hy⟩

theorem alterField_followed :
    Triple (ed.Followed standing start [] k) (ed.recording.alterField a)
      (fun _ y => ∃ sequence, ed.Sent start
        (a.columnStatements ed.engine ed.options ++ ed.takeDown a.table (!a.new.type.isAuto && (ed.collects ||
          (((a.columnStatements ed.engine ed.options).foldl countersAfter k).triggers
            (Sequence.ofTable ed.engine a.table).triggerCatalogName).isSome)) sequence) y)
      (fun _ _ => True) := by
  have before := keeper_followed truth start [] k
  have after := keeper_followed truth start (a.columnStatements ed.engine ed.options)
    ((a.columnStatements ed.engine ed.options).foldl countersAfter k)
  refine Keeper.alterField_counting_triple before after (fun _ _ aside => aside) (allowsKeys_aside _ _)
    (runAll_followed truth (columnStatements_weigh a ed.engine ed.options)) ?_ ?_ (fun _ _ _ => trivial)
    (fun _ _ _ => trivial) fun _ _ _ => trivial
  · refine (alterCounting_followed truth auto).weaken (fun _ => id) (fun _ y hy => ?_) fun _ _ => id
    obtain ⟨k', sequence, hy⟩ := hy
    exact ⟨sequence, hy.sent⟩
  · rintro y ⟨sequence, hy⟩
    exact ⟨sequence, (keeper_sent ed start _).refresh y hy⟩

end Following

section Sending

variable {n : String} {k : Counters} {ss : List Statement}

theorem foldl_countersAfter_weighty (ss : List Statement) (k : Counters) :
    ss.foldl countersAfter k = (weighty ss).foldl countersAfter k :=
  Statement.foldl_weighty (fun _ => Statement.countersAfter_of_isAside) ss k

theorem respects_weighty : Along countersAfter (Respects n) k ss ↔ Along countersAfter (Respects n) k (weighty ss) :=
  Statement.along_weighty (fun _ => Statement.countersAfter_of_isAside) fun _ aside _ =>
    Statement.respects_of_keepsRows (Statement.keepsRows_of_isAside aside)

theorem respects_of_counts {cs : List Statement} (count : ∀ s ∈ cs, s.counts = true) :
    Along countersAfter (Respects n) k cs :=
  Statement.along_of_forall fun s hs _ => Statement.respects_of_keepsRows (Statement.keepsRows_of_counts (count s hs))

end Sending

/-- The trigger of a column that counts never fills a column that is renamed or dropped, just if the column goes on
counting or else keeps its name and is not rebuilt. In the end it fills the column if that still counts, and is gone if
not, unless it is not found under the name that the catalog is asked for. -/
theorem alterField_trigger_iff {ed : Editor σ} {standing : σ → Counters.Standing}
    (truth : ed.collects = false → ed.cursor.Reflects standing) {a : Alteration} (auto : a.old.type.isAuto = true)
    (traceable : a.Traceable) {n : String} (stored : (Sequence.ofTable ed.engine a.table).trigger.denoted? = some n)
    {k : Counters} (there : k.triggers n = some (a.oldPlace ed.engine)) {x : State (Noted σ Statement)}
    (told : ed.collects = false → ed.recording.Shows (fun link => standing link.link) k x) :
    Ends
      (fun _ y => ∃ ss, ed.sent y = ed.sent x ++ ss ∧
        (Along countersAfter (Respects n) k ss ↔
          a.new.type.isAuto = true ∨ a.renames = false ∧ a.rebuilds ed.engine = false) ∧
        ((ss.foldl countersAfter k).triggers n = (if a.new.type.isAuto then some (a.place ed.engine) else none) ↔
          a.new.type.isAuto = true ∨
            (ed.collects || (k.triggers (Sequence.ofTable ed.engine a.table).triggerCatalogName).isSome) = true))
      (fun _ y => ∃ ss, ed.sent y = ed.sent x ++ ss ∧
        (a.new.type.isAuto = true ∨ a.renames = false ∧ a.rebuilds ed.engine = false →
          Along countersAfter (Respects n) k ss))
      (ed.recording.alterField a x) := by
  have respected := Alteration.columnStatements_respect_iff (o := ed.options) auto traceable stored there
  have column := Alteration.columnStatements_trigger (o := ed.options) auto traceable stored there
  have followed := alterField_followed (k := k) truth auto x ⟨.refl x, told⟩
  refine (followed.and (alterField_sends ed a x)).mono (fun _ y hy => ?_) fun _ y hy => ?_
  · obtain ⟨⟨sequence, ss, beyond, weigh⟩, -⟩ := hy
    refine ⟨ss, beyond, ?_, ?_⟩
    · rw [respects_weighty, weigh, Statement.along_append, respected]
      exact and_iff_left (respects_of_counts (ed.takeDown_count _ _ _))
    · rw [foldl_countersAfter_weighty, weigh, List.foldl_append, takeDown_triggers stored, column]
      cases next : a.new.type.isAuto with
      | true => exact iff_of_true rfl (.inl rfl)
      | false =>
        have stops : a.keepsCounting = false := by rw [Alteration.keepsCounting, next, Bool.and_false]
        rw [Alteration.columnStatements_counters_of_stops stops, Bool.not_false, Bool.true_and]
        cases ed.collects || (k.triggers (Sequence.ofTable ed.engine a.table).triggerCatalogName).isSome with
        | true => exact iff_of_true rfl (.inr rfl)
        | false => exact iff_of_false (by simp) (by simp)
  · -- What was sent before the failure is a beginning of what would have been sent.
    obtain ⟨-, cs, part, count, first, ss, beyond, rfl⟩ := hy
    refine ⟨ss, beyond, fun calm => respects_weighty.mpr ?_⟩
    exact (Statement.along_append.mpr ⟨respected.mpr calm, respects_of_counts count⟩).front first

namespace Numbered

/-- Books are numbered by a trigger. -/
def counters : Counters where
  sequences n := n == "BOOK_SQ"
  triggers n := if n = "BOOK_PK" then some ⟨⟨"\"BOOK\""⟩, ⟨"\"ID\""⟩⟩ else none

def registry : Registry := ⟨⟨counters, counters⟩, []⟩

def relabelling : Alteration := ⟨⟨"book", [], [], [], []⟩, .autoKey "id", .autoKey "book_id"⟩

/-- The number gets another name, and the books are no longer numbered. -/
def retiring : Alteration := { relabelling with new := { Field.ofType "book_id" .integer with primaryKey := true } }

def sentFor (a : Alteration) : List Statement := ofRegistry.sent (ofRegistry.recording.alterField a (startOf registry)).2

theorem relabelling_isOk : (ofRegistry.recording.alterField relabelling (startOf registry)).1.isOk = true := by decide +kernel

end Numbered

theorem alterField_trigger_book :
    (ofRegistry.collects = false → ofRegistry.cursor.Reflects Registry.standing) ∧
      Numbered.relabelling.old.type.isAuto = true ∧ Numbered.relabelling.Traceable ∧
      (Sequence.ofTable ofRegistry.engine Numbered.relabelling.table).trigger.denoted? = some "BOOK_PK" ∧
      Numbered.counters.triggers "BOOK_PK" = some (Numbered.relabelling.oldPlace ofRegistry.engine) ∧
      Along countersAfter (Respects "BOOK_PK") Numbered.counters (Numbered.sentFor Numbered.relabelling) ∧
      ((Numbered.sentFor Numbered.relabelling).foldl countersAfter Numbered.counters).triggers "BOOK_PK" =
        some ⟨⟨"\"BOOK\""⟩, ⟨"\"BOOK_ID\""⟩⟩ := by
  have auto : Numbered.relabelling.old.type.isAuto = true := rfl
  have traceable : Numbered.relabelling.Traceable := by decide +kernel
  have stored : (Sequence.ofTable ofRegistry.engine Numbered.relabelling.table).trigger.denoted? = some "BOOK_PK" := by
    decide +kernel
  have there : Numbered.counters.triggers "BOOK_PK" = some (Numbered.relabelling.oldPlace ofRegistry.engine) := by
    decide +kernel
  have ends := alterField_trigger_iff ofRegistry_reflects auto traceable stored there fun _ =>
    startOf_shows (r := Numbered.registry) rfl
  obtain ⟨-, ss, beyond, respected, placed⟩ := ends.of_isOk Numbered.relabelling_isOk
  refine ⟨ofRegistry_reflects, auto, traceable, stored, there, ?_⟩
  rw [Numbered.sentFor, beyond]
  exact ⟨respected.mpr (.inl rfl), (placed.mpr (.inl rfl)).trans (by decide +kernel)⟩

/-- The number of a book is renamed while the trigger still fills it, and only then is the trigger dropped. -/
theorem alterField_renames_under_trigger :
    (ofRegistry.recording.alterField Numbered.retiring (startOf Numbered.registry)).1.isOk = true ∧
      Numbered.retiring.old.type.isAuto = true ∧ Numbered.retiring.Traceable ∧
      Numbered.counters.triggers "BOOK_PK" = some (Numbered.retiring.oldPlace ofRegistry.engine) ∧
      ¬Along countersAfter (Respects "BOOK_PK") Numbered.counters (Numbered.sentFor Numbered.retiring) := by
  decide +kernel

end FirebirdSql.Editor
