import FirebirdSql.Proofs.Alteration.ColumnState
import FirebirdSql.Proofs.Editor.Sent

/-!
What an altered column comes to. Whatever else is sent between the statements that change the column, they take it to
what the new field declares. Along the way a default is dropped only where there is one, unless it was to stay and went
with a column that was rebuilt.
-/

namespace FirebirdSql.Editor

open Action (Ends)
open Statement (Along stateAfter weighty)

/-- Every default that is dropped is there when its turn comes. -/
def FindsDefaults (ed : Editor σ) (a : Alteration) (ss : List Statement) : Prop :=
  Along (stateAfter (a.tableIdentifier ed.engine)) (fun t s => s.FindsDefault (a.tableIdentifier ed.engine) t)
    (a.initially ed.engine ed.options) ss

instance (ed : Editor σ) (a : Alteration) (ss : List Statement) : Decidable (ed.FindsDefaults a ss) :=
  inferInstanceAs (Decidable (Along ..))

variable {ed : Editor σ} {a : Alteration}

theorem findsDefaults_weighty {ss : List Statement} : ed.FindsDefaults a ss ↔ ed.FindsDefaults a (weighty ss) :=
  Statement.along_weighty
    (fun _ aside _ => Statement.stateAfter_of_keepsRows (Statement.keepsRows_of_isAside aside))
    fun _ aside _ => Statement.findsDefault_of_keepsRows (Statement.keepsRows_of_isAside aside)

theorem findsDefaults_columnStatements (traceable : a.Traceable) {cs : List Statement}
    (count : ∀ s ∈ cs, s.counts = true) :
    ed.FindsDefaults a (a.columnStatements ed.engine ed.options ++ cs) ↔ a.losesDefault ed.engine ed.options = false := by
  rw [FindsDefaults, Statement.along_append, Alteration.columnStatements_find_iff traceable]
  refine and_iff_left (Statement.along_of_forall fun s hs t => ?_)
  exact Statement.findsDefault_of_keepsRows (Statement.keepsRows_of_counts (count s hs))

/-- Altering a field takes its column, under the new name, to the type, the nullability and the default that the new
field declares. If defaults are not to stay it has none in the end. -/
theorem alterField_reaches (ed : Editor σ) {a : Alteration} (traceable : a.Traceable)
    (number : ∀ n, a.new.default = some (.float n) → n.isNaN = false) (x : State (Noted σ Statement)) :
    Ends
      (fun _ y => ∃ ss column, ed.sent y = ed.sent x ++ ss ∧
        ss.foldl (stateAfter (a.tableIdentifier ed.engine)) (a.initially ed.engine ed.options) =
          [(Identifier.quote ed.engine a.new.column, column)] ∧
        column.type = a.new.type.definition ed.engine ∧ column.nullable = a.new.isNullable ∧
        Option.Rel (fun v w => v.same w = true) column.default
          (if ed.options.keepDbDefaults then a.new.default else none))
      (fun _ _ => True) (ed.recording.alterField a x) := by
  refine (alterField_sends ed a x).mono (fun _ y h => ?_) fun _ _ _ => trivial
  obtain ⟨cs, count, ss, beyond, weigh⟩ := h
  let column : ColumnState :=
    ⟨a.new.type.definition ed.engine, a.new.isNullable, a.defaultAfter ed.engine ed.options⟩
  refine ⟨ss, column, beyond, ?_, rfl, rfl, Alteration.defaultAfter_same number⟩
  have still (s : Statement) (aside : s.isAside = true) (t : TableState) :
      s.stateAfter (a.tableIdentifier ed.engine) t = t :=
    Statement.stateAfter_of_keepsRows (Statement.keepsRows_of_isAside aside)
  have counting (s : Statement) (hs : s ∈ cs) (t : TableState) : s.stateAfter (a.tableIdentifier ed.engine) t = t :=
    Statement.stateAfter_of_keepsRows (Statement.keepsRows_of_counts (count s hs))
  rw [Statement.foldl_weighty still, weigh, List.foldl_append, Alteration.columnStatements_state traceable,
    Statement.foldl_still counting]
  rfl

/-- Altering a field drops a default only where there is one, just if no default that is to stay goes with a column that
is rebuilt. -/
theorem alterField_finds_defaults_iff (ed : Editor σ) {a : Alteration} (traceable : a.Traceable)
    (x : State (Noted σ Statement)) :
    Ends
      (fun _ y => ∃ ss, ed.sent y = ed.sent x ++ ss ∧
        (ed.FindsDefaults a ss ↔ a.losesDefault ed.engine ed.options = false))
      (fun _ y => ∃ ss, ed.sent y = ed.sent x ++ ss ∧
        (a.losesDefault ed.engine ed.options = false → ed.FindsDefaults a ss))
      (ed.recording.alterField a x) := by
  refine (alterField_sends ed a x).mono (fun _ y h => ?_) fun _ y h => ?_
  · obtain ⟨cs, count, ss, beyond, weigh⟩ := h
    refine ⟨ss, beyond, findsDefaults_weighty.trans ?_⟩
    rw [weigh]
    exact findsDefaults_columnStatements traceable count
  · obtain ⟨cs, part, count, first, ss, beyond, rfl⟩ := h
    refine ⟨ss, beyond, fun stays => findsDefaults_weighty.mpr ?_⟩
    exact ((findsDefaults_columnStatements traceable count).mpr stays).front first

namespace Sample

def keeper : Editor Unit := { editor with options := { Options.standard with keepDbDefaults := true } }

/-- A text that has a default becomes short enough for a column of characters, and goes without the default. -/
def shortening : Alteration where
  model := ⟨"page", [], [], [], []⟩
  old := { Field.ofType "text" .text with null := true, default := some (.text "?") }
  new := { Field.ofType "text" (.char 200) with null := true }

theorem kept_isOk : (keeper.recording.alterField alteration start).1.isOk = true := by decide +kernel

end Sample

/-- The note of a page, renamed and moved to a column for texts, has to be there and keeps its default. -/
theorem alterField_reaches_page :
    Sample.alteration.Traceable ∧ (∀ n, Sample.alteration.new.default = some (.float n) → n.isNaN = false) ∧
      ∃ ss column, Sample.keeper.sent (Sample.keeper.recording.alterField Sample.alteration Sample.start).2 = ss ∧
        ss.foldl (stateAfter ⟨"\"PAGE\""⟩) [(⟨"\"NOTE\""⟩, ⟨"VARCHAR(10)", true, none⟩)] =
          [(⟨"\"TEXT\""⟩, column)] ∧
        column.type = "BLOB SUB_TYPE 1" ∧ column.nullable = false ∧
        Option.Rel (fun v w => v.same w = true) column.default (some (.text "?")) := by
  have traceable : Sample.alteration.Traceable := by decide +kernel
  have number : ∀ n, Sample.alteration.new.default = some (.float n) → n.isNaN = false := by
    rintro n ⟨⟩
  have ends := alterField_reaches Sample.keeper traceable number Sample.start
  obtain ⟨-, ss, column, beyond, reached, type, nullable, default⟩ := ends.of_isOk Sample.kept_isOk
  have first : Sample.alteration.initially Sample.keeper.engine Sample.keeper.options =
      [(⟨"\"NOTE\""⟩, ⟨"VARCHAR(10)", true, none⟩)] := by decide +kernel
  have table : Sample.alteration.tableIdentifier Sample.keeper.engine = ⟨"\"PAGE\""⟩ := by decide +kernel
  have name : Identifier.quote Sample.keeper.engine Sample.alteration.new.column = ⟨"\"TEXT\""⟩ := by decide +kernel
  rw [first, table, name] at reached
  exact ⟨traceable, number, ss, column, beyond, reached, type.trans (by decide +kernel), nullable, default⟩

/-- The default by which the rows without a note are filled is dropped again. -/
theorem alterField_finds_defaults_page :
    let all := Sample.editor.sent (Sample.editor.recording.alterField Sample.alteration Sample.start).2
    Sample.alteration.Traceable ∧ .dropDefault ⟨"\"PAGE\""⟩ ⟨"\"TEXT\""⟩ ∈ all ∧
      Sample.editor.FindsDefaults Sample.alteration all := by
  have traceable : Sample.alteration.Traceable := by decide +kernel
  have ends := alterField_finds_defaults_iff Sample.editor traceable Sample.start
  obtain ⟨-, ss, beyond, finds⟩ := ends.of_isOk Sample.altered_isOk
  refine ⟨traceable, by decide +kernel, ?_⟩
  rw [beyond]
  exact finds.mpr (by decide +kernel)

/-- The default that a text had is dropped once more after it went with the column. -/
theorem alterField_drops_lost_default :
    let all := Sample.keeper.sent (Sample.keeper.recording.alterField Sample.shortening Sample.start).2
    Sample.shortening.Traceable ∧ (Sample.keeper.recording.alterField Sample.shortening Sample.start).1.isOk = true ∧
      ¬Sample.keeper.FindsDefaults Sample.shortening all := by
  decide +kernel

end FirebirdSql.Editor
