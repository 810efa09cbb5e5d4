import FirebirdSql.Proofs.Alteration.ColumnState
import FirebirdSql.Proofs.Counters

/-!
The trigger of a column that counts, while the column is altered. A column that goes on counting has its trigger made anew
around a new name. One that stops to count is renamed, or rebuilt, under its trigger.
-/

namespace FirebirdSql.Alteration

open Statement (Along Respects countersAfter)

variable {a : Alteration} {e : Engine} {o : Options} {k : Counters} {n : String}

/-- The place that the trigger of a column has to fill after the alteration. -/
def place (a : Alteration) (e : Engine) : Place := ⟨a.tableIdentifier e, a.columnIdentifier e⟩

def oldPlace (a : Alteration) (e : Engine) : Place := ⟨a.tableIdentifier e, Identifier.quote e a.old.column⟩

theorem rebuilds_of_isAuto (old : a.old.type.isAuto = true) (new : a.new.type.isAuto = true) : a.rebuilds e = false := by
  have whole {t : ColumnType} (h : t.isAuto = true) : t.isBlob = false := by cases t <;> first | rfl | cases h
  rw [rebuilds, whole old, whole new, Bool.or_self, Bool.and_false]

/-- The trigger is dropped before the column is renamed, if it is made anew. -/
theorem renameStatements_respect (traceable : a.Traceable)
    (stored : (Sequence.ofTable e a.table).trigger.denoted? = some n) (there : k.triggers n = some (a.oldPlace e))
    (calm : a.renames = false ∨ a.keepsCounting = true) :
    Along countersAfter (Respects n) k (a.renameStatements e) ∧
      ((a.renameStatements e).foldl countersAfter k).triggers n = some (a.place e) := by
  unfold renameStatements
  cases renamed : a.renames with
  | false =>
    refine ⟨trivial, there.trans ?_⟩
    rw [oldPlace, traceable.quote_eq renamed]
    rfl
  | true =>
    have keeps := calm.resolve_left (by rw [renamed]; exact Bool.noConfusion)
    simp only [keeps, Bool.not_true, Bool.false_eq_true, if_false, if_true, List.cons_append, List.nil_append]
    refine ⟨⟨?_, ?_, ?_, trivial⟩, ?_⟩
    · rintro p ⟨⟩
    · rintro p -
      rw [Statement.dropTrigger_triggers stored]
      exact nofun
    · rintro p ⟨⟩
    · rw [List.foldl_cons, List.foldl_cons, List.foldl_cons, List.foldl_nil, Statement.createTrigger_triggers stored]
      rfl

theorem retypeStatements_counters (k : Counters) : (a.retypeStatements e).foldl countersAfter k = k := by
  unfold retypeStatements
  cases a.rebuilds e <;> cases a.changesType e <;> rfl

theorem retypeStatements_respect_iff (there : k.triggers n = some (a.place e)) :
    Along countersAfter (Respects n) k (a.retypeStatements e) ↔ a.rebuilds e = false := by
  unfold retypeStatements
  cases rebuilt : a.rebuilds e with
  | true =>
    refine iff_of_false ?_ Bool.noConfusion
    rintro ⟨-, -, dropped, -⟩
    exact dropped _ rfl there
  | false =>
    refine iff_of_true ?_ rfl
    cases a.changesType e with
    | true => exact ⟨by rintro p ⟨⟩, trivial⟩
    | false => trivial

/-- What comes after the column has its type neither moves it nor touches what counts. -/
theorem settlingStatements_still :
    ∀ s ∈ a.defaultStatements e o ++ a.nullabilityStatements e ++ a.clearStatements e o,
      s.movedColumn? = none ∧ ∀ k, s.countersAfter k = k := by
  simp only [List.forall_mem_append]
  refine ⟨⟨?_, ?_⟩, ?_⟩
  · exact forall_defaultStatements (fun _ _ => ⟨rfl, fun _ => rfl⟩) fun _ _ => ⟨rfl, fun _ => rfl⟩
  · exact forall_nullabilityStatements (fun _ _ => ⟨rfl, fun _ => rfl⟩) fun _ _ => ⟨rfl, fun _ => rfl⟩
  · exact forall_clearStatements fun _ => ⟨rfl, fun _ => rfl⟩

theorem columnStatements_eq : a.columnStatements e o = a.renameStatements e ++ (a.retypeStatements e ++
    (a.defaultStatements e o ++ a.nullabilityStatements e ++ a.clearStatements e o)) := by
  simp only [columnStatements, List.append_assoc]

theorem columnStatements_counters (k : Counters) :
    (a.columnStatements e o).foldl countersAfter k = (a.renameStatements e).foldl countersAfter k := by
  rw [columnStatements_eq, List.foldl_append, List.foldl_append, retypeStatements_counters,
    Statement.foldl_still fun s hs => (settlingStatements_still s hs).2]

/-- Without a trigger that is made anew nothing changes of what counts. -/
theorem columnStatements_counters_of_stops (stops : a.keepsCounting = false) (k : Counters) :
    (a.columnStatements e o).foldl countersAfter k = k := by
  rw [columnStatements_counters, renameStatements, stops]
  cases a.renames <;> rfl

/-- The column of the trigger is neither renamed nor dropped under it, just if it goes on counting, or keeps its name and
is not rebuilt. -/
theorem columnStatements_respect_iff (auto : a.old.type.isAuto = true) (traceable : a.Traceable)
    (stored : (Sequence.ofTable e a.table).trigger.denoted? = some n) (there : k.triggers n = some (a.oldPlace e)) :
    Along countersAfter (Respects n) k (a.columnStatements e o) ↔
      a.new.type.isAuto = true ∨ a.renames = false ∧ a.rebuilds e = false := by
  have counting : a.keepsCounting = a.new.type.isAuto := by rw [keepsCounting, auto, Bool.true_and]
  by_cases calm : a.renames = false ∨ a.keepsCounting = true
  · obtain ⟨respected, placed⟩ := renameStatements_respect traceable stored there calm
    have settling : Along countersAfter (Respects n) ((a.retypeStatements e).foldl countersAfter
        ((a.renameStatements e).foldl countersAfter k))
        (a.defaultStatements e o ++ a.nullabilityStatements e ++ a.clearStatements e o) := by
      refine Statement.along_of_forall fun s hs k p moved => ?_
      rw [(settlingStatements_still s hs).1] at moved
      cases moved
    rw [columnStatements_eq, Statement.along_append, Statement.along_append, and_iff_right respected,
      and_iff_left settling, retypeStatements_respect_iff placed]
    constructor
    · intro stays
      exact calm.elim (fun renamed => .inr ⟨renamed, stays⟩) fun keeps => .inl (counting.symm.trans keeps)
    · exact fun h => h.elim (rebuilds_of_isAuto auto) And.right
  · -- The column is renamed while its trigger, which is not made anew, still refers to it.
    rw [not_or, Bool.not_eq_false, Bool.not_eq_true] at calm
    obtain ⟨renamed, stops⟩ := calm
    refine iff_of_false (fun respected => ?_) ?_
    · rw [columnStatements_eq, Statement.along_append, renameStatements, renamed, stops] at respected
      exact respected.1.1 _ rfl there
    · rw [← counting, stops, renamed]
      simp

theorem columnStatements_trigger (auto : a.old.type.isAuto = true) (traceable : a.Traceable)
    (stored : (Sequence.ofTable e a.table).trigger.denoted? = some n) (there : k.triggers n = some (a.oldPlace e)) :
    ((a.columnStatements e o).foldl countersAfter k).triggers n =
      some (if a.new.type.isAuto then a.place e else a.oldPlace e) := by
  have counting : a.keepsCounting = a.new.type.isAuto := by rw [keepsCounting, auto, Bool.true_and]
  cases next : a.new.type.isAuto with
  | true =>
    rw [columnStatements_counters]
    exact (renameStatements_respect traceable stored there (.inr (counting.trans next))).2
  | false =>
    rw [columnStatements_counters_of_stops (counting.trans next)]
    exact there

end FirebirdSql.Alteration
