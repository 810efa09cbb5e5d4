import Mathlib.Data.List.TakeWhile
import Mathlib.Order.Basic
import FirebirdSql.Page

/-!
Pages of a query. Skipping rows and keeping the first of those that are left gives the rows between two marks, and the
clauses say just that. A statement gets them right after its `SELECT`; one that does not begin with that is refused.
-/

namespace FirebirdSql

/-- All rows if there is no bound. -/
def upTo {α : Type} (bound : Option Nat) (rows : List α) : List α :=
  match bound with
  | some n => rows.take n
  | none => rows

namespace Page

/-- After blanks the statement begins with `SELECT`, in any case. A blank follows, and the rest begins with it. -/
def Selects (statement rest : List Char) : Prop :=
  ∃ blanks word, statement = blanks ++ (word ++ rest) ∧ (∀ c ∈ blanks, Text.isBlank c = true) ∧
    Text.sameAsciiLetters word "SELECT".toList = true ∧ rest.head?.any Text.isBlank = true

/-- No blank is in the word, so it begins where the blanks before it end. -/
theorem trimStart_word {blanks word rest : List Char} (before : ∀ c ∈ blanks, Text.isBlank c = true)
    (letters : word.map Char.toLower = "select".toList) : Text.trimStart (blanks ++ (word ++ rest)) = word ++ rest := by
  obtain ⟨c, word, rfl, first, -⟩ := List.map_eq_cons_iff.mp letters
  have letter : Text.isBlank c = false := by
    rw [Bool.eq_false_iff]
    intro blank
    rw [Text.toLower_of_isBlank blank] at first
    subst first
    revert blank
    decide
  rw [Text.trimStart, List.dropWhile_append_of_pos before]
  exact Text.trimStart_of_head letter

theorem afterSelect?_eq_some_iff {statement rest : List Char} :
    afterSelect? statement = some rest ↔ Selects statement rest := by
  constructor
  · intro h
    unfold afterSelect? at h
    dsimp only at h
    split at h
    · next selects =>
      obtain ⟨letters, blank⟩ := Bool.and_eq_true_iff.mp selects
      obtain rfl := Option.some.inj h
      refine ⟨statement.takeWhile Text.isBlank, (Text.trimStart statement).take 6, ?_, ?_, letters, blank⟩
      · rw [List.take_append_drop]
        exact List.takeWhile_append_dropWhile.symm
      · exact fun c hc => List.mem_takeWhile_imp hc
    · cases h
  · rintro ⟨blanks, word, rfl, before, letters, blank⟩
    have same : word.map Char.toLower = "select".toList := (beq_iff_eq.mp letters).trans (by decide)
    have length : word.length = 6 := by simpa using congrArg List.length same
    rw [afterSelect?, trimStart_word before same, List.take_left' length, List.drop_left' length, letters, blank]
    rfl

/-! What the clauses keep -/

/-- The clauses for the rows that are kept and for those that are skipped before. -/
def written (first skip : Option Nat) : List String :=
  (first.map fun n => "FIRST " ++ Text.natText n).toList ++ (skip.map fun n => "SKIP " ++ Text.natText n).toList

def skipped (low : Nat) : Option Nat := if 0 < low then some low else none

def kept (low : Nat) (high noLimit : Option Nat) : Option Nat :=
  match high with
  | some n => some (n - low)
  | none => if 0 < low then noLimit else none

variable (low : Nat) (high noLimit : Option Nat)

theorem clauses_ofMarks : (ofMarks low high).clauses noLimit = written (kept low high noLimit) (skipped low) := by
  unfold clauses ofMarks written kept skipped
  cases high <;> by_cases h : 0 < low <;> simp [h]

theorem getD_skipped : (skipped low).getD 0 = low := by
  unfold skipped
  split
  · rfl
  · next h => exact (Nat.eq_zero_of_not_pos h).symm

theorem isSome_kept : (kept low high noLimit).isSome ↔ high.isSome ∨ 0 < low ∧ noLimit.isSome := by
  unfold kept
  cases high <;> by_cases h : 0 < low <;> simp [h]

variable {high noLimit}

/-- The bound that is written where there is none must not cut off rows. -/
theorem upTo_kept {α : Type} {rows : List α} (enough : ∀ n ∈ noLimit, rows.length ≤ n) :
    upTo (kept low high noLimit) (rows.drop low) = (upTo high rows).drop low := by
  cases high with
  | some n => exact List.drop_take.symm
  | none =>
    change upTo (if 0 < low then noLimit else none) (rows.drop low) = rows.drop low
    split
    · cases noLimit with
      | none => rfl
      | some n =>
        have fewer : (rows.drop low).length ≤ rows.length := List.length_drop.trans_le (Nat.sub_le ..)
        exact List.take_of_length_le (fewer.trans (enough n rfl))
    · rfl

/-- A statement that begins with `SELECT` is restricted to the rows from `low` on and before `high`: the clauses say how
many rows to keep, and how many to skip before. Another statement has no page. -/
theorem apply_selects (low : Nat) (high noLimit : Option Nat) (f : Fragment) :
    (∀ rest, Selects f.template.toList rest → ∃ first skip : Option Nat,
      (ofMarks low high).apply noLimit f = .ok (
          if first = none ∧ skip = none then f
          else ⟨"SELECT " ++ Text.joined " " (written first skip) ++ " " ++ .ofList (Text.trim rest), f.params⟩) ∧
        skip = (if 0 < low then some low else none) ∧
        (first.isSome ↔ high.isSome ∨ 0 < low ∧ noLimit.isSome) ∧
        ∀ {α : Type} (rows : List α), (∀ n ∈ noLimit, rows.length ≤ n) →
          upTo first (rows.drop (skip.getD 0)) = (upTo high rows).drop low) ∧
      ((¬∃ rest, Selects f.template.toList rest) →
        ∀ (p : Page) (noLimit : Option Nat), p.apply noLimit f = .error (.notSupported .pageOfOtherStatement)) := by
  refine ⟨fun rest selects => ?_, fun other p noLimit => ?_⟩
  · refine ⟨kept low high noLimit, skipped low, ?_, rfl, isSome_kept low high noLimit, fun rows enough => ?_⟩
    · rw [apply, afterSelect?_eq_some_iff.mpr selects, clauses_ofMarks]
      generalize kept low high noLimit = first
      generalize skipped low = skip
      cases first <;> cases skip <;> rfl
    · rw [getD_skipped]
      exact upTo_kept low enough
  · have none : afterSelect? f.template.toList = none :=
      Option.eq_none_iff_forall_ne_some.mpr fun rest h => other ⟨rest, afterSelect?_eq_some_iff.mp h⟩
    rw [apply, none]

/-- Without an upper mark three rows are enough to keep. The word may be in small letters, and any blanks around it. -/
theorem apply_selects_wide :
    let f : Fragment := ⟨"\n sElect\u00a0\"É\" FROM \"T\" ", [.int 7]⟩
    (∃ first : Option Nat,
      (ofMarks 1 none).apply (some 3) f =
          .ok ⟨"SELECT " ++ Text.joined " " (written first (some 1)) ++ " " ++ "\"É\" FROM \"T\"", [.int 7]⟩ ∧
        first.isSome ∧ upTo first ([10, 20, 30].drop 1) = [20, 30]) ∧
      (ofMarks 1 none).apply (some 3) (.sql "SELECTED") = .error (.notSupported .pageOfOtherStatement) := by
  intro f
  have selects : Selects f.template.toList "\u00a0\"É\" FROM \"T\" ".toList :=
    afterSelect?_eq_some_iff.mp (by decide +kernel)
  have trimmed : String.ofList (Text.trim "\u00a0\"É\" FROM \"T\" ".toList) = "\"É\" FROM \"T\"" := by decide +kernel
  have other : ¬∃ rest, Selects (Fragment.sql "SELECTED").template.toList rest := by
    rintro ⟨rest, h⟩
    have none : afterSelect? (Fragment.sql "SELECTED").template.toList = none := by decide +kernel
    exact absurd (none.symm.trans (afterSelect?_eq_some_iff.mpr h)) nofun
  obtain ⟨first, skip, applied, rfl, present, rows⟩ := (apply_selects 1 none (some 3) f).1 _ selects
  refine ⟨⟨first, ?_, present.mpr (.inr ⟨Nat.one_pos, rfl⟩), rows [10, 20, 30] ?_⟩, ?_⟩
  · rw [if_neg (fun h => nomatch h.2), trimmed] at applied
    exact applied
  · rintro _ ⟨⟩
    exact Nat.le_refl 3
  · exact (apply_selects 1 none (some 3) (.sql "SELECTED")).2 other _ _

end Page

end FirebirdSql
