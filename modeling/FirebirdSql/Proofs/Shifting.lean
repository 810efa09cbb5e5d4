import Mathlib.Tactic.Ring
import FirebirdSql.Temporal.Interval

/-!
Durations split into days, seconds and microseconds, and shifts by the greatest of these. The split is exact for every
duration whose microseconds have 64 signed bits, but for the least number of these bits: its magnitude has none. A shift
counts the unit that the duration reaches, towards zero.
-/

namespace FirebirdSql

open Value (leastInt64 greatestInt64)

namespace Duration

instance : Neg Duration := ⟨fun d => ⟨-d.nanoseconds⟩⟩

theorem microseconds_neg (d : Duration) : (-d).microseconds = -d.microseconds := Int.neg_tdiv ..

end Duration

namespace Interval

variable {i : Interval} {total : Int} {d : Duration}

/-- The parts are those of so many microseconds. Apart from the sign none is negative, none reaches the next unit, and
together they make up the whole. -/
structure Splits (i : Interval) (total : Int) : Prop where
  sign : i.negative = true ↔ total < 0
  days_nonneg : 0 ≤ i.days
  seconds_nonneg : 0 ≤ i.seconds
  seconds_lt : i.seconds < 86400
  microseconds_nonneg : 0 ≤ i.microseconds
  microseconds_lt : i.microseconds < 1000000
  sum : i.days * 86400000000 + i.seconds * 1000000 + i.microseconds = total.natAbs

/-- A magnitude below two to the power of 63 is what it was. -/
theorem bmod_natAbs (below : leastInt64 < total) (above : total ≤ greatestInt64) :
    (total.natAbs : Int).bmod 0x10000000000000000 = total.natAbs := by
  unfold leastInt64 at below
  unfold greatestInt64 at above
  apply Int.bmod_eq_of_le
  · omega
  · omega

theorem ofDuration_splits (below : leastInt64 < d.microseconds) (above : d.microseconds ≤ greatestInt64) :
    ∃ i, ofDuration d = .ok i ∧ i.Splits d.microseconds := by
  have within : ¬(d.microseconds < leastInt64 ∨ greatestInt64 < d.microseconds) := by omega
  have magnitude := bmod_natAbs below above
  have nonneg : (0 : Int) ≤ d.microseconds.natAbs := Int.natCast_nonneg _
  refine ⟨_, if_neg within, ?_⟩
  generalize d.microseconds = total at magnitude nonneg
  have days : (total.natAbs : Int).tdiv 86400000000 = total.natAbs / 86400000000 := Int.tdiv_eq_ediv_of_nonneg nonneg
  have rest : (total.natAbs : Int).tmod 86400000000 = total.natAbs % 86400000000 := Int.tmod_eq_emod_of_nonneg nonneg
  have seconds : ((total.natAbs : Int) % 86400000000).tdiv 1000000 = total.natAbs % 86400000000 / 1000000 :=
    Int.tdiv_eq_ediv_of_nonneg (by omega)
  have microseconds : (total.natAbs : Int).tmod 1000000 = total.natAbs % 1000000 := Int.tmod_eq_emod_of_nonneg nonneg
  rw [magnitude, days, rest, seconds, microseconds]
  constructor
  · exact decide_eq_true_iff
  all_goals
    dsimp only
    omega

/-- The least number of 64 bits is its own magnitude in them, so that all parts have its sign. -/
theorem ofDuration_least (h : d.microseconds = leastInt64) :
    ofDuration d = .ok ⟨true, -106751991, -14454, -775808⟩ := by
  rw [ofDuration, h]
  rfl

/-- A duration whose whole microseconds have 64 signed bits is split, and the parts are its own unless the microseconds
are the least number of these bits. No other duration is split. -/
theorem ofDuration_splits_iff (d : Duration) :
    (leastInt64 ≤ d.microseconds ∧ d.microseconds ≤ greatestInt64 →
      ∃ i, ofDuration d = .ok i ∧ (i.Splits d.microseconds ↔ d.microseconds ≠ leastInt64)) ∧
    (¬(leastInt64 ≤ d.microseconds ∧ d.microseconds ≤ greatestInt64) →
      ofDuration d = .error (.conversion (.intervalOutOfRange d))) := by
  constructor
  · rintro ⟨least, greatest⟩
    by_cases same : d.microseconds = leastInt64
    · refine ⟨_, ofDuration_least same, fun splits => ?_, fun other => absurd same other⟩
      exact absurd splits.days_nonneg (by decide)
    · obtain ⟨i, split, splits⟩ := ofDuration_splits (by omega) greatest
      exact ⟨i, split, fun _ => same, fun _ => splits⟩
  · intro beyond
    exact if_pos (by omega)

/-- The nanoseconds that are left over count for nothing, at either end. -/
theorem ofDuration_splits_ends :
    (∃ i, ofDuration ⟨9223372036854775807999⟩ = .ok i ∧ i.Splits 9223372036854775807) ∧
      (∃ i, ofDuration ⟨-9223372036854775807999⟩ = .ok i ∧ i.Splits (-9223372036854775807)) ∧
      ofDuration ⟨9223372036854775808000⟩ = .error (.conversion (.intervalOutOfRange ⟨9223372036854775808000⟩)) := by
  obtain ⟨i, split, splits⟩ := (ofDuration_splits_iff ⟨9223372036854775807999⟩).1 (by decide)
  obtain ⟨j, split', splits'⟩ := (ofDuration_splits_iff ⟨-9223372036854775807999⟩).1 (by decide)
  exact ⟨⟨i, split, splits.mpr (by decide)⟩, ⟨j, split', splits'.mpr (by decide)⟩,
    (ofDuration_splits_iff ⟨9223372036854775808000⟩).2 (by decide)⟩

/-- A duration of just the least number of microseconds is split into parts that are all below zero. -/
theorem ofDuration_negates_least :
    let d : Duration := ⟨-9223372036854775808000⟩
    (leastInt64 ≤ d.microseconds ∧ d.microseconds ≤ greatestInt64) ∧
      ∃ i, ofDuration d = .ok i ∧ i.days < 0 ∧ i.seconds < 0 ∧ i.microseconds < 0 :=
  ⟨by decide, _, rfl, by decide, by decide, by decide⟩

/-! Shifts -/

/-- What shifts are counted in. -/
inductive Step where
  | day
  | second
  | millisecond
  deriving DecidableEq

namespace Step

def keyword : Step → String
  | day => "DAY"
  | second => "SECOND"
  | millisecond => "MILLISECOND"

def microseconds : Step → Int
  | day => 86400000000
  | second => 1000000
  | millisecond => 1000

/-- The greatest step that so many microseconds reach, a millisecond if they reach none. -/
def reached (total : Int) : Step :=
  if 86400000000 ≤ total.natAbs then day else if 1000000 ≤ total.natAbs then second else millisecond

theorem reached_neg (total : Int) : reached (-total) = reached total := by rw [reached, reached, Int.natAbs_neg]

end Step

/-- `f` moved on by so many steps. -/
def moved (count : Int) (step : Step) (f : Fragment) : Fragment :=
  Fragment.sql ("DATEADD(" ++ Text.intText count ++ " " ++ step.keyword ++ " TO ") ++ f ++ Fragment.sql ")"

/-- `f` moved on by so many microseconds, as far as whole steps go. -/
def shifted (total : Int) (f : Fragment) : Fragment :=
  if total = 0 then f else moved (total.tdiv (Step.reached total).microseconds) (Step.reached total) f

theorem Splits.isZero_iff (h : i.Splits total) : i.isZero = true ↔ total = 0 := by
  obtain ⟨-, _, _, _, _, _, _⟩ := h
  simp only [isZero, Bool.and_eq_true, beq_iff_eq]
  omega

/-- The greatest part that is not zero counts the step that is reached. -/
theorem Splits.leading_eq (h : i.Splits total) :
    i.leading = (total.natAbs / (Step.reached total).microseconds, (Step.reached total).keyword) := by
  obtain ⟨-, _, _, _, _, _, _⟩ := h
  unfold leading Step.reached
  by_cases days : i.days = 0
  · have below : ¬86400000000 ≤ total.natAbs := by omega
    rw [if_neg (not_not.mpr days), if_neg below]
    by_cases seconds : i.seconds = 0
    · have below' : ¬1000000 ≤ total.natAbs := by omega
      have count : i.microseconds.tdiv 1000 = total.natAbs / 1000 := by
        rw [Int.tdiv_eq_ediv_of_nonneg (by assumption)]
        omega
      rw [if_neg (not_not.mpr seconds), if_neg below', count]
      rfl
    · have reached : 1000000 ≤ total.natAbs := by omega
      have count : i.seconds = total.natAbs / 1000000 := by omega
      rw [if_pos seconds, if_pos reached, count]
      rfl
  · have reached : 86400000000 ≤ total.natAbs := by omega
    have count : i.days = total.natAbs / 86400000000 := by omega
    rw [if_pos days, if_pos reached, count]
    rfl

/-- Division towards zero divides the magnitude and keeps the sign. -/
theorem tdiv_microseconds (total : Int) (step : Step) : total.tdiv step.microseconds =
    total.natAbs / step.microseconds * (if total < 0 then -1 else 1) := by
  split
  · next negative =>
    have magnitude : (total.natAbs : Int) = -total := by omega
    rw [magnitude, ← Int.tdiv_eq_ediv_of_nonneg (by omega), Int.neg_tdiv, Int.neg_mul_neg, Int.mul_one]
  · next positive =>
    have magnitude : (total.natAbs : Int) = total := by omega
    rw [magnitude, ← Int.tdiv_eq_ediv_of_nonneg (by omega), Int.mul_one]

/-- The sign of the connector and that of the duration make one. -/
theorem Splits.amount_eq (h : i.Splits total) (step : Step) (sign : Int) :
    total.natAbs / step.microseconds * (if i.negative then -sign else sign) =
      sign * total.tdiv step.microseconds := by
  rw [tdiv_microseconds]
  by_cases negative : total < 0
  · rw [if_pos (h.sign.mpr negative), if_pos negative]
    ring
  · rw [if_neg fun same => negative (h.sign.mp same), if_neg negative]
    ring

theorem eq_of_sign? {connector : String} {sign : Int} (h : sign? connector = some sign) : sign = 1 ∨ sign = -1 := by
  unfold sign? at h
  split at h
  · exact .inl (Option.some.inj h).symm
  · exact .inr (Option.some.inj h).symm
  · cases h

theorem Splits.shift_eq {connector : String} {sign : Int} (h : i.Splits total) (split : ofDuration d = .ok i)
    (signed : sign? connector = some sign) (f : Fragment) : shift connector f d = .ok (shifted (sign * total) f) := by
  have run : shift connector f d = .ok (if i.isZero then f else
      Fragment.sql ("DATEADD(" ++ Text.intText (i.leading.1 * (if i.negative then -sign else sign)) ++ " " ++
        i.leading.2 ++ " TO ") ++ f ++ Fragment.sql ")") := by
    rw [shift, signed]
    dsimp only
    rw [split]
    exact (apply_ite Except.ok ..).symm
  rw [run, shifted]
  by_cases zero : total = 0
  · rw [if_pos (h.isZero_iff.mpr zero), zero, Int.mul_zero, if_pos rfl]
  · have turned : Step.reached (sign * total) = Step.reached total ∧
        (sign * total).tdiv (Step.reached total).microseconds = sign * total.tdiv (Step.reached total).microseconds ∧
        sign * total ≠ 0 := by
      rcases eq_of_sign? signed with rfl | rfl
      · simp [zero]
      · simp [zero, Step.reached_neg, Int.neg_tdiv]
    obtain ⟨reached, amount, nonzero⟩ := turned
    rw [if_neg (fun isZero => zero (h.isZero_iff.mp isZero)), if_neg nonzero, h.leading_eq, h.amount_eq, reached, amount]
    rfl

/-- A duration whose magnitude has 64 signed bits moves a date or time by the steps that it reaches, counted towards
zero, and by none if it has no microseconds. Taking it away is adding its opposite. -/
theorem shift_moves (f : Fragment) (d : Duration) (fits : d.microseconds.natAbs ≤ greatestInt64) :
    (d.microseconds = 0 → shift "+" f d = .ok f) ∧
      (d.microseconds ≠ 0 →
        let step := Step.reached d.microseconds
        shift "+" f d = .ok (moved (d.microseconds.tdiv step.microseconds) step f)) ∧
      shift "-" f d = shift "+" f (-d) := by
  have opposite := d.microseconds_neg
  have bound : leastInt64 < -greatestInt64 := by decide
  obtain ⟨i, split, splits⟩ := ofDuration_splits (d := d) (by omega) (by omega)
  obtain ⟨j, split', splits'⟩ := ofDuration_splits (d := -d) (by omega) (by omega)
  have added : shift "+" f d = .ok (shifted (1 * d.microseconds) f) := splits.shift_eq split rfl f
  have taken : shift "-" f d = .ok (shifted (-1 * d.microseconds) f) := splits.shift_eq split rfl f
  have addedOpposite : shift "+" f (-d) = .ok (shifted (1 * (-d).microseconds) f) := splits'.shift_eq split' rfl f
  rw [Int.one_mul] at added addedOpposite
  refine ⟨fun none => ?_, fun some => ?_, ?_⟩
  · rw [added, shifted, if_pos none]
  · rw [added, shifted, if_neg some]
  · rw [taken, addedOpposite, opposite, Int.neg_one_mul]

/-- Less than a millisecond moves by none, and a day and a half by one day. -/
theorem shift_moves_due :
    let f : Fragment := .sql "\"DUE\""
    shift "+" f ⟨999⟩ = .ok f ∧ shift "+" f ⟨-1000⟩ = .ok (.sql "DATEADD(0 MILLISECOND TO \"DUE\")") ∧
      shift "-" f ⟨129600000000000⟩ = .ok (.sql "DATEADD(-1 DAY TO \"DUE\")") := by
  intro f
  have zero : Text.intText 0 = "0" := by simp [Text.intText, Text.signedDigits, Text.digits, Text.digit]
  have minusOne : Text.intText (-1) = "-1" := by simp [Text.intText, Text.signedDigits, Text.digits, Text.digit]
  have none := (shift_moves f ⟨-1000⟩ (by decide)).2.1 (by decide)
  have day := (shift_moves f ⟨-129600000000000⟩ (by decide)).2.1 (by decide)
  change _ = Except.ok (moved 0 .millisecond f) at none
  change _ = Except.ok (moved (-1) .day f) at day
  rw [moved, zero] at none
  rw [moved, minusOne] at day
  exact ⟨(shift_moves f ⟨999⟩ (by decide)).1 (by decide), none, (shift_moves f ⟨129600000000000⟩ (by decide)).2.2.trans day⟩

end Interval

end FirebirdSql
