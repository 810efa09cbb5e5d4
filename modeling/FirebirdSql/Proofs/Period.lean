import FirebirdSql.Proofs.Calendar
import FirebirdSql.Temporal.DatePart
import Mathlib.Order.Bounds.Basic

/-!
The periods of a part: where they begin, and that the start of the period a moment lies in is the last beginning that is
not after the moment.
-/

namespace FirebirdSql

open TimeOfDay (midnight)

namespace DatePart

variable {part : DatePart} {d w : Date} {t : TimeOfDay}

/-- A period of the part can begin on the date. -/
def BeginsOn (part : DatePart) (d : Date) : Prop :=
  match part with
  | .year => d.month = 1 ∧ d.day = 1
  | .quarter => d.month ∈ [1, 4, 7, 10] ∧ d.day = 1
  | .month => d.day = 1
  | .week => d.weekday = 1
  | .weekDay => False
  | .day | .hour | .minute | .second => True

/-- A period of the part can begin at the time. -/
def BeginsAt (part : DatePart) (t : TimeOfDay) : Prop :=
  match part with
  | .hour => t.minute = 0 ∧ t.second = 0 ∧ t.nanosecond = 0
  | .minute => t.second = 0 ∧ t.nanosecond = 0
  | .second => t.nanosecond = 0
  | _ => t = midnight

/-- A period of the part begins. -/
def Begins (part : DatePart) (t : Timestamp) : Prop := part.BeginsOn t.date ∧ part.BeginsAt t.time

/-- The date on which the period of a date begins. -/
def startDate (part : DatePart) (d : Date) : Date :=
  match part with
  | .year => ⟨d.year, 1, 1⟩
  | .quarter => ⟨d.year, (d.month - 1) / 3 * 3 + 1, 1⟩
  | .month => ⟨d.year, d.month, 1⟩
  | .week => d.monday
  | _ => d

/-- The time at which the period of a time begins. -/
def startTime (part : DatePart) (t : TimeOfDay) : TimeOfDay :=
  match part with
  | .hour => ⟨t.hour, 0, 0, 0⟩
  | .minute => ⟨t.hour, t.minute, 0, 0⟩
  | .second => ⟨t.hour, t.minute, t.second, 0⟩
  | _ => midnight

def start (part : DatePart) (t : Timestamp) : Timestamp := ⟨part.startDate t.date, part.startTime t.time⟩

theorem start_of_mem_days (h : part ∈ [.year, .quarter, .month, .week, .day]) (t : Timestamp) :
    part.start t = ⟨part.startDate t.date, midnight⟩ := by
  cases part with
  | year | quarter | month | week | day => rfl
  | _ => exact absurd h (by decide)

theorem start_of_mem_clock (h : part ∈ [.hour, .minute, .second]) (t : Timestamp) :
    part.start t = ⟨t.date, part.startTime t.time⟩ := by
  cases part with
  | hour | minute | second => rfl
  | _ => exact absurd h (by decide)

/-- The first day of a month is the last first day that is not after a day of the month. -/
theorem isGreatest_first {m : Nat} {begins : Date → Prop} (h : d.Valid) (some : 1 ≤ m) (before : m ≤ d.month)
    (here : begins ⟨d.year, m, 1⟩) (first : ∀ w, w.Valid → begins w → w.day = 1 ∧ (w.month ≤ d.month → w.month ≤ m)) :
    IsGreatest {w | w.Valid ∧ begins w ∧ w ≤ d} ⟨d.year, m, 1⟩ := by
  refine ⟨⟨⟨some, le_trans before h.2.1, le_refl 1, Date.one_le_daysInMonth ..⟩, here, ?_⟩, ?_⟩
  · have := h.2.2.1
    rw [Date.le_iff]
    simp only [true_and]
    omega
  · rintro w ⟨valid, starts, le⟩
    obtain ⟨day, month⟩ := first w valid starts
    rw [Date.le_iff] at le ⊢
    simp only
    omega

theorem isGreatest_startDate (h : d.Valid) (hp : part ≠ .weekDay) :
    IsGreatest {w | w.Valid ∧ part.BeginsOn w ∧ w ≤ d} (part.startDate d) := by
  have month := h.1
  cases part with
  | weekDay => exact absurd rfl hp
  | year => exact isGreatest_first h (le_refl 1) month ⟨rfl, rfl⟩ fun w _ begins => ⟨begins.2, fun _ => le_of_eq begins.1⟩
  | quarter =>
    have last := h.2.1
    have months : (d.month - 1) / 3 * 3 + 1 ∈ [1, 4, 7, 10] := by
      simp only [List.mem_cons, List.not_mem_nil, or_false]
      omega
    refine isGreatest_first h (Nat.le_add_left ..) (by omega) ⟨months, rfl⟩ fun w _ begins => ⟨begins.2, fun le => ?_⟩
    have quarters := begins.1
    simp only [List.mem_cons, List.not_mem_nil, or_false] at quarters
    omega
  | month => exact isGreatest_first h month (le_refl _) rfl fun w _ begins => ⟨begins, id⟩
  | week =>
    obtain ⟨valid, monday, before, after⟩ := Date.monday_spec h
    refine ⟨⟨valid, monday, (Date.dayNumber_le_iff valid h).mp before⟩, ?_⟩
    rintro w ⟨validw, mondayw, le⟩
    have lew := (Date.dayNumber_le_iff validw h).mpr le
    refine (Date.dayNumber_le_iff validw valid).mp ?_
    change Date.weekday _ = 1 at mondayw
    unfold Date.weekday at monday mondayw
    omega
  | _ => exact ⟨⟨h, trivial, le_refl d⟩, fun w hw => hw.2.2⟩

theorem isGreatest_startTime (part : DatePart) (h : t.Valid) :
    IsGreatest {w | w.Valid ∧ part.BeginsAt w ∧ w ≤ t} (part.startTime t) := by
  obtain ⟨hour, minute, second, nanosecond⟩ := h
  have zero : 0 < 60 ∧ 0 < 1000000000 := by decide
  cases part with
  | hour =>
    refine ⟨⟨⟨hour, zero.1, zero.1, zero.2⟩, ⟨rfl, rfl, rfl⟩, ?_⟩, ?_⟩
    · rw [TimeOfDay.le_iff]
      simp only [startTime, true_and]
      omega
    · rintro w ⟨_, ⟨minute, second, nanosecond⟩, le⟩
      rw [TimeOfDay.le_iff] at le ⊢
      simp only [startTime]
      omega
  | minute =>
    refine ⟨⟨⟨hour, minute, zero.1, zero.2⟩, ⟨rfl, rfl⟩, ?_⟩, ?_⟩
    · rw [TimeOfDay.le_iff]
      simp only [startTime, true_and]
      omega
    · rintro w ⟨_, ⟨second, nanosecond⟩, le⟩
      rw [TimeOfDay.le_iff] at le ⊢
      simp only [startTime]
      omega
  | second =>
    refine ⟨⟨⟨hour, minute, second, zero.2⟩, rfl, ?_⟩, ?_⟩
    · rw [TimeOfDay.le_iff]
      simp only [startTime, true_and]
      omega
    · rintro w ⟨_, begins, le⟩
      change w.nanosecond = 0 at begins
      rw [TimeOfDay.le_iff] at le ⊢
      simp only [startTime]
      omega
  | _ =>
    have valid : midnight.Valid := by decide
    exact ⟨⟨valid, rfl, TimeOfDay.midnight_le t⟩, fun w hw => le_of_eq hw.2.1⟩

/-- A part of whole days begins at midnight, and a smaller one on every day. -/
theorem midnight_or_daily (part : DatePart) (hp : part ≠ .weekDay) :
    (∀ t, part.BeginsAt t → t = midnight) ∨ ∀ d, part.startDate d = d := by
  cases part with
  | weekDay => exact absurd rfl hp
  | year | quarter | month | week | day => exact .inl fun _ => id
  | hour | minute | second => exact .inr fun _ => rfl

theorem isGreatest_start {t : Timestamp} (h : t.Valid) (hp : part ≠ .weekDay) :
    IsGreatest {w | w.Valid ∧ part.Begins w ∧ w ≤ t} (part.start t) := by
  obtain ⟨⟨validDate, beginsOn, dateLe⟩, greatestDate⟩ := isGreatest_startDate h.1 hp
  obtain ⟨⟨validTime, beginsAt, timeLe⟩, greatestTime⟩ := isGreatest_startTime part h.2
  refine ⟨⟨⟨validDate, validTime⟩, ⟨beginsOn, beginsAt⟩, ?_⟩, ?_⟩
  · exact Timestamp.le_iff.mpr ((lt_or_eq_of_le dateLe).imp_right fun same => ⟨same, timeLe⟩)
  · rintro w ⟨⟨validw, validw'⟩, ⟨beginsw, beginsw'⟩, le⟩
    have dates : w.date ≤ t.date := by
      rcases Timestamp.le_iff.mp le with lt | ⟨same, -⟩
      · exact le_of_lt lt
      · exact le_of_eq same
    -- On an earlier date every time is earlier; on the same date the times decide, or are midnight.
    rcases lt_or_eq_of_le (greatestDate ⟨validw, beginsw, dates⟩) with lt | same
    · exact Timestamp.le_iff.mpr (.inl lt)
    · refine Timestamp.le_iff.mpr (.inr ⟨same, ?_⟩)
      rcases midnight_or_daily part hp with atMidnight | daily
      · exact (atMidnight _ beginsw').symm ▸ TimeOfDay.midnight_le _
      · rcases Timestamp.le_iff.mp le with lt | ⟨-, timew⟩
        · exact absurd (same.trans (daily t.date)) (ne_of_lt lt)
        · exact greatestTime ⟨validw', beginsw', timew⟩

/-- A period does not begin before the first year. -/
theorem year_startDate (part : DatePart) (h : d.Valid) (first : 1 ≤ d.year) :
    1 ≤ (part.startDate d).year ∧ (part.startDate d).year ≤ d.year := by
  cases part with
  | week =>
    obtain ⟨valid, -, before, -⟩ := Date.monday_spec h
    have le := Date.le_iff.mp ((Date.dayNumber_le_iff valid h).mp before)
    refine ⟨Date.one_le_year_monday h first, ?_⟩
    change d.monday.year ≤ d.year
    omega
  | _ => exact ⟨first, le_refl _⟩

end DatePart

end FirebirdSql
