import FirebirdSql.Calendar
import Mathlib.Data.Prod.Lex
import Mathlib.Order.Nat
import Mathlib.Order.Monotone.Basic

/-!
The order of dates and times, and the days counted one after another. The next date has the next number, so that going
back whole days is subtraction, and a week day is the remainder of the number.
-/

namespace FirebirdSql

namespace Date

variable {d d' : Date}

/-! Order -/

/-- Year, month and day, in this order. -/
def key (d : Date) : Int ×ₗ Nat ×ₗ Nat := toLex (d.year, toLex (d.month, d.day))

theorem key_injective : Function.Injective key := by
  rintro ⟨y, m, n⟩ ⟨y', m', n'⟩ h
  simpa [key] using h

instance : LinearOrder Date := LinearOrder.lift' key key_injective

theorem lt_iff : d < d' ↔
    d.year < d'.year ∨ d.year = d'.year ∧ (d.month < d'.month ∨ d.month = d'.month ∧ d.day < d'.day) := by
  change key d < key d' ↔ _
  rw [key, key, Prod.Lex.toLex_lt_toLex, Prod.Lex.toLex_lt_toLex]

theorem le_iff : d ≤ d' ↔
    d.year < d'.year ∨ d.year = d'.year ∧ (d.month < d'.month ∨ d.month = d'.month ∧ d.day ≤ d'.day) := by
  change key d ≤ key d' ↔ _
  rw [key, key, Prod.Lex.toLex_le_toLex, Prod.Lex.toLex_le_toLex]

/-! Days -/

theorem isLeapYear_iff (year : Int) : isLeapYear year = true ↔ year % 4 = 0 ∧ (year % 100 ≠ 0 ∨ year % 400 = 0) := by
  simp [isLeapYear]

/-- The days between the first of the year 1 and the first of another year. -/
def daysBeforeYear (year : Int) : Int := 365 * (year - 1) + (year - 1) / 4 - (year - 1) / 100 + (year - 1) / 400

/-- The days of a year that come before a month. -/
def daysBeforeMonth (year : Int) : Nat → Nat
  | 0 | 1 => 0
  | month + 2 => daysBeforeMonth year (month + 1) + daysInMonth year (month + 1)

/-- The number of a date; the first day of the year 1 has the number one. -/
def dayNumber (d : Date) : Int := daysBeforeYear d.year + daysBeforeMonth d.year d.month + d.day

theorem daysBeforeMonth_succ (year : Int) {month : Nat} (h : 1 ≤ month) :
    daysBeforeMonth year (month + 1) = daysBeforeMonth year month + daysInMonth year month := by
  obtain ⟨month, rfl⟩ := Nat.exists_eq_add_of_le' h
  rfl

theorem daysBeforeMonth_mono (year : Int) : Monotone (daysBeforeMonth year) := by
  refine monotone_nat_of_le_succ fun month => ?_
  cases month with
  | zero => exact Nat.le_refl 0
  | succ month => exact Nat.le_add_right ..

/-- The year after a year begins when its months are over. -/
theorem daysBeforeYear_succ (year : Int) : daysBeforeYear (year + 1) = daysBeforeYear year + daysBeforeMonth year 13 := by
  have leap := isLeapYear_iff year
  have months : daysBeforeMonth year 13 = 31 + daysInMonth year 2 + 306 := rfl
  have february : daysInMonth year 2 = if isLeapYear year then 29 else 28 := rfl
  rw [months, february]
  unfold daysBeforeYear
  split
  · next h =>
    have := leap.mp h
    omega
  · next h =>
    have := mt leap.mpr h
    omega

theorem daysBeforeYear_mono {year year' : Int} (h : year ≤ year') : daysBeforeYear year ≤ daysBeforeYear year' := by
  unfold daysBeforeYear
  omega

theorem dayNumber_bounds (h : d.Valid) :
    daysBeforeYear d.year < d.dayNumber ∧ d.dayNumber ≤ daysBeforeYear (d.year + 1) := by
  obtain ⟨first, last, some, fits⟩ := h
  have months : daysBeforeMonth d.year (d.month + 1) ≤ daysBeforeMonth d.year 13 :=
    daysBeforeMonth_mono d.year (Nat.succ_le_succ last)
  rw [daysBeforeMonth_succ d.year first] at months
  rw [daysBeforeYear_succ]
  unfold dayNumber
  omega

/-- A later date has a greater number. -/
theorem dayNumber_lt (h : d.Valid) (h' : d'.Valid) (lt : d < d') : d.dayNumber < d'.dayNumber := by
  rcases lt_iff.mp lt with year | ⟨year, month | ⟨month, day⟩⟩
  · have years := daysBeforeYear_mono (Int.add_one_le_of_lt year)
    have := (dayNumber_bounds h).2
    have := (dayNumber_bounds h').1
    omega
  · have months := daysBeforeMonth_mono d.year (Nat.succ_le_of_lt month)
    rw [Nat.succ_eq_add_one, daysBeforeMonth_succ d.year h.1] at months
    have := h.2.2.2
    have := h'.2.2.1
    unfold dayNumber
    rw [← year]
    omega
  · unfold dayNumber
    rw [← year, ← month]
    omega

theorem dayNumber_le_iff (h : d.Valid) (h' : d'.Valid) : d.dayNumber ≤ d'.dayNumber ↔ d ≤ d' := by
  constructor
  · intro le
    by_contra lt
    have := dayNumber_lt h' h (not_le.mp lt)
    omega
  · intro le
    rcases eq_or_lt_of_le le with rfl | lt
    · exact le_refl _
    · exact le_of_lt (dayNumber_lt h h' lt)

/-! The next and the previous day -/

theorem daysInMonth_bounds (year : Int) (month : Nat) : 28 ≤ daysInMonth year month ∧ daysInMonth year month ≤ 31 := by
  unfold daysInMonth
  split
  · split <;> decide
  · split <;> decide

theorem one_le_daysInMonth (year : Int) (month : Nat) : 1 ≤ daysInMonth year month :=
  le_trans (by decide) (daysInMonth_bounds year month).1

theorem next_spec (h : d.Valid) : d.next.Valid ∧ d.next.dayNumber = d.dayNumber + 1 := by
  obtain ⟨first, last, some, fits⟩ := h
  unfold next
  split
  · next inside =>
    refine ⟨⟨first, last, Nat.le_add_left .., inside⟩, ?_⟩
    simp only [dayNumber]
    omega
  · next full =>
    split
    · next month =>
      have days := daysBeforeMonth_succ d.year first
      refine ⟨⟨Nat.le_add_left .., month, le_refl 1, one_le_daysInMonth ..⟩, ?_⟩
      simp only [dayNumber]
      omega
    · next month =>
      have december : d.month = 12 := by omega
      have years := daysBeforeYear_succ d.year
      have days : daysBeforeMonth d.year 13 = daysBeforeMonth d.year 12 + daysInMonth d.year 12 := rfl
      have start : daysBeforeMonth (d.year + 1) 1 = 0 := rfl
      rw [december] at fits full
      refine ⟨⟨le_refl 1, Nat.le_add_left 1 11, le_refl 1, one_le_daysInMonth ..⟩, ?_⟩
      simp only [dayNumber, december]
      omega

theorem previous_spec (h : d.Valid) : d.previous.Valid ∧ d.previous.dayNumber = d.dayNumber + -1 := by
  obtain ⟨first, last, some, fits⟩ := h
  unfold previous
  split
  · next inside =>
    refine ⟨⟨first, last, Nat.le_sub_one_of_lt inside, le_trans (Nat.sub_le ..) fits⟩, ?_⟩
    simp only [dayNumber]
    omega
  · next start =>
    split
    · next month =>
      have days := daysBeforeMonth_succ d.year (Nat.le_sub_one_of_lt month)
      rw [Nat.sub_add_cancel first] at days
      refine ⟨⟨Nat.le_sub_one_of_lt month, le_trans (Nat.sub_le ..) last, one_le_daysInMonth .., le_refl _⟩, ?_⟩
      simp only [dayNumber]
      omega
    · next month =>
      have january : d.month = 1 := by omega
      have years := daysBeforeYear_succ (d.year - 1)
      have days : daysBeforeMonth (d.year - 1) 13 = daysBeforeMonth (d.year - 1) 12 + 31 := rfl
      have start : daysBeforeMonth d.year 1 = 0 := rfl
      rw [Int.sub_add_cancel] at years
      refine ⟨⟨Nat.le_add_left 1 11, le_refl 12, Nat.le_add_left 1 30, le_refl 31⟩, ?_⟩
      simp only [dayNumber, january]
      omega

/-! Going on and back -/

/-- The date some days later, or earlier if the number is negative. -/
def shift (days : Int) (d : Date) : Date :=
  match days with
  | .ofNat n => next^[n] d
  | .negSucc n => previous^[n + 1] d

theorem iterate_spec {step : Date → Date} {k : Int}
    (spec : ∀ {d : Date}, d.Valid → (step d).Valid ∧ (step d).dayNumber = d.dayNumber + k) (n : Nat) (h : d.Valid) :
    (step^[n] d).Valid ∧ (step^[n] d).dayNumber = d.dayNumber + n * k := by
  induction n generalizing d with
  | zero => exact ⟨h, by simp⟩
  | succ n ih =>
    obtain ⟨valid, number⟩ := ih (spec h).1
    refine ⟨valid, ?_⟩
    rw [Function.iterate_succ_apply, number, (spec h).2, Int.natCast_succ, Int.add_mul]
    omega

theorem shift_spec (h : d.Valid) (days : Int) : (d.shift days).Valid ∧ (d.shift days).dayNumber = d.dayNumber + days := by
  cases days with
  | ofNat n =>
    obtain ⟨valid, number⟩ := iterate_spec next_spec n h
    exact ⟨valid, by rwa [Int.mul_one] at number⟩
  | negSucc n =>
    obtain ⟨valid, number⟩ := iterate_spec previous_spec (n + 1) h
    refine ⟨valid, number.trans ?_⟩
    rw [Int.negSucc_eq]
    omega

/-! Weeks -/

/-- The day of the week; Sunday is zero. -/
def weekday (d : Date) : Int := d.dayNumber % 7

example : weekday ⟨2024, 2, 29⟩ = 4 := by decide

/-- The Monday of the week. -/
def monday (d : Date) : Date := d.shift (-((d.weekday + 6) % 7))

theorem dayNumber_pos_iff (h : d.Valid) : 0 < d.dayNumber ↔ 0 < d.year := by
  have start : daysBeforeYear 1 = 0 := by decide
  have bounds := dayNumber_bounds h
  constructor
  · intro pos
    by_contra early
    have := daysBeforeYear_mono (show d.year + 1 ≤ 1 by omega)
    omega
  · intro pos
    have := daysBeforeYear_mono (show 1 ≤ d.year from pos)
    omega

theorem monday_spec (h : d.Valid) : d.monday.Valid ∧ d.monday.weekday = 1 ∧
    d.monday.dayNumber ≤ d.dayNumber ∧ d.dayNumber ≤ d.monday.dayNumber + 6 := by
  obtain ⟨valid, number⟩ := shift_spec h (-((d.weekday + 6) % 7))
  change d.monday.dayNumber = _ at number
  refine ⟨valid, ?_, ?_, ?_⟩
  · unfold weekday at number ⊢
    omega
  · omega
  · omega

/-- The first day of the calendar is a Monday, so a week does not begin before it. -/
theorem one_le_year_monday (h : d.Valid) (year : 1 ≤ d.year) : 1 ≤ d.monday.year := by
  obtain ⟨valid, monday, before, after⟩ := monday_spec h
  have pos := (dayNumber_pos_iff h).mpr year
  refine (dayNumber_pos_iff valid).mp ?_
  unfold weekday at monday
  omega

end Date

namespace TimeOfDay

variable {t t' : TimeOfDay}

/-- The time exists on every day. -/
def Valid (t : TimeOfDay) : Prop := t.hour < 24 ∧ t.minute < 60 ∧ t.second < 60 ∧ t.nanosecond < 1000000000

instance (t : TimeOfDay) : Decidable t.Valid := inferInstanceAs (Decidable (_ ∧ _ ∧ _ ∧ _))

def midnight : TimeOfDay := ⟨0, 0, 0, 0⟩

def key (t : TimeOfDay) : Nat ×ₗ Nat ×ₗ Nat ×ₗ Nat := toLex (t.hour, toLex (t.minute, toLex (t.second, t.nanosecond)))

theorem key_injective : Function.Injective key := by
  rintro ⟨h, m, s, n⟩ ⟨h', m', s', n'⟩ same
  simpa [key] using same

instance : LinearOrder TimeOfDay := LinearOrder.lift' key key_injective

theorem le_iff : t ≤ t' ↔ t.hour < t'.hour ∨ t.hour = t'.hour ∧ (t.minute < t'.minute ∨ t.minute = t'.minute ∧
    (t.second < t'.second ∨ t.second = t'.second ∧ t.nanosecond ≤ t'.nanosecond)) := by
  change key t ≤ key t' ↔ _
  rw [key, key, Prod.Lex.toLex_le_toLex, Prod.Lex.toLex_le_toLex, Prod.Lex.toLex_le_toLex]

theorem midnight_le (t : TimeOfDay) : midnight ≤ t := by
  rw [le_iff]
  simp only [midnight]
  omega

end TimeOfDay

namespace Timestamp

variable {t t' : Timestamp}

def Valid (t : Timestamp) : Prop := t.date.Valid ∧ t.time.Valid

instance (t : Timestamp) : Decidable t.Valid := inferInstanceAs (Decidable (_ ∧ _))

def key (t : Timestamp) : Date ×ₗ TimeOfDay := toLex (t.date, t.time)

theorem key_injective : Function.Injective key := by
  rintro ⟨d, t⟩ ⟨d', t'⟩ same
  simpa [key] using same

instance : LinearOrder Timestamp := LinearOrder.lift' key key_injective

theorem le_iff : t ≤ t' ↔ t.date < t'.date ∨ t.date = t'.date ∧ t.time ≤ t'.time := by
  change key t ≤ key t' ↔ _
  rw [key, key, Prod.Lex.toLex_le_toLex]

end Timestamp

end FirebirdSql
