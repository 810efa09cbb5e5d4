import FirebirdSql.Conversion
import FirebirdSql.Proofs.LiteralReading

/-!
A time is bound and written out as the same instant. Either way it is cut to tenths of a millisecond: of the nanoseconds as
they are for binding, and of what is left over from a whole second for the literal, which carries the second of a leap
second over.
-/

namespace FirebirdSql

namespace Text

theorem readDigits_zeros (count : Nat) (s : List Char) : readDigits 0 (List.replicate count '0' ++ s) = readDigits 0 s := by
  induction count with
  | zero => rfl
  | succ count ih => exact ih

theorem readNat?_paddedDigits (width n : Nat) : readNat? (paddedDigits width n) = some n := by
  have some : paddedDigits width n ≠ [] := List.append_ne_nil_of_right_ne_nil _ (digits_ne_nil n)
  rw [readNat?, if_neg (by simpa using some), paddedDigits, readDigits_zeros, readDigits_digits]

theorem paddedDigits_inj {width m n : Nat} : paddedDigits width m = paddedDigits width n ↔ m = n := by
  constructor
  · intro same
    have read := readNat?_paddedDigits width m
    rw [same, readNat?_paddedDigits] at read
    exact (Option.some.inj read).symm
  · rintro rfl
    rfl

theorem notMem_paddedDigits (width n : Nat) {c : Char} (hc : digitValue? c = none) : c ∉ paddedDigits width n :=
  notMem_of_readNat? (readNat?_paddedDigits width n) hc

theorem cons_ne_paddedDigits_append (width n : Nat) {c : Char} {s : List Char} (t : List Char) (hc : digitValue? c = none) :
    c :: s ≠ paddedDigits width n ++ t := by
  cases h : paddedDigits width n with
  | nil => exact absurd h (List.append_ne_nil_of_right_ne_nil _ (digits_ne_nil n))
  | cons d digits =>
    intro same
    obtain rfl := (List.cons.inj same).1
    exact notMem_paddedDigits width n hc (h ▸ List.mem_cons_self)

/-- What comes before the first `c` and what comes after it are parts of the text. -/
theorem append_cons_inj {c : Char} {s t u v : List Char} (hs : c ∉ s) (ht : c ∉ t) :
    s ++ c :: u = t ++ c :: v ↔ s = t ∧ u = v := by
  constructor
  · intro same
    have parts := congrArg (splitAt c) same
    rw [splitAt_append hs, splitAt_append ht] at parts
    obtain rfl := (List.cons.inj parts).1
    exact ⟨rfl, (List.cons.inj (List.append_cancel_left same)).2⟩
  · rintro ⟨rfl, rfl⟩
    rfl

/-- Padded digits up to a character that is no digit. -/
theorem paddedDigits_append_inj {width m n : Nat} {c : Char} {u v : List Char} (hc : digitValue? c = none) :
    paddedDigits width m ++ c :: u = paddedDigits width n ++ c :: v ↔ m = n ∧ u = v := by
  rw [append_cons_inj (notMem_paddedDigits width m hc) (notMem_paddedDigits width n hc), paddedDigits_inj]

/-- The same with maybe a sign before them. -/
theorem signed_append_inj {width m n : Nat} {a b : Option Char} {c : Char} {u v : List Char}
    (ha : a.all (digitValue? · = none)) (hb : b.all (digitValue? · = none)) (hc : digitValue? c = none) :
    a.toList ++ (paddedDigits width m ++ c :: u) = b.toList ++ (paddedDigits width n ++ c :: v) ↔ a = b ∧ m = n ∧ u = v := by
  have plain : paddedDigits width m ++ c :: u = paddedDigits width n ++ c :: v ↔ m = n ∧ u = v := paddedDigits_append_inj hc
  cases a with
  | none =>
    cases b with
    | none => simpa using plain
    | some b => simpa using (cons_ne_paddedDigits_append width m _ (by simpa using hb)).symm
  | some a =>
    cases b with
    | none => simpa using cons_ne_paddedDigits_append width n _ (by simpa using ha)
    | some b => simpa using fun _ => plain

end Text

theorem Literal.quoteText_inj {s t : List Char} : quoteText s = quoteText t ↔ s = t := by
  constructor
  · intro same
    have read (s : List Char) : readText? (quoteText s ++ []) = some (s, []) := readText?_quoteText.mpr (by simp)
    have both := read s
    rw [same, read t] at both
    exact (congrArg Prod.fst (Option.some.inj both)).symm
  · rintro rfl
    rfl

namespace Date

def yearSign (year : Int) : Option Char := if 0 ≤ year ∧ year ≤ 9999 then none else some (if year < 0 then '-' else '+')

theorem yearText_eq (year : Int) : yearText year = (yearSign year).toList ++ Text.paddedDigits 4 year.natAbs := by
  unfold yearText yearSign
  by_cases fits : 0 ≤ year ∧ year ≤ 9999
  · have abs : year.toNat = year.natAbs := by omega
    rw [if_pos fits, if_pos fits, abs]
    rfl
  · rw [if_neg fits, if_neg fits]
    rfl

theorem yearSign_eq_minus_iff {year : Int} : yearSign year = some '-' ↔ year < 0 := by
  unfold yearSign
  by_cases fits : 0 ≤ year ∧ year ≤ 9999
  · simp [fits]
  · rw [if_neg fits]
    by_cases negative : year < 0 <;> simp [negative]

theorem yearSign_all (year : Int) : (yearSign year).all (Text.digitValue? · = none) := by
  unfold yearSign
  split
  · rfl
  · split <;> rfl

/-- The date is read off what it stands before. -/
theorem chars_append_inj {d d' : Date} {u v : List Char} : d.chars ++ ' ' :: u = d'.chars ++ ' ' :: v ↔ d = d' ∧ u = v := by
  have dash : Text.digitValue? '-' = none := rfl
  have blank : Text.digitValue? ' ' = none := rfl
  simp only [chars, yearText_eq, List.append_assoc, List.cons_append,
    Text.signed_append_inj (yearSign_all d.year) (yearSign_all d'.year) dash, Text.paddedDigits_append_inj dash,
    Text.paddedDigits_append_inj blank]
  constructor
  · rintro ⟨sign, abs, month, day, rest⟩
    have negative : yearSign d.year = some '-' ↔ d.year < 0 := yearSign_eq_minus_iff
    rw [sign, yearSign_eq_minus_iff] at negative
    have year : d.year = d'.year := by omega
    cases d
    cases d'
    simp_all
  · rintro ⟨rfl, rfl⟩
    simp

end Date

namespace TimeOfDay

/-- Both stand for the same time of the day, though one of them may count a leap second's nanoseconds on from the second
before. -/
def Coincides (t u : TimeOfDay) : Prop :=
  t.hour = u.hour ∧ t.minute = u.minute ∧
    t.second * 1000000000 + t.nanosecond = u.second * 1000000000 + u.nanosecond

/-- One is the other up to less than a tenth of a millisecond that is cut off. -/
structure CutOf (u t : TimeOfDay) : Prop where
  hour : u.hour = t.hour
  minute : u.minute = t.minute
  second : u.second = t.second
  whole : 100000 ∣ u.nanosecond
  below : u.nanosecond ≤ t.nanosecond
  near : t.nanosecond < u.nanosecond + 100000

theorem cutOf_truncate (t : TimeOfDay) : t.truncate.CutOf t where
  hour := rfl
  minute := rfl
  second := rfl
  whole := Nat.dvd_mul_left _ _
  below := Nat.div_mul_le_self _ _
  near := by
    change t.nanosecond < t.nanosecond / 100000 * 100000 + 100000
    omega

/-- There is only one whole time that it can be cut to. -/
theorem CutOf.eq_truncate {t u : TimeOfDay} (h : u.CutOf t) : u = t.truncate := by
  obtain ⟨hour, minute, second, ⟨k, whole⟩, below, near⟩ := h
  have nanosecond : u.nanosecond = t.nanosecond / 100000 * 100000 := by omega
  cases u
  simp_all [truncate]

theorem truncate_truncate (t : TimeOfDay) : t.truncate.truncate = t.truncate := by
  refine (CutOf.eq_truncate ⟨rfl, rfl, rfl, t.cutOf_truncate.whole, Nat.le_refl _, ?_⟩).symm
  omega

theorem Coincides.refl (t : TimeOfDay) : t.Coincides t := ⟨rfl, rfl, rfl⟩

end TimeOfDay

namespace Literal

variable {t u : TimeOfDay}

/-- Seconds, and their fraction with its leading zeros. -/
theorem seconds_inj {width a b : Nat} :
    Text.paddedDigits width a ++ fraction t = Text.paddedDigits width b ++ fraction u ↔
      a = b ∧ t.nanosecond % 1000000000 / 100000 = u.nanosecond % 1000000000 / 100000 := by
  have point : Text.digitValue? '.' = none := rfl
  have noPoint (n : Nat) := Text.notMem_paddedDigits width n point
  have pointed (n : Nat) (s : List Char) : '.' ∈ Text.paddedDigits width n ++ '.' :: s :=
    List.mem_append_right _ List.mem_cons_self
  unfold fraction
  generalize t.nanosecond % 1000000000 / 100000 = m
  generalize u.nanosecond % 1000000000 / 100000 = n
  dsimp only
  by_cases hm : m = 0
  · by_cases hn : n = 0
    · simp [hm, hn, Text.paddedDigits_inj]
    · rw [if_pos hm, if_neg hn, List.append_nil]
      refine iff_of_false (fun same => noPoint a (same ▸ pointed b _)) ?_
      omega
  · by_cases hn : n = 0
    · rw [if_neg hm, if_pos hn, List.append_nil]
      refine iff_of_false (fun same => noPoint b (same ▸ pointed a _)) ?_
      omega
    · rw [if_neg hm, if_neg hn, Text.paddedDigits_append_inj point, Text.paddedDigits_inj]

theorem timeChars_inj : timeChars t = timeChars u ↔ t.truncate.Coincides u.truncate := by
  have colon : Text.digitValue? ':' = none := rfl
  simp only [timeChars, TimeOfDay.clockChars, List.append_assoc, List.cons_append, Text.paddedDigits_append_inj colon,
    seconds_inj, TimeOfDay.Coincides, TimeOfDay.truncate]
  -- The second of a leap second is carried before the fraction is cut, and not after.
  omega

theorem chars_time_inj {b : Bool} : chars ⟨.time t, b⟩ = chars ⟨.time u, b⟩ ↔ timeChars t = timeChars u := quoteText_inj

theorem chars_timestamp_inj {b : Bool} {t u : Timestamp} :
    chars ⟨.timestamp t, b⟩ = chars ⟨.timestamp u, b⟩ ↔ t.date = u.date ∧ timeChars t.time = timeChars u.time :=
  quoteText_inj.trans Date.chars_append_inj

end Literal

namespace Value

theorem literal_inj (e : Engine) {v w : Value} :
    v.literal e = w.literal e ↔ (Literal.ofValue e v).chars = (Literal.ofValue e w).chars := String.ofList_inj

theorem literal_time_inj (e : Engine) {t u : TimeOfDay} :
    (Value.time t).literal e = (Value.time u).literal e ↔ t.truncate.Coincides u.truncate :=
  (literal_inj e).trans (Literal.chars_time_inj.trans Literal.timeChars_inj)

theorem literal_timestamp_inj (e : Engine) {t u : Timestamp} :
    (Value.timestamp t).literal e = (Value.timestamp u).literal e ↔
      t.date = u.date ∧ t.time.truncate.Coincides u.time.truncate := by
  rw [literal_inj, Literal.ofValue, Literal.ofValue, Literal.chars_timestamp_inj, Literal.timeChars_inj]

/-- A bound time of day or timestamp is the given one up to less than a tenth of a millisecond, is bound as it is, and has
the same literal. Two of them have the same literal if and only if they are bound as the same instant. -/
theorem bound_as_written (e : Engine) :
    (∀ t : TimeOfDay, ∃ u, ofTime t = .time u ∧ u.CutOf t ∧ ofTime u = .time u ∧
      (Value.time u).literal e = (Value.time t).literal e) ∧
    (∀ t : Timestamp, ∃ u, ofTimestamp t = .timestamp u ∧ u.date = t.date ∧ u.time.CutOf t.time ∧
      ofTimestamp u = .timestamp u ∧ (Value.timestamp u).literal e = (Value.timestamp t).literal e) ∧
    (∀ t u : TimeOfDay, (Value.time t).literal e = (Value.time u).literal e ↔ t.truncate.Coincides u.truncate) ∧
    ∀ t u : Timestamp, (Value.timestamp t).literal e = (Value.timestamp u).literal e ↔
      t.date = u.date ∧ t.truncate.time.Coincides u.truncate.time := by
  refine ⟨fun t => ?_, fun t => ?_, fun t u => literal_time_inj e, fun t u => literal_timestamp_inj e⟩
  · have again : t.truncate.truncate = t.truncate := t.truncate_truncate
    refine ⟨t.truncate, rfl, t.cutOf_truncate, congrArg Value.time again, ?_⟩
    rw [literal_time_inj, again]
    exact .refl _
  · have again : t.time.truncate.truncate = t.time.truncate := t.time.truncate_truncate
    refine ⟨t.truncate, rfl, rfl, t.time.cutOf_truncate, ?_, ?_⟩
    · exact congrArg (fun time => Value.timestamp ⟨t.date, time⟩) again
    · rw [literal_timestamp_inj, Timestamp.truncate, again]
      exact ⟨rfl, .refl _⟩

/-- A leap second, cut after its carry to the sixtieth second or before. -/
example : ((Value.time ⟨23, 59, 59, 1000349999⟩).literal ⟨⟨3, 0, 0, 0⟩⟩).toList = "'23:59:60.0003'".toList ∧
    ofTime ⟨23, 59, 59, 1000349999⟩ = .time ⟨23, 59, 59, 1000300000⟩ := by decide +kernel

end Value

end FirebirdSql
