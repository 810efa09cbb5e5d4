import FirebirdSql.Proofs.Formula.Evaluation
import FirebirdSql.Proofs.Period
import FirebirdSql.Temporal.Truncate

/-!
Truncations as the engine computes them: the text that is put together is that of the start of the period, and casting it
back gives the start itself.
-/

namespace FirebirdSql

open Formula (Spells)
open Fragment (Denotes)
open TimeOfDay (midnight)

namespace Truncation

variable {row : List Char → Option Datum} {f : Fragment} {x : Datum} {X : Formula} {d : Date} {t : TimeOfDay}
  {part : DatePart} {e : Scalar Fragment}

/-- What an expression around the operand comes to, where the formula stands for the operand. -/
def computed? (row : List Char → Option Datum) (X : Formula) (e : Scalar Fragment) : Option Datum :=
  (e.formula fun _ => X).value (Datum.meaning row)

/-- The expression is written with single words, and grouped as it is meant; it holds together at level `k`. -/
structure Sound (X : Formula) (k : Nat) (e : Scalar Fragment) : Prop where
  legible : e.Legible fun _ => X
  grouped : (e.formula fun _ => X).Grouped
  level : k ≤ (e.formula fun _ => X).level

namespace Sound

variable {k : Nat} {a b l r : Scalar Fragment}

theorem eval? (h : Sound X k e) : e.render.eval? row = computed? row X e := by
  rw [Fragment.eval?, (Scalar.spells_render h.legible).read?, Formula.regroup_of_grouped h.grouped]
  rfl

theorem text (s : String) : Sound X 5 (.text s) := ⟨trivial, trivial, Nat.le_refl 5⟩

theorem number (n : Nat) : Sound X 5 (.number n) := ⟨trivial, trivial, Nat.le_refl 5⟩

theorem binary (op : BinaryOp) (hl : Sound X op.operator.level l) (hr : Sound X (op.operator.level + 1) r) :
    Sound X op.operator.level (.binary op l r) :=
  ⟨⟨hl.legible, hr.legible⟩, ⟨hl.level, hr.level, hl.grouped, hr.grouped⟩, Nat.le_refl _⟩

theorem group (h : Sound X k e) : Sound X 5 (.group e) := ⟨h.legible, h.grouped, Nat.le_refl 5⟩

theorem negative (h : Sound X 4 e) : Sound X 4 (.negative e) := ⟨h.legible, ⟨h.level, h.grouped⟩, Nat.le_refl 4⟩

theorem call {function : String} (name : Scalar.IsName function) (h : Sound X k e) : Sound X 5 (.call function e) :=
  ⟨⟨name, h.legible⟩, h.grouped, Nat.le_refl 5⟩

theorem call₂ {function : String} (name : Scalar.IsName function) (ha : Sound X k a) (hb : Sound X 1 b) :
    Sound X 5 (.call₂ function a b) :=
  ⟨⟨name, ha.legible, hb.legible⟩, ⟨Nat.zero_le _, hb.level, ha.grouped, hb.grouped⟩, Nat.le_refl 5⟩

theorem extract {field : String} (name : Scalar.IsName field) (h : Sound X 1 e) : Sound X 5 (.extract field e) :=
  ⟨⟨name, h.legible⟩, ⟨Nat.zero_le _, h.level, trivial, h.grouped⟩, Nat.le_refl 5⟩

theorem cast (type : String) (name : Scalar.IsName type) (h : Sound X k e) : Sound X 5 (.cast e type) :=
  ⟨⟨name, h.legible⟩, ⟨Nat.zero_le _, Nat.zero_lt_succ 4, h.grouped, trivial⟩, Nat.le_refl 5⟩

theorem dateAdd {unit : String} (name : Scalar.IsName unit) (ha : Sound X k a) (hb : Sound X 1 b) :
    Sound X 5 (.dateAdd a unit b) :=
  ⟨⟨name, ha.legible, hb.legible⟩, ⟨Nat.zero_le _, hb.level, ha.grouped, hb.grouped⟩, Nat.le_refl 5⟩

theorem mono {j : Nat} (h : Sound X k e) (le : j ≤ k) : Sound X j e := ⟨h.legible, h.grouped, le_trans le h.level⟩

theorem chain (spaced : Bool) {rest : List (Scalar Fragment)} (h : Sound X 3 e) (hr : ∀ r ∈ rest, Sound X 5 r) :
    Sound X 3 (Truncation.chain spaced e rest) := by
  unfold Truncation.chain
  induction rest generalizing e with
  | nil => exact h
  | cons r rest ih =>
    obtain ⟨first, others⟩ := List.forall_mem_cons.mp hr
    exact ih (.binary (.concat spaced) h (first.mono (Nat.le_succ 4))) others

end Sound

/-! What truncations are made of -/

section

variable (operand : Sound X 1 (.operand f))
include operand

theorem sound_field {name : String} (named : Scalar.IsName name) : Sound X 5 (field name f) := .extract named operand

theorem sound_quarterMonth : Sound X 5 (quarterMonth f) := by
  have month : Sound X 5 (field "month" f) := sound_field operand (by decide)
  have less : Sound X 1 (.binary .sub (field "month" f) (.number 1)) :=
    .binary .sub (month.mono (by decide)) ((Sound.number 1).mono (by decide))
  have third : Sound X 2 (.binary .div (.group (.binary .sub (field "month" f) (.number 1))) (.number 3)) :=
    .binary .div (less.group.mono (by decide)) ((Sound.number 3).mono (by decide))
  have times : Sound X 2 (.binary .mul (.group _) (.number 3)) :=
    .binary .mul (third.group.mono (by decide)) ((Sound.number 3).mono (by decide))
  exact (Sound.binary .add (times.mono (by decide)) ((Sound.number 1).mono (by decide))).group

theorem sound_monday : Sound X 5 (monday f) := by
  have weekday : Sound X 5 (field "WEEKDAY" f) := sound_field operand (by decide)
  have more : Sound X 1 (.binary .add (field "WEEKDAY" f) (.number 6)) :=
    .binary .add (weekday.mono (by decide)) ((Sound.number 6).mono (by decide))
  have back : Sound X 5 (.call₂ "MOD" (.binary .add (field "WEEKDAY" f) (.number 6)) (.number 7)) :=
    .call₂ (by decide) more ((Sound.number 7).mono (by decide))
  exact .dateAdd (by decide) (back.mono (by decide)).negative ((operand.cast "DATE" (by decide)).mono (by decide))

theorem sound_dayText {after : String} (h : dayText? part after f = some e) : Sound X 3 e := by
  have year : Sound X 3 (field "year" f) := (sound_field operand (by decide)).mono (by decide)
  have month : Sound X 5 (field "month" f) := sound_field operand (by decide)
  have day : Sound X 5 (field "day" f) := sound_field operand (by decide)
  cases part with
  | year =>
    cases h
    exact year.chain false (List.forall_mem_singleton.mpr (.text _))
  | quarter =>
    cases h
    exact year.chain false (by simp [Sound.text, sound_quarterMonth operand])
  | month =>
    cases h
    exact year.chain false (by simp [Sound.text, month])
  | day =>
    cases h
    exact year.chain false (by simp [Sound.text, month, day])
  | week =>
    cases h
    exact (sound_monday operand).mono (by decide)
  | _ => cases h

theorem sound_clockTexts {clock : List (Scalar Fragment)} (h : clockTexts? part f = some clock) :
    ∀ e ∈ clock, Sound X 5 e := by
  have hour : Sound X 5 (field "hour" f) := sound_field operand (by decide)
  have minute : Sound X 5 (field "minute" f) := sound_field operand (by decide)
  have second : Sound X 5 (wholeSeconds f) := .call (by decide) (sound_field operand (by decide))
  cases part with
  | hour | minute | second =>
    cases h
    simp [Sound.text, hour, minute, second]
  | _ => cases h

/-- A date with the texts of a clock after it. -/
theorem sound_dated {clock : List (Scalar Fragment)} (h : ∀ e ∈ clock, Sound X 5 e) :
    Sound X 3 (chain false (field "year" f)
      ([.text "-", field "month" f, .text "-", field "day" f, .text " "] ++ clock)) := by
  have year : Sound X 3 (field "year" f) := (sound_field operand (by decide)).mono (by decide)
  have month : Sound X 5 (field "month" f) := sound_field operand (by decide)
  have day : Sound X 5 (field "day" f) := sound_field operand (by decide)
  have date : ∀ e ∈ [.text "-", field "month" f, .text "-", field "day" f, .text " "], Sound X 5 e := by
    simp [Sound.text, month, day]
  exact year.chain false (List.forall_mem_append.mpr ⟨date, h⟩)

end

/-! Texts of dates and times -/

/-- A text that is read as a date, and stays so before a blank. -/
structure WritesDate (s : List Char) (d : Date) : Prop where
  reads : Text.readDate? s = some d
  unspaced : ' ' ∉ s

theorem writesDate {year : Int} {month day : List Char} {m n : Nat} (hm : Text.readNat? month = some m)
    (hn : Text.readNat? day = some n) (valid : Date.Valid ⟨year, m, n⟩) (early : 1 ≤ year) (late : year ≤ 9999) :
    WritesDate (Text.signedDigits year ++ '-' :: (month ++ '-' :: day)) ⟨year, m, n⟩ := by
  obtain ⟨y, rfl⟩ := Int.eq_ofNat_of_zero_le (le_trans Int.one_nonneg early)
  have hy := Text.readNat?_signedDigits y
  exact ⟨Text.readDate?_numerals hy hm hn valid (Int.ofNat_le.mp early) (Int.ofNat_le.mp late),
    Text.notMem_numerals hy hm hn rfl (by decide)⟩

/-- A text that is read as a time, and stays so after a blank. -/
structure WritesTime (s : List Char) (t : TimeOfDay) : Prop where
  reads : Text.readTime? s = some t
  unspaced : ' ' ∉ s

theorem writesTime {hour minute second : List Char} {h m n : Nat} (hh : Text.readNat? hour = some h)
    (hm : Text.readNat? minute = some m) (hn : Text.readNat? second = some n) (valid : TimeOfDay.Valid ⟨h, m, n, 0⟩) :
    WritesTime (hour ++ ':' :: (minute ++ ':' :: second)) ⟨h, m, n, 0⟩ :=
  ⟨Text.readTime?_numerals hh hm hn valid, Text.notMem_numerals hh hm hn rfl (by decide)⟩

theorem readTimestamp?_joined {s c : List Char} (hs : WritesDate s d) (hc : WritesTime c t) :
    Text.readTimestamp? (s ++ ' ' :: c) = some ⟨d, t⟩ := by
  rw [Text.readTimestamp?, Text.splitAt_append hs.unspaced, Text.splitAt_of_notMem hc.unspaced]
  simp [hs.reads, hc.reads]

/-! Values -/

/-- The expression comes to something that is joined with other texts as `s`. -/
def Tells (row : List Char → Option Datum) (X : Formula) (e : Scalar Fragment) (s : List Char) : Prop :=
  ∃ v, computed? row X e = some v ∧ v.text? = some s

theorem tells_text (s : String) : Tells row X (.text s) s.toList := ⟨.text s.toList, rfl, rfl⟩

theorem computed?_binary (op : BinaryOp) {l r : Scalar Fragment} {a b : Datum} (hl : computed? row X l = some a)
    (hr : computed? row X r = some b) : computed? row X (.binary op l r) = Datum.operation? op.operator a b := by
  change (computed? row X l).bind (fun a => (computed? row X r).bind fun b => _) = _
  rw [hl, hr]
  rfl

theorem computed?_concat (spaced : Bool) {r : Scalar Fragment} {s t : List Char} (he : Tells row X e s)
    (hr : Tells row X r t) :
    computed? row X (.binary (.concat spaced) e r) = some (.text (s ++ t)) := by
  obtain ⟨a, ha, sa⟩ := he
  obtain ⟨b, hb, sb⟩ := hr
  rw [computed?_binary _ ha hb]
  simp [Datum.operation?, BinaryOp.operator, sa, sb]

theorem computed?_cast {type : String} {v : Datum} (he : computed? row X e = some v) :
    computed? row X (.cast e type) = v.cast? type.toList := by
  change (Option.bind ((computed? row X e).bind fun a => _) _) = _
  rw [he]
  rfl

theorem computed?_trunc {n : Nat} (he : computed? row X e = some (.seconds n)) :
    computed? row X (.call "TRUNC" e) = some (.int (n / 10000 : Nat)) := by
  change (computed? row X e).bind _ = _
  rw [he]
  rfl

theorem computed?_mod {l r : Scalar Fragment} {m n : Int} (hl : computed? row X l = some (.int m))
    (hr : computed? row X r = some (.int n)) (hn : n ≠ 0) :
    computed? row X (.call₂ "MOD" l r) = some (.int (m.tmod n)) := by
  change (Option.bind ((computed? row X l).bind fun a => (computed? row X r).bind fun b => _) _) = _
  rw [hl, hr]
  exact if_neg hn

theorem computed?_addDays {l r : Scalar Fragment} {n : Int} (hl : computed? row X l = some (.int n))
    (hr : computed? row X r = some (.date d)) : computed? row X (.dateAdd l "DAY" r) = Datum.shifted? n d := by
  change (Option.bind ((computed? row X l).bind fun a => (computed? row X r).bind fun b => _) _) = _
  rw [hl, hr]
  rfl

/-- A chain of two or more is the text of all that it is made of. -/
theorem computed?_chain (spaced : Bool) {r : Scalar Fragment} {rest : List (Scalar Fragment)} {s : List Char}
    {ts : List (List Char)} (he : Tells row X e s) (hr : List.Forall₂ (Tells row X) (r :: rest) ts) :
    computed? row X (chain spaced e (r :: rest)) = some (.text (s ++ ts.flatten)) := by
  obtain ⟨t, ts, rfl⟩ : ∃ t ts', ts = t :: ts' := by
    cases hr with
    | cons h _ => exact ⟨_, _, rfl⟩
  obtain ⟨first, others⟩ := List.forall₂_cons.mp hr
  unfold chain
  rw [List.foldl_cons, List.flatten_cons, ← List.append_assoc]
  have joined := computed?_concat spaced he first
  generalize (Scalar.binary (.concat spaced) e r) = whole at joined ⊢
  generalize s ++ t = text at joined ⊢
  clear he hr first
  -- The first two make a text, and it stays one with every other part.
  induction others generalizing whole text with
  | nil => simpa using joined
  | @cons r t rest ts hr _ ih =>
    rw [List.foldl_cons, List.flatten_cons, ← List.append_assoc]
    exact ih _ _ (computed?_concat spaced ⟨_, joined, rfl⟩ hr)

variable (hX : X.value (Datum.meaning row) = some x)
include hX

theorem computed?_field (part : DatePart) {name : String} (named : Datum.field? name.toList = some part) :
    computed? row X (field name f) = x.extracted? part := by
  change (Option.bind ((some (Datum.word name.toList)).bind fun a => (X.value (Datum.meaning row)).bind fun b => _) _) = _
  rw [hX]
  change (Datum.field? name.toList).bind _ = _
  rw [named]
  rfl

theorem tells_field (part : DatePart) {name : String} {n : Int} (named : Datum.field? name.toList = some part)
    (h : x.extracted? part = some (.int n)) : Tells row X (field name f) (Text.signedDigits n) :=
  ⟨.int n, (computed?_field hX part named).trans h, rfl⟩

/-! Dates -/

theorem computed?_quarterMonth (hd : x.date? = some d) (some : 1 ≤ d.month) :
    computed? row X (quarterMonth f) = .some (.int ((d.month - 1) / 3 * 3 + 1 : Nat)) := by
  have month : computed? row X (field "month" f) = .some (.int d.month) := by
    rw [computed?_field hX .month rfl, Datum.extracted?, hd]
    rfl
  have less := computed?_binary .sub month (r := .number 1) rfl
  have third := computed?_binary .div (l := .group (.binary .sub (field "month" f) (.number 1))) less
    (r := .number 3) rfl
  have times := computed?_binary .mul (l := .group (.binary .div (.group (.binary .sub (field "month" f) (.number 1)))
    (.number 3))) third (r := .number 3) rfl
  have more := computed?_binary .add times (r := .number 1) rfl
  -- The engine's division truncates, which is the floor here: a month is not before the first.
  have number : ((d.month : Int) - 1).tdiv 3 * 3 + 1 = ((d.month - 1) / 3 * 3 + 1 : Nat) := by
    rw [Int.tdiv_eq_ediv_of_nonneg (by omega)]
    omega
  exact more.trans (congrArg (Option.some ∘ Datum.int) number)

/-- What the fields of a date tell. -/
theorem tells_fields (hd : x.date? = some d) : Tells row X (field "year" f) (Text.signedDigits d.year) ∧
    Tells row X (field "month" f) (Text.signedDigits d.month) ∧ Tells row X (field "day" f) (Text.signedDigits d.day) := by
  refine ⟨tells_field hX .year rfl ?_, tells_field hX .month rfl ?_, tells_field hX .day rfl ?_⟩
  all_goals
    rw [Datum.extracted?, hd]
    rfl

/-- The text of whole days is the start of the period, and what comes after it. -/
theorem computed?_dayText {after : String} (hd : x.date? = some d) (valid : d.Valid) (early : 1 ≤ d.year)
    (late : d.year ≤ 9999) (h : dayText? part after f = some e) (hp : part ≠ .week) :
    ∃ s, WritesDate s (part.startDate d) ∧ computed? row X e = some (.text (s ++ after.toList)) := by
  obtain ⟨some, twelve, -, -⟩ := id valid
  obtain ⟨year, month, day⟩ := tells_fields (f := f) hX hd
  have numeral := Text.readNat?_signedDigits
  have one : Text.readNat? "01".toList = .some 1 := rfl
  have first {m : Nat} (hm : 1 ≤ m) (hm' : m ≤ 12) : Date.Valid ⟨d.year, m, 1⟩ :=
    ⟨hm, hm', le_refl 1, Date.one_le_daysInMonth ..⟩
  cases part with
  | year =>
    cases h
    refine ⟨_, writesDate one one (first (by decide) (by decide)) early late, ?_⟩
    rw [computed?_chain false year (.cons (tells_text _) .nil)]
    simp
  | quarter =>
    have quarter : Tells row X (quarterMonth f) (Text.signedDigits ((d.month - 1) / 3 * 3 + 1 : Nat)) :=
      ⟨_, computed?_quarterMonth hX hd some, rfl⟩
    cases h
    refine ⟨_, writesDate (numeral _) one (first (Nat.le_add_left ..) (by omega)) early late, ?_⟩
    rw [computed?_chain false year (.cons (tells_text _) (.cons quarter (.cons (tells_text _) .nil)))]
    simp
  | month =>
    cases h
    refine ⟨_, writesDate (numeral d.month) one (first some twelve) early late, ?_⟩
    rw [computed?_chain false year (.cons (tells_text _) (.cons month (.cons (tells_text _) .nil)))]
    simp
  | day =>
    cases h
    refine ⟨_, writesDate (numeral d.month) (numeral d.day) valid early late, ?_⟩
    rw [computed?_chain false year (.cons (tells_text _) (.cons month (.cons (tells_text _) (.cons day
      (.cons (tells_text _) .nil)))))]
    simp
  | week => exact absurd rfl hp
  | _ => cases h

/-- The Monday of the week is computed. -/
theorem computed?_monday (hd : x.date? = some d) (valid : d.Valid) (early : 1 ≤ d.year) (late : d.year ≤ 9999) :
    computed? row X (monday f) = some (.date d.monday) := by
  have weekday : computed? row X (field "WEEKDAY" f) = some (.int d.weekday) := by
    rw [computed?_field hX .weekDay rfl, Datum.extracted?, hd]
    rfl
  have more := computed?_binary .add weekday (r := .number 6) rfl
  have date : computed? row X (.cast (.operand f) "DATE") = some (.date d) := by
    rw [computed?_cast (e := .operand f) hX]
    cases x <;> cases hd <;> rfl
  have back := computed?_mod more (r := .number 7) rfl (by decide)
  have negative : computed? row X (.negative (.call₂ "MOD" (.binary .add (field "WEEKDAY" f) (.number 6)) (.number 7))) =
      some (.int (-(d.weekday + 6).tmod 7)) := congrArg (Option.bind · Datum.negative?) back
  have nonneg : 0 ≤ d.weekday := Int.emod_nonneg d.dayNumber (by decide)
  obtain ⟨first, last⟩ := DatePart.year_startDate .week valid early
  rw [monday, computed?_addDays negative date, Int.tmod_eq_emod_of_nonneg (by omega)]
  exact if_pos ⟨first, le_trans last late⟩

/-! Times -/

/-- The texts of hours, minutes and seconds are the start of the period. -/
theorem tells_clockTexts {clock : List (Scalar Fragment)} (ht : x.time? = some t) (valid : t.Valid)
    (h : clockTexts? part f = some clock) :
    ∃ ts, List.Forall₂ (Tells row X) clock ts ∧ WritesTime ts.flatten (part.startTime t) := by
  obtain ⟨hour, minute, second, nanosecond⟩ := t
  obtain ⟨lessHour, lessMinute, lessSecond, lessNanosecond⟩ := valid
  have numeral := Text.readNat?_signedDigits
  have zero : Text.readNat? "00".toList = .some 0 := rfl
  have positive : 0 < 60 ∧ 0 < 1000000000 := by decide
  have tellsHour : Tells row X (field "hour" f) (Text.signedDigits hour) :=
    tells_field hX .hour rfl (by rw [Datum.extracted?, ht]; rfl)
  have tellsMinute : Tells row X (field "minute" f) (Text.signedDigits minute) :=
    tells_field hX .minute rfl (by rw [Datum.extracted?, ht]; rfl)
  have seconds : computed? row X (field "second" f) = some (.seconds (second * 10000 + nanosecond / 100000)) := by
    rw [computed?_field hX .second rfl, Datum.extracted?, ht]
    rfl
  have tellsSecond : Tells row X (wholeSeconds f) (Text.signedDigits second) := by
    have whole : (second * 10000 + nanosecond / 100000) / 10000 = second := by
      change nanosecond < 1000000000 at lessNanosecond
      omega
    exact ⟨.int second, (computed?_trunc seconds).trans (by rw [whole]), rfl⟩
  cases part with
  | hour =>
    cases h
    refine ⟨_, .cons tellsHour (.cons (tells_text _) .nil), ?_⟩
    simpa [DatePart.startTime] using writesTime (numeral hour) zero zero ⟨lessHour, positive.1, positive.1, positive.2⟩
  | minute =>
    cases h
    refine ⟨_, .cons tellsHour (.cons (tells_text _) (.cons tellsMinute (.cons (tells_text _) .nil))), ?_⟩
    simpa [DatePart.startTime] using writesTime (numeral hour) (numeral minute) zero
      ⟨lessHour, lessMinute, positive.1, positive.2⟩
  | second =>
    cases h
    refine ⟨_, .cons tellsHour (.cons (tells_text _) (.cons tellsMinute (.cons (tells_text _)
      (.cons tellsSecond .nil)))), ?_⟩
    simpa [DatePart.startTime] using writesTime (numeral hour) (numeral minute) (numeral second)
      ⟨lessHour, lessMinute, lessSecond, positive.2⟩
  | _ => cases h

/-! What they are cast to -/

theorem computed?_castDate (hd : x.date? = some d) (valid : d.Valid) (early : 1 ≤ d.year) (late : d.year ≤ 9999)
    (h : dayText? part "" f = some e) : computed? row X (.cast e "DATE") = some (.date (part.startDate d)) := by
  by_cases week : part = .week
  · subst week
    cases h
    exact computed?_cast (computed?_monday hX hd valid early late)
  · obtain ⟨s, writes, text⟩ := computed?_dayText hX hd valid early late h week
    rw [computed?_cast text]
    change (Text.readDate? (s ++ [])).map Datum.date = _
    rw [List.append_nil, writes.reads]
    rfl

theorem computed?_castMidnight (hd : x.date? = some d) (valid : d.Valid) (early : 1 ≤ d.year) (late : d.year ≤ 9999)
    (h : dayText? part " 00:00:00" f = some e) :
    computed? row X (.cast e "TIMESTAMP") = some (.timestamp ⟨part.startDate d, midnight⟩) := by
  by_cases week : part = .week
  · subst week
    cases h
    exact computed?_cast (computed?_monday hX hd valid early late)
  · obtain ⟨s, writes, text⟩ := computed?_dayText hX hd valid early late h week
    have clock : WritesTime "00:00:00".toList midnight := ⟨by decide, by decide⟩
    rw [computed?_cast text]
    change (Text.readTimestamp? (s ++ ' ' :: "00:00:00".toList)).map Datum.timestamp = _
    rw [readTimestamp?_joined writes clock]
    rfl

theorem computed?_castTime {hour : Scalar Fragment} {rest : List (Scalar Fragment)} (ht : x.time? = some t)
    (valid : t.Valid) (h : clockTexts? part f = some (hour :: rest)) :
    computed? row X (.cast (chain true hour rest) "TIME") = some (.time (part.startTime t)) := by
  obtain ⟨ts, tells, writes⟩ := tells_clockTexts hX ht valid h
  obtain ⟨s, ts, first, others, rfl⟩ := List.forall₂_cons_left_iff.mp tells
  obtain ⟨r, rest, rfl⟩ : ∃ r rest', rest = r :: rest' := by
    cases part <;> cases h <;> exact ⟨_, _, rfl⟩
  rw [computed?_cast (computed?_chain true first others)]
  exact congrArg (Option.map Datum.time) writes.reads

theorem computed?_castTimestamp {clock : List (Scalar Fragment)} (hd : x.date? = some d) (ht : x.time? = some t)
    (validDate : d.Valid) (validTime : t.Valid) (early : 1 ≤ d.year) (late : d.year ≤ 9999)
    (h : clockTexts? part f = some clock) :
    computed? row X (.cast (chain false (field "year" f)
      ([.text "-", field "month" f, .text "-", field "day" f, .text " "] ++ clock)) "TIMESTAMP") =
        some (.timestamp ⟨d, part.startTime t⟩) := by
  obtain ⟨ts, clock, time⟩ := tells_clockTexts hX ht validTime h
  obtain ⟨year, month, day⟩ := tells_fields (f := f) hX hd
  have date : WritesDate _ d :=
    writesDate (Text.readNat?_signedDigits d.month) (Text.readNat?_signedDigits d.day) validDate early late
  have text := computed?_chain false year (.cons (tells_text "-") (.cons month (.cons (tells_text "-")
    (.cons day (.cons (tells_text " ") clock)))))
  rw [List.cons_append, List.cons_append, List.cons_append, List.cons_append, List.cons_append, List.nil_append,
    computed?_cast text]
  refine Eq.trans ?_ (congrArg (Option.map Datum.timestamp) (readTimestamp?_joined date time))
  refine congrArg (fun s => (Text.readTimestamp? s).map Datum.timestamp) ?_
  simp

end Truncation

namespace DatePart

open Truncation

variable {row : List Char → Option Datum} {f : Fragment} {x : Datum} {part : DatePart} {target : TruncTarget}

/-- A value of the target can be cut to the part. -/
def Cuts (part : DatePart) (target : TruncTarget) : Prop :=
  match target with
  | .date => part ∈ [.year, .quarter, .month, .week, .day]
  | .time => part ∈ [.hour, .minute, .second]
  | .timestamp => part ≠ .weekDay

instance (part : DatePart) (target : TruncTarget) : Decidable (part.Cuts target) :=
  match target with
  | .date => inferInstanceAs (Decidable (part ∈ [.year, .quarter, .month, .week, .day]))
  | .time => inferInstanceAs (Decidable (part ∈ [.hour, .minute, .second]))
  | .timestamp => inferInstanceAs (Decidable (part ≠ .weekDay))

/-- A date and time of the calendar, from the first of the year 1 on, of which the target has what it needs. -/
def Suits (x : Datum) (target : TruncTarget) : Prop :=
  match target with
  | .date => ∃ d, x.date? = some d ∧ d.Valid ∧ 1 ≤ d.year ∧ d.year ≤ 9999
  | .time => ∃ t, x.time? = some t ∧ t.Valid
  | .timestamp => ∃ t, x = .timestamp t ∧ t.Valid ∧ 1 ≤ t.date.year ∧ t.date.year ≤ 9999

/-- The last beginning of a period of the part that is not after the value, as a value of the target. -/
def IsTruncation (part : DatePart) (target : TruncTarget) (x y : Datum) : Prop :=
  match target with
  | .date => ∃ d w, x.date? = some d ∧ y = .date w ∧ IsGreatest {w | w.Valid ∧ part.BeginsOn w ∧ w ≤ d} w
  | .time => ∃ t w, x.time? = some t ∧ y = .time w ∧ IsGreatest {w | w.Valid ∧ part.BeginsAt w ∧ w ≤ t} w
  | .timestamp => ∃ t w, x = .timestamp t ∧ y = .timestamp w ∧ IsGreatest {w | w.Valid ∧ part.Begins w ∧ w ≤ t} w

/-- The expression is made, and it comes to the truncation. -/
def Truncated (row : List Char → Option Datum) (part : DatePart) (target : TruncTarget) (f : Fragment) (x : Datum) : Prop :=
  ∃ g y, part.truncate target f = .ok g ∧ g.eval? row = some y ∧ part.IsTruncation target x y

theorem dayText?_cases (part : DatePart) (after : String) (f : Fragment) :
    (part ∈ [.year, .quarter, .month, .week, .day] ∧ ∃ e, dayText? part after f = some e) ∨
      (part ∉ [.year, .quarter, .month, .week, .day] ∧ dayText? part after f = none) := by
  cases part with
  | year | quarter | month | week | day => exact .inl ⟨by decide, _, rfl⟩
  | _ => exact .inr ⟨by decide, rfl⟩

theorem clockTexts?_cases (part : DatePart) (f : Fragment) :
    (part ∈ [.hour, .minute, .second] ∧ ∃ hour rest, clockTexts? part f = some (hour :: rest)) ∨
      (part ∉ [.hour, .minute, .second] ∧ clockTexts? part f = none) := by
  cases part with
  | hour | minute | second => exact .inl ⟨by decide, _, _, rfl⟩
  | _ => exact .inr ⟨by decide, rfl⟩

theorem ne_weekDay_of_mem (h : part ∈ [.year, .quarter, .month, .week, .day]) : part ≠ .weekDay := by
  rintro rfl
  exact absurd h (by decide)

section

variable {X : Formula} (operand : Sound X 1 (.operand f)) (hX : X.value (Datum.meaning row) = some x)
include operand hX

theorem truncated_date (suits : Suits x .date) : (part.Cuts .date → Truncated row part .date f x) ∧
    (¬part.Cuts .date → ∃ error, part.truncate .date f = .error error) := by
  obtain ⟨d, hd, valid, early, late⟩ := suits
  rcases dayText?_cases part "" f with ⟨cuts, e, made⟩ | ⟨cuts, none⟩
  · refine ⟨fun _ => ?_, fun not => absurd cuts not⟩
    have truncate : part.truncate .date f = .ok (Scalar.cast e "DATE").render := by
      simp only [truncate, truncation, ofDate, made]
      rfl
    have sound : Sound X 5 (.cast e "DATE") := (sound_dayText operand made).cast _ (by decide)
    exact ⟨_, _, truncate, sound.eval?.trans (computed?_castDate hX hd valid early late made), d, _, hd, rfl,
      isGreatest_startDate valid (ne_weekDay_of_mem cuts)⟩
  · refine ⟨fun is => absurd is cuts, fun _ => ⟨.notSupported (.truncatedDate part), ?_⟩⟩
    simp only [truncate, truncation, ofDate, none]
    rfl

theorem truncated_time (suits : Suits x .time) : (part.Cuts .time → Truncated row part .time f x) ∧
    (¬part.Cuts .time → ∃ error, part.truncate .time f = .error error) := by
  obtain ⟨t, ht, valid⟩ := suits
  rcases clockTexts?_cases part f with ⟨cuts, hour, rest, made⟩ | ⟨cuts, none⟩
  · refine ⟨fun _ => ?_, fun not => absurd cuts not⟩
    have truncate : part.truncate .time f = .ok (Scalar.cast (chain true hour rest) "TIME").render := by
      simp only [truncate, truncation, ofTime, made]
      rfl
    obtain ⟨first, others⟩ := List.forall_mem_cons.mp (sound_clockTexts operand made)
    have sound : Sound X 5 (.cast (chain true hour rest) "TIME") :=
      ((first.mono (by decide)).chain true others).cast _ (by decide)
    exact ⟨_, _, truncate, sound.eval?.trans (computed?_castTime hX ht valid made), t, _, ht, rfl,
      isGreatest_startTime part valid⟩
  · refine ⟨fun is => absurd is cuts, fun _ => ⟨.notSupported (.truncatedTime part), ?_⟩⟩
    simp only [truncate, truncation, ofTime, none]
    rfl

theorem truncated_timestamp (suits : Suits x .timestamp) : (part.Cuts .timestamp → Truncated row part .timestamp f x) ∧
    (¬part.Cuts .timestamp → ∃ error, part.truncate .timestamp f = .error error) := by
  obtain ⟨t, rfl, valid, early, late⟩ := suits
  rcases dayText?_cases part " 00:00:00" f with ⟨cuts, e, made⟩ | ⟨cuts, noDay⟩
  · refine ⟨fun cut => ?_, fun not => absurd (ne_weekDay_of_mem cuts) not⟩
    have truncate : part.truncate .timestamp f = .ok (Scalar.cast e "TIMESTAMP").render := by
      simp only [truncate, truncation, ofTimestamp, made]
      rfl
    have sound : Sound X 5 (.cast e "TIMESTAMP") := (sound_dayText operand made).cast _ (by decide)
    have value := computed?_castMidnight hX (d := t.date) rfl valid.1 early late made
    rw [← start_of_mem_days cuts] at value
    exact ⟨_, _, truncate, sound.eval?.trans value, t, _, rfl, rfl, isGreatest_start valid cut⟩
  rcases clockTexts?_cases part f with ⟨cuts', hour, rest, made⟩ | ⟨cuts', noClock⟩
  · have cut : part ≠ .weekDay := by
      rintro rfl
      exact absurd cuts' (by decide)
    refine ⟨fun _ => ?_, fun not => absurd cut not⟩
    have truncate : part.truncate .timestamp f = .ok (Scalar.cast (chain false (field "year" f)
        ([.text "-", field "month" f, .text "-", field "day" f, .text " "] ++ hour :: rest)) "TIMESTAMP").render := by
      simp only [truncate, truncation, ofTimestamp, noDay, made]
      rfl
    have sound := (sound_dated operand (sound_clockTexts operand made)).cast "TIMESTAMP" (by decide)
    have value := computed?_castTimestamp hX (d := t.date) (t := t.time) rfl rfl valid.1 valid.2 early late made
    rw [← start_of_mem_clock cuts'] at value
    exact ⟨_, _, truncate, sound.eval?.trans value, t, _, rfl, rfl, isGreatest_start valid cut⟩
  · have weekDay : part = .weekDay := by
      revert cuts cuts'
      cases part <;> decide
    refine ⟨fun cut => absurd weekDay cut, fun _ => ⟨.notSupported .truncatedToWeekDay, ?_⟩⟩
    simp only [truncate, truncation, ofTimestamp, noDay, noClock]
    rfl

end

/-- A truncation is refused exactly if the part does not divide the target. One that is made comes to the last beginning of
a period that is not after the value, whatever expression the value is that of. -/
theorem truncate_isTruncation (h : f.Denotes row x) (suits : Suits x target) :
    (part.Cuts target → ∃ g y, part.truncate target f = .ok g ∧ g.eval? row = some y ∧ part.IsTruncation target x y) ∧
      (¬part.Cuts target → ∃ error, part.truncate target f = .error error) := by
  obtain ⟨X, spells, grouped, level, value⟩ := h
  have operand : Sound X 1 (.operand f) := ⟨spells, grouped, level⟩
  cases target with
  | date => exact truncated_date operand value suits
  | time => exact truncated_time operand value suits
  | timestamp => exact truncated_timestamp operand value suits

/-- A loan of the last day of a leap February, cut to the week and to the quarter. -/
theorem truncate_isTruncation_loan :
    let borrowed : Datum := .timestamp ⟨⟨2024, 2, 29⟩, ⟨13, 45, 59, 987600000⟩⟩
    let row (name : List Char) : Option Datum := if name = "BORROWED".toList then some borrowed else none
    let column : Fragment := .sql (Identifier.ofStored "BORROWED").text
    column.Denotes row borrowed ∧ Suits borrowed .timestamp ∧ Suits borrowed .date ∧
      (∃ g y, DatePart.week.truncate .timestamp column = .ok g ∧ g.eval? row = some y ∧
        DatePart.week.IsTruncation .timestamp borrowed y) ∧
      ∃ g y, DatePart.quarter.truncate .date column = .ok g ∧ g.eval? row = some y ∧
        DatePart.quarter.IsTruncation .date borrowed y := by
  intro borrowed row column
  have denotes : column.Denotes row borrowed := .column "BORROWED" rfl
  have suits : Suits borrowed .timestamp := ⟨_, rfl, by decide, by decide, by decide⟩
  have suitsDate : Suits borrowed .date := ⟨_, rfl, by decide, by decide, by decide⟩
  exact ⟨denotes, suits, suitsDate, (truncate_isTruncation denotes suits).1 (by decide),
    (truncate_isTruncation denotes suitsDate).1 (by decide)⟩

example : ((DatePart.week.truncate .timestamp (.param (.timestamp ⟨⟨2024, 2, 29⟩, ⟨13, 45, 59, 987600000⟩⟩))).toOption.bind
    fun g => g.eval? fun _ => none) = some (.timestamp ⟨⟨2024, 2, 26⟩, midnight⟩) := by
  decide +kernel

end DatePart

end FirebirdSql
