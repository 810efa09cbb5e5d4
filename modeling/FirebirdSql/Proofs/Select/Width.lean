import Mathlib.Algebra.GroupWithZero.Nat
import Mathlib.Algebra.Order.BigOperators.Group.List
import Mathlib.Algebra.Order.Group.Nat
import FirebirdSql.Function
import FirebirdSql.Proofs.Inert
import FirebirdSql.Proofs.Select.Words

/-!
What the type of a cast holds. The type is chosen from the bound values: the longest text counts, else the last value. So
the texts among which a searched `CASE` chooses fit in, but a concatenation is longer than each of its texts, and a number
may have more places or digits than the last one.
-/

namespace FirebirdSql

open Value (leastInt64 greatestInt64)

theorem Text.natText_inj {m n : Nat} : Text.natText m = Text.natText n ↔ m = n := by
  refine ⟨fun same => ?_, congrArg _⟩
  have digits := congrArg (Text.readNat? ·.toList) same
  simpa [Text.natText, Text.readNat?_digits] using digits

namespace Value

/-- A number as a coefficient and its decimal places. -/
def scaled? : Value → Option (Int × Nat)
  | .int n => some (n, 0)
  | .decimal d => some (d.signedCoefficient, d.places)
  | _ => none

/-- A number written with all its places. -/
def numeral? : Value → Option String
  | .int n => some (Text.intText n)
  | .decimal d => some d.text
  | _ => none

/-- A whole number of 64 signed bits. -/
def FitsInt64 (v : Value) : Prop := ∃ n, v.scaled? = some (n, 0) ∧ leastInt64 ≤ n ∧ n ≤ greatestInt64

/-- A number that has no more places than the scale, and with these no more digits than the precision. -/
def FitsDecimal (precision scale : Nat) (v : Value) : Prop :=
  ∃ n places, v.scaled? = some (n, places) ∧ places ≤ scale ∧ n.natAbs * 10 ^ (scale - places) < 10 ^ precision

end Value

/-- The types that texts and numbers are cast to. -/
inductive CastType where
  | varchar (length : Nat)
  | bigint
  | decimal (precision scale : Nat)

namespace CastType

def text : CastType → String
  | varchar length => "VARCHAR(" ++ Text.natText length ++ ")"
  | bigint => "BIGINT"
  | decimal precision scale => "DECIMAL(" ++ Text.natText precision ++ ", " ++ Text.natText scale ++ ")"

/-- No more places than digits. -/
def Proper : CastType → Prop
  | decimal precision scale => scale ≤ precision
  | _ => True

/-- A value of the type may be the given one, with nothing of it lost. -/
inductive Holds : CastType → Value → Prop where
  | null (t : CastType) : Holds t .null
  | text {length : Nat} {s : String} (h : s.length ≤ length) : Holds (varchar length) (.text s)
  | numeral {length : Nat} {v : Value} {s : String} (written : v.numeral? = some s) (h : s.length ≤ length) :
    Holds (varchar length) v
  | whole {v : Value} (h : v.FitsInt64) : Holds bigint v
  | places {precision scale : Nat} {v : Value} (h : v.FitsDecimal precision scale) : Holds (decimal precision scale) v

theorem comma_notMem_natText (n : Nat) : ',' ∉ (Text.natText n).toList := by
  intro h
  rw [Text.natText, String.toList_ofList] at h
  exact Text.forall_digits (p := (· ≠ ',')) (by decide) n ',' h rfl

theorem text_inj {t u : CastType} (same : t.text = u.text) : t = u := by
  have chars := congrArg String.toList same
  cases t <;> cases u <;> simp [text] at chars
  · rw [Text.natText_inj.mp (String.ext chars)]
  · rfl
  · next precision scale precision' scale' =>
    have rest : ',' ∉ ' ' :: ((Text.natText scale).toList ++ [')']) := by simp [comma_notMem_natText]
    obtain ⟨digits, -, places⟩ := (List.append_cons_inj_of_notMem (comma_notMem_natText precision) rest).mp chars
    have places := List.append_cancel_right (List.cons.inj places).2
    rw [Text.natText_inj.mp (String.ext digits), Text.natText_inj.mp (String.ext places)]

end CastType

/-! A searched `CASE` -/

/-- A word as it may be written: in any case, with blanks around it. -/
structure Keyword (word : String) where
  text : String
  spelled : ∃ before letters after, text.toList = before ++ letters ++ after ∧
    (before ++ after).all Text.isBlank = true ∧ Text.sameAsciiLetters letters word.toList = true

/-- A condition, which is any fragment, and a bound value for when it holds. -/
structure Arm where
  when : Keyword "WHEN"
  condition : Fragment
  andThen : Keyword "THEN"
  result : Value

/-- What there is if no condition holds. -/
inductive Otherwise where
  | nothing
  | null (before : Keyword "ELSE") (word : Keyword "NULL")
  | value (before : Keyword "ELSE") (v : Value)

structure SearchedCase where
  opening : Keyword "CASE"
  first : Arm
  others : List Arm
  otherwise : Otherwise
  closing : Keyword "END"

open Fragment (sql param)

def Arm.fragment (a : Arm) : Fragment := sql a.when.text ++ a.condition ++ sql a.andThen.text ++ param a.result

theorem Arm.fragment_params (a : Arm) : a.fragment.params = a.condition.params ++ [a.result] := by
  simp [fragment, sql, param]

namespace Otherwise

def fragment : Otherwise → Fragment
  | nothing => .empty
  | null before word => sql (before.text ++ word.text)
  | value before v => sql before.text ++ param v

def values : Otherwise → List Value
  | value _ v => [v]
  | _ => []

theorem fragment_params (o : Otherwise) : o.fragment.params = o.values := by cases o <;> rfl

end Otherwise

namespace SearchedCase

variable (c : SearchedCase)

def arms : List Arm := c.first :: c.others

def fragment : Fragment :=
  sql c.opening.text ++ c.arms.foldr (fun a f => a.fragment ++ f) (c.otherwise.fragment ++ sql c.closing.text)

/-- The bound values that are chosen among. -/
def branches : List Value := c.arms.map Arm.result ++ c.otherwise.values

/-- The value of the first arm whose condition holds. -/
def eval (holds : Arm → Bool) : Value :=
  match c.arms.find? holds with
  | some a => a.result
  | none => c.otherwise.values.headD .null

theorem eval_mem (holds : Arm → Bool) : c.eval holds ∈ c.branches ∨ c.eval holds = .null := by
  unfold eval
  split
  · next a found => exact .inl (List.mem_append_left _ (List.mem_map_of_mem (List.mem_of_find?_eq_some found)))
  · cases h : c.otherwise with
    | value before v =>
      refine .inl (List.mem_append_right _ ?_)
      rw [h]
      exact List.mem_cons_self
    | _ => exact .inr rfl

/-- Every branch is the value for some outcome of the conditions. -/
theorem exists_eval {v : Value} (h : v ∈ c.branches) : ∃ holds, c.eval holds = v := by
  rcases List.mem_append.mp h with arm | last
  · obtain ⟨a, ha, rfl⟩ := List.mem_map.mp arm
    classical
    have some : (c.arms.find? fun b => b = a).isSome = true := List.find?_isSome.mpr ⟨a, ha, decide_eq_true rfl⟩
    obtain ⟨b, found⟩ := Option.isSome_iff_exists.mp some
    have same : b = a := by simpa using List.find?_some found
    refine ⟨fun b => b = a, ?_⟩
    rw [eval, found, same]
  · have none : c.arms.find? (fun _ => false) = none := List.find?_eq_none.mpr fun _ _ => Bool.false_ne_true
    refine ⟨fun _ => false, ?_⟩
    rw [eval, none]
    cases otherwise : c.otherwise with
    | value before w =>
      rw [otherwise] at last
      exact (List.mem_singleton.mp last).symm
    | _ =>
      rw [otherwise] at last
      cases last

theorem fragment_params : c.fragment.params =
    c.arms.flatMap (fun a => a.condition.params ++ [a.result]) ++ c.otherwise.values := by
  have each (arms : List Arm) (f : Fragment) : (arms.foldr (fun a f => a.fragment ++ f) f).params =
      arms.flatMap (fun a => a.condition.params ++ [a.result]) ++ f.params := by
    induction arms with
    | nil => rfl
    | cons a arms ih =>
      rw [List.foldr_cons, Fragment.append_params, a.fragment_params, ih, List.flatMap_cons]
      exact (List.append_assoc ..).symm
  have last : (c.otherwise.fragment ++ sql c.closing.text).params = c.otherwise.values := by
    rw [Fragment.append_params, Otherwise.fragment_params]
    exact List.append_nil _
  rw [fragment, Fragment.append_params, each, last]
  rfl

/-- A condition is written before its value, so that the last value that is bound is that of the last branch. -/
theorem getLast?_params : c.fragment.params.getLast? = c.branches.getLast? := by
  have arms (arms : List Arm) : (arms.flatMap fun a => a.condition.params ++ [a.result]).getLast? =
      (arms.map Arm.result).getLast? := by
    induction arms with
    | nil => rfl
    | cons a arms ih => simp [List.getLast?_append, List.getLast?_cons, ih]
  rw [fragment_params, branches, List.getLast?_append, List.getLast?_append, arms]

theorem getLast?_isSome : c.branches.getLast?.isSome = true := by
  have some : c.branches ≠ [] := List.cons_ne_nil c.first.result _
  exact List.getLast?_isSome.mpr some

theorem branches_subset : c.branches ⊆ c.fragment.params := by
  intro v h
  rw [fragment_params]
  refine List.mem_append.mpr ((List.mem_append.mp h).imp_left fun arm => ?_)
  obtain ⟨a, ha, rfl⟩ := List.mem_map.mp arm
  exact List.mem_flatMap.mpr ⟨a, ha, List.mem_append_right _ List.mem_cons_self⟩

end SearchedCase

namespace SelectItem

variable {e : Engine} {params : List Value}

/-- The longest text decides. -/
theorem castType_of_longest {n : Nat} (longest : ((params.filterMap Value.text?).map String.length).max? = some n) :
    castType e params = (CastType.varchar (max n 1)).text := by
  unfold castType
  split
  · next length lengths h =>
    rw [h] at longest
    cases longest
    rfl
  · next h =>
    rw [h] at longest
    cases longest

/-- Without a text the last value decides. -/
theorem castType_of_last {v : Value} (none : params.filterMap Value.text? = []) (last : params.getLast? = some v)
    (bound : v.isNull = false) : castType e params = castType e [v] := by
  obtain ⟨before, rfl⟩ := List.getLast?_eq_some_iff.mp last
  have other : v.text? = Option.none := List.filterMap_eq_nil_iff.mp none v (by simp)
  simp [castType, none, other, bound]

theorem castType_int (n : Int) : castType e [.int n] = CastType.bigint.text := rfl

theorem castType_decimal (d : Decimal) : castType e [.decimal d] = (CastType.decimal 18 d.places).text := by
  have precision : Text.natText 18 = "18" := by simp [Text.natText, Text.digits, Text.digit]
  rw [CastType.text, precision]
  change "DECIMAL(18, " ++ Text.natText d.places ++ ")" = _
  exact String.ext (by simp)

/-- The item is cast to a type that holds all of the values. -/
def CastHolds (e : Engine) (item : SelectItem) (values : Value → Prop) : Prop :=
  ∃ t : CastType, CastTo e item t.text ∧ t.Proper ∧ ∀ v, values v → t.Holds v

variable {f : Fragment} {label : Option String} {values : Value → Prop}

/-- Whether the type holds the values can be seen from the one that is chosen. -/
theorem castHolds_iff {t : CastType} (free : isColumnFree f = true) (chosen : castType e f.params = t.text) :
    CastHolds e ⟨f, label⟩ values ↔ t.Proper ∧ ∀ v, values v → t.Holds v := by
  constructor
  · rintro ⟨u, cast, held⟩
    have same : u.text = t.text := (castTo_iff.mp cast).2.trans chosen
    exact CastType.text_inj same ▸ held
  · intro held
    exact ⟨t, castTo_iff.mpr ⟨free, chosen.symm⟩, held⟩

/-! Concatenations -/

/-- The concatenation of texts that are bound. -/
def concatenation (texts : List String) : Function := .concat (texts.map fun s => .param (.text s))

theorem forall_join {p : Char → Prop} {sep : String} (between : ∀ c ∈ sep.toList, p c) {fs : List Fragment}
    (each : ∀ f ∈ fs, ∀ c ∈ f.template.toList, p c) : ∀ c ∈ (Fragment.join sep fs).template.toList, p c := by
  induction fs using Fragment.join.induct with
  | case1 => exact nofun
  | case2 f => exact each f List.mem_cons_self
  | case3 f rest some ih =>
    obtain ⟨first, others⟩ := List.forall_mem_cons.mp each
    rw [Fragment.join]
    · simp only [Fragment.append_template, String.toList_append, List.forall_mem_append]
      exact ⟨⟨first, between⟩, ih others⟩
    · exact some

/-- All the characters are single ones. -/
def Wordless (s : List Char) : Prop := ∀ c ∈ s, Single c

instance : DecidablePred Wordless := fun s => List.decidableBAll Single s

theorem wordsFrom_wordless {s : List Char} (singles : Wordless s) : wordsFrom false [] s = [] := by
  induction s with
  | nil => rfl
  | cons c s ih =>
    obtain ⟨first, others⟩ := List.forall_mem_cons.mp singles
    exact (wordsFrom_single first [] s).trans (ih others)

variable {texts : List String}

/-- A concatenation of bound texts is cast, and its values are the texts. -/
theorem concatenation_columnFree (h : (concatenation texts).render = .ok f) :
    isColumnFree f = true ∧ f.params = texts.map .text ∧ texts ≠ [] := by
  rw [concatenation, Function.render] at h
  split at h
  · cases h
  · next several =>
    obtain rfl := Except.ok.inj h
    have some : texts ≠ [] := by
      rintro rfl
      exact several Nat.two_pos
    have params : (Fragment.join " || " (texts.map fun s => .param (.text s))).params = texts.map .text := by
      rw [(Fragment.Composed.joined (by decide) _).params_eq, List.flatMap_map]
      exact List.map_eq_flatMap.symm
    have singles : Wordless (Fragment.join " || " (texts.map fun s => .param (.text s))).template.toList := by
      have between : Wordless " || ".toList := by decide
      refine forall_join between fun f hf => ?_
      obtain ⟨s, -, rfl⟩ := List.mem_map.mp hf
      exact (by decide : Wordless "?".toList)
    refine ⟨?_, params, some⟩
    have unquoted : '"' ∉ (Fragment.join " || " (texts.map fun s => .param (.text s))).template.toList :=
      fun quote => (singles _ quote).2.1 rfl
    simp [isColumnFree, params, wordsFrom_wordless singles, unquoted, some]

theorem holds_varchar_text {length : Nat} {s : String} :
    (CastType.varchar length).Holds (.text s) ↔ s.length ≤ length := by
  constructor
  · intro h
    cases h with
    | text h => exact h
    | numeral written h => cases written
  · exact .text

theorem sum_eq_zero_or_mem {lengths : List Nat} (h : lengths.Pairwise fun m n => m = 0 ∨ n = 0) :
    lengths.sum = 0 ∨ lengths.sum ∈ lengths := by
  induction lengths with
  | nil => exact .inl rfl
  | cons n lengths ih =>
    obtain ⟨first, others⟩ := List.pairwise_cons.mp h
    rw [List.sum_cons]
    by_cases zero : n = 0
    · rw [zero, Nat.zero_add]
      exact (ih others).imp_right (List.mem_cons_of_mem _)
    · have rest : lengths.sum = 0 := List.sum_eq_zero fun m hm => (first m hm).resolve_left zero
      rw [rest, Nat.add_zero]
      exact .inr List.mem_cons_self

theorem pairwise_of_sum_le {lengths : List Nat} {longest : Nat} (attained : longest = 0 ∨ longest ∈ lengths)
    (fits : lengths.sum ≤ max longest 1) : lengths.Pairwise fun m n => m = 0 ∨ n = 0 := by
  induction lengths with
  | nil => exact .nil
  | cons n lengths ih =>
    rw [List.sum_cons] at fits
    by_cases zero : n = 0
    · refine List.pairwise_cons.mpr ⟨fun _ _ => .inl zero, ih ?_ (by omega)⟩
      rcases attained with none | attained
      · exact .inl none
      · exact (List.mem_cons.mp attained).imp_left (·.trans zero)
    · -- The first text alone takes all the room that there is.
      have rest : lengths.sum = 0 := by
        rcases attained with rfl | attained
        · omega
        · rcases List.mem_cons.mp attained with rfl | later
          · omega
          · have below := List.le_sum_of_mem later
            omega
      have zeros : ∀ m ∈ lengths, m = 0 := fun m hm => Nat.le_zero.mp (rest ▸ List.le_sum_of_mem hm)
      refine List.pairwise_cons.mpr ⟨fun m hm => .inr (zeros m hm), ?_⟩
      exact List.pairwise_of_forall_mem_list fun m hm _ _ => .inl (zeros m hm)

/-- Texts are together no longer than the longest of them, and than one character, if no two of them have characters. -/
theorem sum_le_longest_iff {lengths : List Nat} {longest : Nat} (h : lengths.max? = some longest) :
    lengths.sum ≤ max longest 1 ↔ lengths.Pairwise fun m n => m = 0 ∨ n = 0 := by
  obtain ⟨attained, greatest⟩ := List.max?_eq_some_iff.mp h
  refine ⟨pairwise_of_sum_le (.inr attained), fun apart => ?_⟩
  rcases sum_eq_zero_or_mem apart with none | one
  · omega
  · exact (greatest _ one).trans (Nat.le_max_left ..)

theorem filterMap_text (texts : List String) : (texts.map Value.text).filterMap Value.text? = texts := by
  rw [List.filterMap_map]
  exact List.filterMap_some

theorem concatenation_holds_iff (h : (concatenation texts).render = .ok f) :
    CastHolds e ⟨f, label⟩ (· = .text (String.join texts)) ↔ texts.Pairwise fun s t => s = "" ∨ t = "" := by
  obtain ⟨free, params, some⟩ := concatenation_columnFree h
  have lengths : texts.map String.length ≠ [] := fun none => some (List.map_eq_nil_iff.mp none)
  obtain ⟨longest, hmax⟩ := Option.isSome_iff_exists.mp (List.isSome_max?_of_ne_nil lengths)
  have chosen : castType e f.params = (CastType.varchar (max longest 1)).text :=
    castType_of_longest (by rw [params, filterMap_text, hmax])
  rw [castHolds_iff free chosen, forall_eq, holds_varchar_text, String.length_join, sum_le_longest_iff hmax,
    List.pairwise_map]
  simp only [String.length_eq_zero_iff, CastType.Proper, true_and]

/-! Choices among values -/

variable {c : SearchedCase}

/-- Texts that are chosen among are texts that are bound. -/
theorem texts_castHolds (cast : IsCast e ⟨c.fragment, label⟩) (family : ∀ v ∈ c.branches, v.text?.isSome) :
    CastHolds e ⟨c.fragment, label⟩ fun v => ∃ holds, c.eval holds = v := by
  have free := isCast_iff.mp cast
  have text {v : Value} (h : v ∈ c.branches) : ∃ s, v = .text s ∧ s ∈ c.fragment.params.filterMap Value.text? := by
    obtain ⟨s, hs⟩ := Option.isSome_iff_exists.mp (family v h)
    have bound : s ∈ c.fragment.params.filterMap Value.text? :=
      List.mem_filterMap.mpr ⟨v, c.branches_subset h, hs⟩
    cases v with
    | text t =>
      obtain rfl := Option.some.inj hs
      exact ⟨t, rfl, bound⟩
    | _ => cases hs
  obtain ⟨s, -, first⟩ := text (v := c.first.result) List.mem_cons_self
  obtain ⟨longest, hmax⟩ := Option.isSome_iff_exists.mp
    (List.isSome_max?_of_ne_nil (List.ne_nil_of_mem (List.mem_map_of_mem (f := String.length) first)))
  rw [castHolds_iff free (castType_of_longest hmax)]
  refine ⟨trivial, ?_⟩
  rintro _ ⟨holds, rfl⟩
  rcases c.eval_mem holds with branch | none
  · obtain ⟨s, same, bound⟩ := text branch
    have fits := (List.max?_eq_some_iff.mp hmax).2 s.length (List.mem_map_of_mem bound)
    rw [same]
    exact .text (fits.trans (Nat.le_max_left ..))
  · rw [none]
    exact .null _

/-- The type that is chosen holds the numbers. If a condition binds a text, the longest of these decides, and the
numerals must not be longer. Otherwise the last branch decides: after a whole number all must be whole, and after a
number with places none may have more of them, and none more than 18 digits with these. -/
def Suits (c : SearchedCase) : Prop :=
  match ((c.fragment.params.filterMap Value.text?).map String.length).max?, c.branches.getLast? with
  | some longest, _ => ∀ v ∈ c.branches, ∃ s, v.numeral? = some s ∧ s.length ≤ max longest 1
  | none, some (.decimal d) => d.places ≤ 18 ∧ ∀ v ∈ c.branches, v.FitsDecimal 18 d.places
  | none, _ => ∀ v ∈ c.branches, v.FitsInt64

/-- The values of a choice are its branches, and null. -/
theorem forall_eval_iff {t : CastType} :
    (∀ v, (∃ holds, c.eval holds = v) → t.Holds v) ↔ ∀ v ∈ c.branches, t.Holds v := by
  constructor
  · exact fun all v hv => all v (c.exists_eval hv)
  · rintro each _ ⟨holds, rfl⟩
    rcases c.eval_mem holds with branch | none
    · exact each _ branch
    · exact none ▸ .null t

theorem holds_number_iff {t : CastType} {v : Value} (number : v.scaled?.isSome) : t.Holds v ↔
    match t with
    | .varchar length => ∃ s, v.numeral? = some s ∧ s.length ≤ length
    | .bigint => v.FitsInt64
    | .decimal precision scale => v.FitsDecimal precision scale := by
  constructor
  · intro held
    cases held with
    | null | text h => cases number
    | numeral written h => exact ⟨_, written, h⟩
    | whole h | places h => exact h
  · intro h
    cases t with
    | varchar length =>
      obtain ⟨s, written, h⟩ := h
      exact .numeral written h
    | bigint => exact .whole h
    | decimal precision scale => exact .places h

theorem numbers_castHolds_iff (cast : IsCast e ⟨c.fragment, label⟩) (family : ∀ v ∈ c.branches, v.scaled?.isSome) :
    (CastHolds e ⟨c.fragment, label⟩ fun v => ∃ holds, c.eval holds = v) ↔ Suits c := by
  have free := isCast_iff.mp cast
  have held (t : CastType) := forall₂_congr fun v hv => holds_number_iff (t := t) (family v hv)
  obtain ⟨last, hlast⟩ : ∃ last, c.branches.getLast? = some last := Option.isSome_iff_exists.mp c.getLast?_isSome
  have number := family last (List.mem_of_getLast? hlast)
  unfold Suits
  rw [hlast]
  cases longest : ((c.fragment.params.filterMap Value.text?).map String.length).max? with
  | some longest =>
    rw [castHolds_iff free (castType_of_longest ‹_›), forall_eval_iff, held]
    exact and_iff_right trivial
  | none =>
    have textless : c.fragment.params.filterMap Value.text? = [] := List.map_eq_nil_iff.mp (List.max?_eq_none_iff.mp longest)
    have decides := castType_of_last (e := e) textless (c.getLast?_params.trans hlast)
    cases last with
    | int n =>
      rw [castHolds_iff free ((decides rfl).trans (castType_int n)), forall_eval_iff, held]
      exact and_iff_right trivial
    | decimal d =>
      rw [castHolds_iff free ((decides rfl).trans (castType_decimal d)), forall_eval_iff, held]
      rfl
    | _ => cases number

/-- A concatenation of texts that are bound is cast, to a type that holds it exactly if no two of the texts have
characters. A searched `CASE` that is cast is cast to a type that holds all its values if these are texts; if they are
numbers, exactly if the type suits them. -/
theorem concat_case_castHolds_iff (e : Engine) (label : Option String) :
    (∀ texts f, (concatenation texts).render = .ok f →
      IsCast e ⟨f, label⟩ ∧
        (CastHolds e ⟨f, label⟩ (· = .text (String.join texts)) ↔ texts.Pairwise fun s t => s = "" ∨ t = "")) ∧
      ∀ c : SearchedCase, IsCast e ⟨c.fragment, label⟩ →
        ((∀ v ∈ c.branches, v.text?.isSome) →
          CastHolds e ⟨c.fragment, label⟩ fun v => ∃ holds, c.eval holds = v) ∧
        ((∀ v ∈ c.branches, v.scaled?.isSome) →
          ((CastHolds e ⟨c.fragment, label⟩ fun v => ∃ holds, c.eval holds = v) ↔ Suits c)) := by
  refine ⟨fun texts f written => ⟨?_, concatenation_holds_iff written⟩, fun c cast => ?_⟩
  · exact isCast_iff.mpr (concatenation_columnFree written).1
  · exact ⟨texts_castHolds cast, numbers_castHolds_iff cast⟩

/-- One of two values, as a bound flag says. -/
def either (u v : Value) : SearchedCase where
  opening := ⟨"CASE ", [], "CASE".toList, [' '], by decide⟩
  first :=
    { when := ⟨"WHEN ", [], "WHEN".toList, [' '], by decide⟩
      condition := ⟨"? = 1", [.int 1]⟩
      andThen := ⟨" THEN ", [' '], "THEN".toList, [' '], by decide⟩
      result := u }
  others := []
  otherwise := .value ⟨" ELSE ", [' '], "ELSE".toList, [' '], by decide⟩ v
  closing := ⟨" END", [' '], "END".toList, [], by decide⟩

theorem fragment_either (u v : Value) :
    (either u v).fragment = ⟨"CASE WHEN ? = 1 THEN ? ELSE ? END", [.int 1, u, v]⟩ := rfl

theorem either_isCast (u v : Value) : IsCast e ⟨(either u v).fragment, label⟩ := by
  rw [isCast_iff, fragment_either]
  have words : (wordsFrom false [] "CASE WHEN ? = 1 THEN ? ELSE ? END".toList).all isColumnFreeWord = true := by decide
  have unquoted : "CASE WHEN ? = 1 THEN ? ELSE ? END".toList.contains '"' = false := by decide
  simp only [isColumnFree, words, unquoted, List.isEmpty_cons, Bool.not_false, Bool.and_true]

def twoFifty : Decimal := ⟨false, 250, 2, by decide, by decide⟩

/-- An empty text before another, texts among which is chosen, and numbers the last of which has the most places. -/
theorem concat_case_castHolds_twoFifty :
    let e : Engine := ⟨⟨3, 0, 0, 0⟩⟩
    CastHolds e ⟨⟨"? || ?", [.text "", .text "ab"]⟩, none⟩ (· = .text "ab") ∧
      (CastHolds e ⟨(either (.text "abc") (.text "ab")).fragment, none⟩ fun v =>
        ∃ holds, (either (.text "abc") (.text "ab")).eval holds = v) ∧
      CastHolds e ⟨(either (.int 3) (.decimal twoFifty)).fragment, none⟩ fun v =>
        ∃ holds, (either (.int 3) (.decimal twoFifty)).eval holds = v := by
  intro e
  obtain ⟨concat, choice⟩ := concat_case_castHolds_iff e none
  refine ⟨(concat ["", "ab"] _ rfl).2.mpr (by decide), (choice _ (either_isCast ..)).1 (by decide), ?_⟩
  refine ((choice _ (either_isCast ..)).2 (by decide)).mpr ⟨by decide, ?_⟩
  rintro v (- | ⟨-, - | ⟨-, ⟨⟩⟩⟩)
  · exact ⟨3, 0, rfl, by decide, by decide⟩
  · exact ⟨250, 2, rfl, by decide, by decide⟩

/-- A concatenation of two texts is cut to the length of the longer one, and a number before a whole one loses its
places. -/
theorem cast_narrows :
    let e : Engine := ⟨⟨3, 0, 0, 0⟩⟩
    (concatenation ["ab", "cd"]).render = .ok ⟨"? || ?", [.text "ab", .text "cd"]⟩ ∧
      CastTo e ⟨⟨"? || ?", [.text "ab", .text "cd"]⟩, none⟩ "VARCHAR(2)" ∧
      ¬CastHolds e ⟨⟨"? || ?", [.text "ab", .text "cd"]⟩, none⟩ (· = .text "abcd") ∧
      CastTo e ⟨(either (.decimal twoFifty) (.int 3)).fragment, none⟩ "BIGINT" ∧
      ¬CastHolds e ⟨(either (.decimal twoFifty) (.int 3)).fragment, none⟩ fun v =>
        ∃ holds, (either (.decimal twoFifty) (.int 3)).eval holds = v := by
  intro e
  have two : Text.natText 2 = "2" := by simp [Text.natText, Text.digits, Text.digit]
  have concat : CastTo e ⟨⟨"? || ?", [.text "ab", .text "cd"]⟩, none⟩ "VARCHAR(2)" :=
    castTo_iff.mpr ⟨by decide, (congrArg (fun n => "VARCHAR(" ++ n ++ ")") two).symm⟩
  have written : (concatenation ["ab", "cd"]).render = .ok ⟨"? || ?", [.text "ab", .text "cd"]⟩ := rfl
  refine ⟨written, concat, ?_, castTo_iff.mpr ⟨isCast_iff.mp (either_isCast (e := e) ..), rfl⟩, ?_⟩
  · intro held
    exact absurd ((concatenation_holds_iff written).mp held) (by decide)
  · rw [numbers_castHolds_iff (either_isCast ..) (by decide)]
    intro suits
    obtain ⟨n, whole, -⟩ := suits (.decimal twoFifty) (by decide)
    cases whole

end SelectItem

end FirebirdSql
