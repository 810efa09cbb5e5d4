import Mathlib.Data.List.TakeWhile
import FirebirdSql.Lookup
import FirebirdSql.Proofs.Composed
import FirebirdSql.Proofs.Paging
import FirebirdSql.Select
import FirebirdSql.Temporal.Interval
import FirebirdSql.Temporal.Truncate

/-!
Everything that puts fragments together: conditions, functions, dates, aggregates and whole queries. What goes in as
pairs of placeholders and values comes out as such, each time that it is written.
-/

namespace FirebirdSql

open Fragment (Composed Inert Mute holes isMute sql)

namespace Text

theorem isMute_of_isBlank {c : Char} (h : isBlank c = true) : isMute c = true := by
  simp only [isMute, Bool.and_eq_true, bne_iff_ne]
  refine ⟨⟨?_, ?_⟩, ?_⟩ <;> rintro rfl <;> exact absurd h (by decide)

theorem trimStart_parts (s : List Char) : ∃ blanks, (∀ c ∈ blanks, isMute c = true) ∧ s = blanks ++ trimStart s :=
  ⟨s.takeWhile isBlank, fun _ hc => isMute_of_isBlank (List.mem_takeWhile_imp hc),
    List.takeWhile_append_dropWhile.symm⟩

/-- Blanks are cut off at both ends. -/
theorem trim_parts (s : List Char) : ∃ before after, (∀ c ∈ before, isMute c = true) ∧ (∀ c ∈ after, isMute c = true) ∧
    s = before ++ (trim s ++ after) := by
  obtain ⟨before, hb, hs⟩ := trimStart_parts s
  obtain ⟨after, ha, hr⟩ := trimStart_parts (trimStart s).reverse
  refine ⟨before, after.reverse, hb, fun c hc => ha c (List.mem_reverse.mp hc), ?_⟩
  have ends : trimStart s = trim s ++ after.reverse := by
    have := congrArg List.reverse hr
    rwa [List.reverse_reverse, List.reverse_append] at this
  rw [← ends]
  exact hs

/-- Only a letter is put in upper case. -/
theorem eq_of_toUpper {c d : Char} (other : d.isUpper = false) (h : c.toUpper = d) : c = d := by
  by_cases ascii : c.toNat < 128
  · have all : ∀ n : Fin 128, (Char.ofNat n).toUpper.isUpper = false → Char.ofNat n = (Char.ofNat n).toUpper := by
      decide
    have fixed := forall_ascii (p := fun c => c.toUpper.isUpper = false → c = c.toUpper) all ascii
    subst h
    exact fixed other
  · have : ¬(c.val ≥ 'a'.val ∧ c.val ≤ 'z'.val) := by
      rintro ⟨-, below⟩
      have : c.toNat ≤ 122 := UInt32.le_iff_toNat_le.mp below
      omega
    exact (dif_neg this : c.toUpper = c) ▸ h

theorem mute_map_toUpper {s : List Char} (h : ∀ c ∈ s, isMute c = true) :
    ∀ c ∈ s.map Char.toUpper, isMute c = true := by
  intro d hd
  obtain ⟨c, hc, same⟩ := List.mem_map.mp hd
  have mute := h c hc
  simp only [isMute, Bool.and_eq_true, bne_iff_ne] at mute ⊢
  refine ⟨⟨?_, ?_⟩, ?_⟩ <;> rintro rfl <;> have := eq_of_toUpper rfl same <;> simp [this] at mute

theorem holes_map_toUpper (s : List Char) : holes (s.map Char.toUpper) = holes s := by
  induction s using Fragment.holes.induct with
  | case1 => rfl
  | case2 rest ih => exact congrArg (· + 1) ih
  | case3 c rest other ih =>
    rw [List.map_cons, Fragment.holes_cons other, Fragment.holes_cons, ih]
    intro after hc hrest
    obtain ⟨d, after, rfl, hd, -⟩ := List.map_eq_cons_iff.mp hrest
    exact other after (eq_of_toUpper rfl hc) (eq_of_toUpper rfl hd ▸ rfl)

end Text

/-- What is returned is composed of these parts, and nothing fails because values do not match placeholders. -/
inductive Fragment.Yields (ps : List Fragment) : Except Error Fragment → Prop where
  | made {f : Fragment} (h : Composed ps f) : Yields ps (.ok f)
  | refused {error : Error} (h : ∀ placeholders values, error ≠ .parameterMismatch placeholders values) :
    Yields ps (.error error)

open Fragment (Yields)

theorem Fragment.Yields.unsupported (ps : List Fragment) (request : Unsupported) :
    Yields ps (.error (.notSupported request)) := .refused nofun

namespace Lookup

theorem inert_operatorParts (l : Lookup) : Inert l.operatorParts.1 ∧ Inert l.operatorParts.2 := by
  cases l <;> exact ⟨by decide, by decide⟩

theorem isSpelled_pattern (l : Lookup) (anchor : Anchor) (f : Fragment) : (l.pattern anchor f).isSpelled = true := by
  unfold pattern
  split <;> cases anchor <;> rfl

theorem operands_pattern (l : Lookup) (anchor : Anchor) (f : Fragment) : (l.pattern anchor f).operands = [f] := by
  unfold pattern
  split <;> cases anchor <;> rfl

variable (l : Lookup) (column f : Fragment)

theorem composed_castColumn : Composed [column] (l.castColumn column) := by
  unfold castColumn
  split
  · exact (Scalar.call "UPPER" (.operand column)).composed rfl
  · exact .part column

theorem composed_operatorOn : Composed [f] (l.operatorOn f) := by
  unfold operatorOn
  split
  · next anchor _ =>
    have pattern := (l.pattern anchor f).composed (l.isSpelled_pattern anchor f)
    rw [operands_pattern] at pattern
    exact pattern.around (by decide) (by decide)
  · exact (Composed.part f).around l.inert_operatorParts.1 l.inert_operatorParts.2

/-- What a condition compares, with a value as it is bound. -/
def sides : Operand → List Fragment
  | .expr f => [column, f]
  | .value v => [column, .param (l.bound v)]

theorem composed_condition (right : Operand) : Composed (l.sides column right) (l.condition column right) := by
  have compared := (l.composed_castColumn column).before (show Inert " " by decide)
  cases right with
  | expr f => exact compared.append (l.composed_operatorOn f)
  | value v =>
    have operator : Composed [.param (l.bound v)] ⟨l.operator, [l.bound v]⟩ :=
      (Composed.part (.param (l.bound v))).around l.inert_operatorParts.1 l.inert_operatorParts.2
    exact compared.append operator

end Lookup

namespace DatePart

theorem composed_extract (part : DatePart) (f : Fragment) : Composed [f] (part.extract f) := by
  have written : (part.extraction f).isSpelled = true ∧ (part.extraction f).operands = [f] := by
    cases part <;> exact ⟨rfl, rfl⟩
  exact written.2 ▸ (part.extraction f).composed written.1

/-- How often a truncation writes what is truncated. -/
def occurrences : DatePart → TruncTarget → Nat
  | .year, _ => 1
  | .quarter, _ | .month, _ | .week, _ => 2
  | .hour, .time => 1
  | .minute, .time => 2
  | .second, .time | .day, _ => 3
  | .hour, _ => 4
  | .minute, _ => 5
  | .second, _ => 6
  | .weekDay, _ => 0

theorem truncation_ok {part : DatePart} {target : TruncTarget} {f : Fragment} {e : Scalar Fragment}
    (h : part.truncation target f = .ok e) :
    e.isSpelled = true ∧ e.operands = List.replicate (part.occurrences target) f := by
  cases target <;> cases part <;> cases h <;> exact ⟨rfl, rfl⟩

theorem truncation_error {part : DatePart} {target : TruncTarget} {f : Fragment} {error : Error}
    (h : part.truncation target f = .error error) : ∃ request, error = .notSupported request := by
  cases target <;> cases part <;> cases h <;> exact ⟨_, rfl⟩

theorem yields_truncate (part : DatePart) (target : TruncTarget) (f : Fragment) :
    Yields (List.replicate (part.occurrences target) f) (part.truncate target f) := by
  unfold truncate
  cases made : part.truncation target f with
  | ok e =>
    obtain ⟨spelled, operands⟩ := truncation_ok made
    exact .made (operands ▸ e.composed spelled)
  | error error =>
    obtain ⟨request, rfl⟩ := truncation_error made
    exact .unsupported ..

end DatePart

namespace Interval

theorem inert_unit (i : Interval) : Inert i.leading.2 := by
  unfold leading
  split
  · exact (by decide : Inert "DAY")
  · split
    · exact (by decide : Inert "SECOND")
    · exact (by decide : Inert "MILLISECOND")

theorem yields_shift (connector : String) (f : Fragment) (d : Duration) : Yields [f] (shift connector f d) := by
  unfold shift
  split
  · exact .unsupported ..
  · next sign _ =>
    cases split : ofDuration d with
    | error error =>
      unfold ofDuration at split
      dsimp only at split
      split at split
      · obtain rfl := Except.error.inj split
        exact .refused nofun
      · cases split
    | ok i =>
      change Yields [f] (if i.isZero then _ else _)
      split
      · exact .made (.part f)
      · refine .made ((Composed.part f).around ?_ (by decide))
        exact (((Inert.append (by decide) (.of_mute (Text.mute_signedDigits _))).append (by decide)).append
          i.inert_unit).append (by decide)

end Interval

namespace Function

theorem composed_call {function : String} (h : Inert function) (args : List Fragment) :
    Composed args (call function args) :=
  (Composed.joined (by decide) args).around (h.append (by decide)) (by decide)

def arguments : Function → List Fragment
  | .length e | .lower e | .upper e | .cast e _ => [e]
  | .substr e pos len => e :: pos :: len.toList
  | .concat args | .greatest args | .least args | .coalesce args => args
  | .now | .random => []

theorem inert_name (f : Function) : Inert f.name := by
  cases f <;> rw [name] <;> decide

/-- The type of a cast is mute, without a place for an argument. -/
def Proper : Function → Prop
  | .cast _ type => Mute type ∧ holes type.toList = 0
  | _ => True

theorem yields_callSome {function : String} (h : Inert function) (args : List Fragment) :
    Yields args (callSome function args) := by
  unfold callSome
  split
  · exact .unsupported ..
  · exact .made (composed_call h args)

theorem yields_render {f : Function} (proper : f.Proper) : Yields f.arguments f.render := by
  cases f with
  | length e | lower e | upper e => exact .made (composed_call (inert_name _) [e])
  | substr e pos len =>
    have head := ((Composed.part e).after (show Inert "SUBSTRING(" by decide)).between (show Inert " FROM " by decide)
      (.part pos)
    cases len with
    | none => exact .made (head.before (by decide))
    | some len => exact .made ((head.between (by decide) (.part len)).before (by decide))
  | concat args =>
    change Yields args (if args.length < 2 then _ else .ok (Fragment.join " || " args))
    split
    · exact .unsupported ..
    · exact .made (.joined (by decide) args)
  | greatest args | least args | coalesce args => exact yields_callSome (inert_name _) args
  | cast e type =>
    obtain ⟨mute, free⟩ := proper
    have pattern : Mute ("CAST(" ++ Fragment.hole ++ " AS " ++ type ++ ")") :=
      (Mute.append (by decide) mute).append (by decide)
    refine .made (.format (Fragment.open_of_mute pattern) ?_)
    rw [String.toList_append, Fragment.holes_append (.inr (by decide)), String.toList_append,
      Fragment.holes_append (.inl (by decide)), free]
    rfl
  | now => exact .made (.text (by decide))
  | random => exact .made (.text (by decide))

end Function

namespace Arithmetic

theorem composed_combine {connector : String} (h : Mute connector) (operands : List Fragment) :
    Composed operands (combine connector operands) := by
  unfold combine
  split
  · next function found =>
    refine Function.composed_call ?_ operands
    unfold function? at found
    split at found <;> cases found <;> decide
  · exact .joined ((Inert.append (by decide) h.inert).append (by decide)) operands

end Arithmetic

namespace Aggregate

theorem yields_render {function : String} (mute : Mute function) (free : holes function.toList = 0) (f : Fragment)
    (distinct : Bool) : Yields [f] (render function f distinct) := by
  let name := String.ofList (function.toList.map Char.toUpper)
  have named : Mute name := by
    rw [Mute, String.toList_ofList]
    exact Text.mute_map_toUpper mute
  have free : holes name.toList = 0 := by rw [String.toList_ofList, Text.holes_map_toUpper, free]
  unfold render
  dsimp only
  split
  · exact .unsupported ..
  · split
    · have pattern : Mute ("AVG(" ++ (if distinct then "DISTINCT " else "") ++ "CAST(" ++ Fragment.hole ++
          " AS DOUBLE PRECISION))") := by
        cases distinct <;> decide
      exact .made (.format (Fragment.open_of_mute pattern) (by cases distinct <;> rfl))
    · let rest := "(" ++ ((if distinct then "DISTINCT " else "") ++ (Fragment.hole ++ ")"))
      have spelled : name ++ "(" ++ (if distinct then "DISTINCT " else "") ++ Fragment.hole ++ ")" = name ++ rest := by
        rw [String.append_assoc, String.append_assoc, String.append_assoc]
      have quiet : Mute rest := by cases distinct <;> decide
      have one : holes rest.toList = 1 := by cases distinct <;> decide
      have apart : rest.toList.head? ≠ some '\x7d' := by cases distinct <;> decide
      change Yields [f] (.ok (.format (name ++ "(" ++ _ ++ Fragment.hole ++ ")") [f]))
      rw [spelled]
      refine .made (.format (Fragment.open_of_mute (named.append quiet)) ?_)
      rw [String.toList_append, Fragment.holes_append (.inr apart), free, one]
      rfl

end Aggregate

namespace Page

/-- What comes before the rest of a query is mute. -/
theorem parts_of_afterSelect {statement rest : List Char} (h : afterSelect? statement = some rest) :
    ∃ word, (∀ c ∈ word, isMute c = true) ∧ statement = word ++ rest := by
  obtain ⟨blanks, word, spelled, before, letters, -⟩ := afterSelect?_eq_some_iff.mp h
  refine ⟨blanks ++ word, ?_, spelled.trans (List.append_assoc ..).symm⟩
  refine List.forall_mem_append.mpr ⟨fun c hc => Text.isMute_of_isBlank (before c hc), fun c hc => ?_⟩
  have same : word.map Char.toLower = "select".toList := (beq_iff_eq.mp letters).trans (by decide)
  have lower : c.toLower ∈ "select".toList := same ▸ List.mem_map.mpr ⟨c, hc, rfl⟩
  simp only [isMute, Bool.and_eq_true, bne_iff_ne]
  refine ⟨⟨?_, ?_⟩, ?_⟩ <;> rintro rfl <;> exact absurd lower (by decide)

theorem inert_clauses (p : Page) (noLimit : Option Nat) : ∀ clause ∈ p.clauses noLimit, Inert clause := by
  have numbered {word : String} (hw : Inert word) (n : Nat) : Inert (word ++ Text.natText n) :=
    hw.append (.of_mute (Text.mute_digits n))
  have first (n : Nat) : Inert ("FIRST " ++ Text.natText n) := numbered (by decide) n
  have skip : ∀ clause ∈ (if 0 < p.offset then ["SKIP " ++ Text.natText p.offset] else []), Inert clause := by
    split
    · exact List.forall_mem_singleton.mpr (numbered (by decide) p.offset)
    · exact nofun
  unfold clauses
  dsimp only
  split
  · exact List.forall_mem_cons.mpr ⟨first _, skip⟩
  · split
    · refine List.forall_mem_append.mpr ⟨fun clause hc => ?_, ?_⟩
      · obtain ⟨n, -, rfl⟩ := Option.map_eq_some_iff.mp (Option.mem_toList.mp hc)
        exact first n
      · exact List.forall_mem_singleton.mpr (numbered (by decide) p.offset)
    · exact nofun

variable {p : Page} {noLimit : Option Nat} {ps : List Fragment} {f : Fragment}

/-- The clauses of a page come before all parts of a query. -/
theorem yields_apply (h : Composed ps f) : Yields ps (p.apply noLimit f) := by
  unfold apply
  split
  · exact .unsupported ..
  · next rest selects =>
    dsimp only
    split
    · exact .made h
    · obtain ⟨word, mute, parts⟩ := parts_of_afterSelect selects
      obtain ⟨before, after, hb, ha, trimmed⟩ := Text.trim_parts rest
      let kept : Fragment := ⟨.ofList (Text.trim rest), f.params⟩
      have whole : sql (.ofList (word ++ before)) ++ kept ++ sql (.ofList after) = f := by
        refine Fragment.eq_of_parts (String.toList_injective ?_) (List.append_nil _)
        rw [parts, trimmed]
        simp [kept, sql]
      have cut : Composed ps kept := by
        refine @Composed.cut ps kept (.ofList (word ++ before)) (.ofList after) ?_ ?_ (whole ▸ h)
        · rw [Mute, String.toList_ofList]
          exact List.forall_mem_append.mpr ⟨mute, hb⟩
        · rwa [Mute, String.toList_ofList]
      have opened : Inert ("SELECT " ++ Text.joined " " (p.clauses noLimit) ++ " ") :=
        (Inert.append (by decide) (.joined (by decide) (p.inert_clauses noLimit))).append (by decide)
      exact .made (cut.after opened)

theorem yields_compile (h : Composed ps f) (paired : ∀ p ∈ ps, p.Paired) : Yields ps (p.compile noLimit f) := by
  have applied : Yields ps (p.apply noLimit f) := yields_apply h
  unfold compile
  generalize p.apply noLimit f = result at applied
  cases applied with
  | refused other => exact .refused other
  | @made out composed =>
    change Yields ps (out.validate >>= fun _ => .ok out)
    rw [(composed.paired paired).valid]
    exact .made composed

end Page

namespace SelectItem

variable (e : Engine)

theorem inert_varchar (length : Nat) : Inert (varchar length) :=
  (Inert.append (by decide) (.of_mute (Text.mute_digits _))).append (by decide)

theorem inert_castType (params : List Value) : Inert (castType e params) := by
  unfold castType
  split
  · exact inert_varchar _
  · split
    · split <;> decide
    · decide
    · decide
    · exact (Inert.append (by decide) (.of_mute (Text.mute_digits _))).append (by decide)
    · decide
    · decide
    · decide
    · exact (inert_varchar _).append (by decide)
    · decide
    · exact inert_varchar 1

theorem composed_expression (f : Fragment) : Composed [f] (expression e f) := by
  unfold expression
  split
  · refine (Composed.part f).around (by decide) ?_
    exact (Inert.append (by decide) (inert_castType e f.params)).append (by decide)
  · exact .part f

/-- No double quote stands in the label. -/
def Proper (item : SelectItem) : Prop := ∀ label ∈ item.label, Identifier.Unquoted label

instance (item : SelectItem) : Decidable item.Proper := Option.decidableForallMem item.label

theorem composed_render {item : SelectItem} (proper : item.Proper) : Composed [item.sql] (item.render e) := by
  have expression := composed_expression e item.sql
  unfold render
  split
  · exact expression
  · next label found =>
    have named : Inert (" AS " ++ (Identifier.quote e label).text) :=
      Inert.append (by decide) ((proper label found).inert_quote e)
    exact Fragment.pushSql_eq .. ▸ expression.before named

end SelectItem

namespace SelectQuery

/-- What is written in a query: the items, and what follows them unless it is blank. -/
def parts (q : SelectQuery) : List Fragment := q.columns.map (·.sql) ++ if q.tail.isEmpty then [] else [q.tail]

theorem composed_render (e : Engine) {q : SelectQuery} (proper : ∀ item ∈ q.columns, item.Proper) :
    Composed q.parts (q.render e) := by
  have selects : Inert (if q.distinct then "SELECT DISTINCT " else "SELECT ") := by split <;> decide
  have items := Composed.join (show Inert ", " by decide) q.columns fun item h => item.composed_render e (proper item h)
  rw [← List.map_eq_flatMap] at items
  refine (items.after selects).append ?_
  split
  · exact .text (by decide)
  · exact (Composed.part q.tail).after (by decide)

theorem yields_compile {e : Engine} {noLimit : Option Nat} {q : SelectQuery} (proper : ∀ item ∈ q.columns, item.Proper)
    (paired : ∀ p ∈ q.parts, p.Paired) : Yields q.parts (q.compile e noLimit) := by
  unfold compile
  split
  · exact .unsupported ..
  · exact Page.yields_compile (composed_render e proper) paired

end SelectQuery

/-- One use of what puts fragments together, with what it is given. -/
inductive Assembly where
  | push (f g : Fragment)
  | join (sep : String) (fs : List Fragment)
  | format (pattern : String) (args : List Fragment)
  | castColumn (l : Lookup) (column : Fragment)
  | operatorOn (l : Lookup) (f : Fragment)
  | condition (l : Lookup) (column : Fragment) (right : Operand)
  | extract (part : DatePart) (f : Fragment)
  | truncate (part : DatePart) (target : TruncTarget) (f : Fragment)
  | castToDate (f : Fragment)
  | castToTime (f : Fragment)
  | shift (connector : String) (f : Fragment) (d : Duration)
  | combine (connector : String) (operands : List Fragment)
  | aggregate (name : String) (f : Fragment) (distinct : Bool)
  | function (f : Function)
  | item (i : SelectItem)
  | page (p : Page) (f : Fragment)
  | query (q : SelectQuery)

namespace Assembly

def render (e : Engine) (noLimit : Option Nat) : Assembly → Except Error Fragment
  | .push f g => .ok (f ++ g)
  | .join sep fs => .ok (.join sep fs)
  | .format pattern args => .ok (.format pattern args)
  | .castColumn l column => .ok (l.castColumn column)
  | .operatorOn l f => .ok (l.operatorOn f)
  | .condition l column right => .ok (l.condition column right)
  | .extract part f => .ok (part.extract f)
  | .truncate part target f => part.truncate target f
  | .castToDate f => .ok (Temporal.castToDate f)
  | .castToTime f => .ok (Temporal.castToTime f)
  | .shift connector f d => Interval.shift connector f d
  | .combine connector operands => .ok (Arithmetic.combine connector operands)
  | .aggregate name f distinct => Aggregate.render name f distinct
  | .function f => f.render
  | .item i => .ok (i.render e)
  | .page p f => p.compile noLimit f
  | .query q => q.compile e noLimit

/-- The fragments that are given. -/
def inputs : Assembly → List Fragment
  | .push f g => [f, g]
  | .join _ fs | .format _ fs | .combine _ fs => fs
  | .condition _ column (.expr f) => [column, f]
  | .castColumn _ f | .operatorOn _ f | .condition _ f (.value _) | .extract _ f | .truncate _ _ f | .castToDate f
  | .castToTime f | .shift _ f _ | .aggregate _ f _ | .page _ f => [f]
  | .function f => f.arguments
  | .item i => [i.sql]
  | .query q => q.columns.map (·.sql) ++ [q.tail]

/-- The fragments that are written, in their order and each as often as it is. A value that is compared with is one. -/
def parts : Assembly → List Fragment
  | .condition l column right => l.sides column right
  | .truncate part target f => List.replicate (part.occurrences target) f
  | .query q => q.parts
  | a => a.inputs

/-- The texts that are given have neither quotes nor question marks, nor places for arguments if they get into a
pattern. A pattern has its own places and no placeholders outside of quotes, and an argument for each place. -/
def Proper : Assembly → Prop
  | .join text _ | .combine text _ => Mute text
  | .format pattern args => Fragment.Open none pattern.toList ∧ holes pattern.toList = args.length
  | .aggregate name _ _ => Mute name ∧ holes name.toList = 0
  | .function f => f.Proper
  | .item i => i.Proper
  | .query q => ∀ item ∈ q.columns, item.Proper
  | _ => True

theorem paired_parts {a : Assembly} (inputs : ∀ f ∈ a.inputs, f.Paired) : ∀ p ∈ a.parts, p.Paired := by
  cases a with
  | condition l column right =>
    cases right with
    | expr f => exact inputs
    | value v => exact List.forall_mem_cons.mpr ⟨inputs column List.mem_cons_self,
      List.forall_mem_singleton.mpr (Fragment.paired_param _)⟩
  | truncate part target f =>
    intro p hp
    exact List.eq_of_mem_replicate hp ▸ inputs f List.mem_cons_self
  | query q =>
    intro p hp
    refine inputs p (List.mem_append.mpr ((List.mem_append.mp hp).imp_right fun hp => ?_))
    split at hp
    · cases hp
    · exact hp
  | _ => exact inputs

theorem yields_render {a : Assembly} (e : Engine) (noLimit : Option Nat) (proper : a.Proper)
    (paired : ∀ p ∈ a.parts, p.Paired) : Yields a.parts (a.render e noLimit) := by
  cases a with
  | push f g => exact .made ((Composed.part f).append (.part g))
  | join sep fs => exact .made (.joined proper.inert fs)
  | format pattern args => exact .made (.format proper.1 proper.2)
  | castColumn l column => exact .made (l.composed_castColumn column)
  | operatorOn l f => exact .made (l.composed_operatorOn f)
  | condition l column right => exact .made (l.composed_condition column right)
  | extract part f => exact .made (part.composed_extract f)
  | truncate part target f => exact part.yields_truncate target f
  | castToDate f => exact .made ((Scalar.cast (.operand f) "DATE").composed rfl)
  | castToTime f => exact .made ((Scalar.cast (.operand f) "TIME").composed rfl)
  | shift connector f d => exact Interval.yields_shift connector f d
  | combine connector operands => exact .made (Arithmetic.composed_combine proper operands)
  | aggregate name f distinct => exact Aggregate.yields_render proper.1 proper.2 f distinct
  | function f => exact Function.yields_render proper
  | item i => exact .made (i.composed_render e proper)
  | page p f => exact Page.yields_compile (.part f) paired
  | query q => exact SelectQuery.yields_compile proper paired

/-- Whatever is put together from pairs of placeholders and values has its values in pairs with its placeholders, in
the order in which the parts are written, and is never refused for a mismatch. -/
theorem render_paired (a : Assembly) (e : Engine) (noLimit : Option Nat) (proper : a.Proper)
    (inputs : ∀ f ∈ a.inputs, f.Paired) :
    (∀ f, a.render e noLimit = .ok f → f.Paired ∧ Composed a.parts f ∧ f.params = a.parts.flatMap (·.params)) ∧
      ∀ placeholders values, a.render e noLimit ≠ .error (.parameterMismatch placeholders values) := by
  have parts := paired_parts inputs
  have yields := yields_render e noLimit proper parts
  generalize a.render e noLimit = result at yields
  cases yields with
  | made composed =>
    refine ⟨?_, nofun⟩
    rintro f ⟨⟩
    exact ⟨composed.paired parts, composed, composed.params_eq⟩
  | refused other =>
    refine ⟨nofun, fun placeholders values same => ?_⟩
    exact other placeholders values (Except.error.inj same)

/-- The pages and a note of the books of a year, from the eleventh on. -/
def booksOfYear : SelectQuery where
  distinct := false
  columns := [⟨.sql "\"PAGES\"", none⟩, ⟨.param (.text "new?"), some "note"⟩]
  tail := ⟨"FROM \"BOOK\" WHERE \"TITLE\" <> '?' AND \"YEAR\" = ? ", [.int 2001]⟩
  page := ⟨10, some 5⟩

theorem render_paired_booksOfYear :
    let e : Engine := ⟨⟨3, 0, 5, 0⟩⟩
    let f : Fragment := ⟨"SELECT FIRST 5 SKIP 10 \"PAGES\", CAST(? AS VARCHAR(4)) AS \"NOTE\" FROM \"BOOK\"" ++
      " WHERE \"TITLE\" <> '?' AND \"YEAR\" = ?", [.text "new?", .int 2001]⟩
    (query booksOfYear).render e none = .ok f ∧ f.Paired ∧ Composed (query booksOfYear).parts f := by
  intro e f
  have rendered : (query booksOfYear).render e none = .ok f := by decide +kernel
  have sound := (render_paired (query booksOfYear) e none (show ∀ item ∈ booksOfYear.columns, item.Proper by decide)
    (show ∀ f ∈ booksOfYear.columns.map (·.sql) ++ [booksOfYear.tail], f.Paired by decide)).1 f rendered
  exact ⟨rendered, sound.1, sound.2.1⟩

end Assembly

end FirebirdSql
