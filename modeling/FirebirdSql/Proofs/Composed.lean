import FirebirdSql.Function
import FirebirdSql.Proofs.Inert
import FirebirdSql.Scalar

/-!
Fragments that are put together from others. Between the parts there is only text that a scan passes over, so the
placeholders are those of the parts, one part after the other, and so are the values.
-/

namespace FirebirdSql

namespace Fragment

theorem eq_of_parts {f g : Fragment} (template : f.template = g.template) (params : f.params = g.params) : f = g := by
  cases f
  cases g
  exact mk.injEq .. |>.mpr ⟨template, params⟩

theorem append_assoc (f g h : Fragment) : f ++ g ++ h = f ++ (g ++ h) :=
  eq_of_parts String.append_assoc (List.append_assoc ..)

theorem sql_append (s t : String) : sql (s ++ t) = sql s ++ sql t := rfl

theorem pushSql_eq (f : Fragment) (s : String) : f.pushSql s = f ++ sql s :=
  eq_of_parts rfl (List.append_nil _).symm

theorem append_empty (f : Fragment) : f ++ empty = f := eq_of_parts String.append_empty (List.append_nil _)

theorem empty_append (f : Fragment) : empty ++ f = f := eq_of_parts String.empty_append rfl

/-- Every placeholder has its value, and the template ends outside of quotes. -/
structure Paired (f : Fragment) : Prop where
  valid : f.validate = .ok ()
  closed : scan none f.template.toList = none

theorem paired_iff {f : Fragment} :
    f.Paired ↔ countFrom none f.template.toList = f.params.length ∧ scan none f.template.toList = none :=
  ⟨fun h => ⟨validate_iff.mp h.valid, h.closed⟩, fun h => ⟨validate_iff.mpr h.1, h.2⟩⟩

instance (f : Fragment) : Decidable f.Paired := decidable_of_iff _ paired_iff.symm

theorem Inert.paired {text : String} (h : Inert text) : (sql text).Paired := ⟨h.validate, h.closed⟩

theorem paired_param (v : Value) : (param v).Paired :=
  paired_iff.mpr ⟨show countFrom none "?".toList = 1 by decide, show scan none "?".toList = none by decide⟩

theorem Paired.append {f g : Fragment} (hf : f.Paired) (hg : g.Paired) : (f ++ g).Paired := by
  obtain ⟨count, closed⟩ := paired_iff.mp hf
  obtain ⟨count', closed'⟩ := paired_iff.mp hg
  rw [paired_iff, append_template, append_params, String.toList_append, countFrom_append, scan_append, closed, closed',
    count, count', List.length_append]
  exact ⟨rfl, rfl⟩

/-- Mute text: it has neither quotes nor question marks. -/
def Mute (text : String) : Prop := ∀ c ∈ text.toList, isMute c = true

instance (text : String) : Decidable (Mute text) := List.decidableBAll _ text.toList

theorem Mute.inert {text : String} (h : Mute text) : Inert text := by
  have := Inert.of_mute h
  rwa [String.ofList_toList] at this

theorem Mute.append {s t : String} (hs : Mute s) (ht : Mute t) : Mute (s ++ t) := by
  rw [Mute, String.toList_append]
  exact List.forall_mem_append.mpr ⟨hs, ht⟩

/-- Mute text that is cut off at both ends takes nothing away from the pairing. -/
theorem Paired.of_cut {before after : String} {f : Fragment} (hb : Mute before) (ha : Mute after)
    (h : (sql before ++ f ++ sql after).Paired) : f.Paired := by
  have spelled : (sql before ++ f ++ sql after).template.toList =
      before.toList ++ (f.template.toList ++ after.toList) := by
    rw [append_template, append_template, String.toList_append, String.toList_append, List.append_assoc]
    rfl
  have values : (sql before ++ f ++ sql after).params = f.params := List.append_nil _
  obtain ⟨count, closed⟩ := paired_iff.mp h
  rw [spelled] at count closed
  rw [quotes_none.countFrom_between (List.all_eq_true.mpr hb) (List.all_eq_true.mpr ha), values] at count
  rw [scan_append, hb.inert.closed, scan_append] at closed
  refine paired_iff.mpr ⟨count, ?_⟩
  rwa [(quotes_none.scan _).scan_of_mute ha] at closed

/-- The fragment is made of parts in this order, with text between them that a scan passes over. -/
inductive Composed : List Fragment → Fragment → Prop where
  | text {s : String} (h : Inert s) : Composed [] (sql s)
  | part (f : Fragment) : Composed [f] f
  | append {ps qs : List Fragment} {f g : Fragment} (hf : Composed ps f) (hg : Composed qs g) :
    Composed (ps ++ qs) (f ++ g)
  /-- Mute text is cut off at both ends. -/
  | cut {ps : List Fragment} {f : Fragment} {before after : String} (hb : Mute before) (ha : Mute after)
    (h : Composed ps (sql before ++ f ++ sql after)) : Composed ps f

namespace Composed

variable {ps qs : List Fragment} {f g : Fragment} {s t : String}

/-- What is made of parts that are paired is paired. -/
theorem paired (h : Composed ps f) (parts : ∀ p ∈ ps, p.Paired) : f.Paired := by
  induction h with
  | text inert => exact inert.paired
  | part f => exact parts f List.mem_cons_self
  | append _ _ ihf ihg =>
    obtain ⟨left, right⟩ := List.forall_mem_append.mp parts
    exact (ihf left).append (ihg right)
  | cut hb ha _ ih => exact (ih parts).of_cut hb ha

/-- It has the values of its parts, in their order. -/
theorem params_eq (h : Composed ps f) : f.params = ps.flatMap (·.params) := by
  induction h with
  | text => rfl
  | part f => exact (List.append_nil f.params).symm
  | append _ _ ihf ihg => rw [append_params, ihf, ihg, List.flatMap_append]
  | cut _ _ _ ih => exact (List.append_nil _).symm.trans ih

theorem after (hs : Inert s) (h : Composed ps f) : Composed ps (sql s ++ f) := (text hs).append h

theorem before (h : Composed ps f) (hs : Inert s) : Composed ps (f ++ sql s) := by
  have := h.append (text hs)
  rwa [List.append_nil] at this

theorem around (hs : Inert s) (h : Composed ps f) (ht : Inert t) : Composed ps (sql s ++ f ++ sql t) :=
  (h.after hs).before ht

theorem between (hf : Composed ps f) (hs : Inert s) (hg : Composed qs g) : Composed (ps ++ qs) (f ++ sql s ++ g) :=
  (hf.before hs).append hg

/-- Fragments that are composed themselves, joined. -/
theorem join {α : Type} {sep : String} (hs : Inert sep) {parts : α → List Fragment} {render : α → Fragment}
    (as : List α) (h : ∀ a ∈ as, Composed (parts a) (render a)) :
    Composed (as.flatMap parts) (Fragment.join sep (as.map render)) := by
  induction as with
  | nil => exact text ⟨rfl, rfl⟩
  | cons a as ih =>
    have head := h a List.mem_cons_self
    cases as with
    | nil =>
      rw [List.flatMap_cons, List.flatMap_nil, List.append_nil]
      exact head
    | cons b as => exact head.between hs (ih fun c hc => h c (List.mem_cons_of_mem a hc))

theorem joined {sep : String} (hs : Inert sep) (fs : List Fragment) : Composed fs (Fragment.join sep fs) := by
  have each : Composed (fs.flatMap fun f => [f]) (Fragment.join sep (fs.map id)) := join hs fs fun f _ => part f
  rwa [List.flatMap_singleton', List.map_id] at each

end Composed

/-! Patterns -/

/-- The number of places for arguments in a pattern. -/
def holes : List Char → Nat
  | [] => 0
  | '\x7b' :: '\x7d' :: rest => holes rest + 1
  | _ :: rest => holes rest

/-- No hole begins at the first character, which `c` is. -/
def NoHole (c : Char) (rest : List Char) : Prop := ∀ after, c = '\x7b' → rest = '\x7d' :: after → False

theorem holes_cons {c : Char} {s : List Char} (h : NoHole c s) : holes (c :: s) = holes s := by
  rw [holes]
  exact h

theorem fill_cons {c : Char} {s : List Char} (h : NoHole c s) (args : List Fragment) :
    fill (c :: s) args = sql (.singleton c) ++ fill s args := by
  rw [fill]
  exact h

/-- A brace that a text ends in makes no hole with what comes after. -/
theorem noHole_append {c : Char} {s rest : List Char} (h : NoHole c s)
    (apart : (c :: s).getLast? ≠ some '\x7b' ∨ rest.head? ≠ some '\x7d') : NoHole c (s ++ rest) := by
  intro after hc hrest
  cases s with
  | nil =>
    rcases apart with last | head
    · exact last (congrArg some hc)
    · exact head (congrArg List.head? hrest)
  | cons d s => exact h s hc (congrArg (· :: s) (List.cons.inj hrest).1)

theorem holes_append {s rest : List Char} (apart : s.getLast? ≠ some '\x7b' ∨ rest.head? ≠ some '\x7d') :
    holes (s ++ rest) = holes s + holes rest := by
  induction s using holes.induct with
  | case1 => exact (Nat.zero_add _).symm
  | case2 s ih =>
    have apart : s.getLast? ≠ some '\x7b' ∨ rest.head? ≠ some '\x7d' := by
      refine apart.imp_left fun last => ?_
      cases s with
      | nil => exact nofun
      | cons c s => rwa [List.getLast?_cons_cons, List.getLast?_cons_cons] at last
    change holes (s ++ rest) + 1 = holes s + 1 + holes rest
    rw [ih apart, Nat.add_right_comm]
  | case3 c s none ih =>
    rw [List.cons_append, holes_cons (noHole_append none apart), holes_cons none]
    refine ih (apart.imp_left fun last => ?_)
    cases s with
    | nil => exact nofun
    | cons d s => rwa [List.getLast?_cons_cons] at last

/-- Read from `q` on, the pattern closes its quotes, and has its holes, and no placeholder, outside of quotes. -/
def Open (q : Quote) : List Char → Prop
  | [] => q = none
  | '\x7b' :: '\x7d' :: rest => q = none ∧ Open none rest
  | c :: rest => isPlaceholder q c = false ∧ Open (step q c) rest

theorem open_cons {q : Quote} {c : Char} {s : List Char} (h : NoHole c s) :
    Open q (c :: s) ↔ isPlaceholder q c = false ∧ Open (step q c) s := by
  rw [Open]
  exact h

theorem open_of_mute {s : List Char} (h : ∀ c ∈ s, isMute c = true) : Open none s := by
  induction s using holes.induct with
  | case1 => exact rfl
  | case2 rest ih => exact ⟨rfl, ih fun c hc => h c (List.mem_cons_of_mem _ (List.mem_cons_of_mem _ hc))⟩
  | case3 c rest other ih =>
    have mute := h c List.mem_cons_self
    refine (open_cons other).mpr ⟨?_, ?_⟩
    · simp only [isMute, Bool.and_eq_true, bne_iff_ne] at mute
      simp [isPlaceholder, mute]
    · rw [quotes_none.step_of_mute mute]
      exact ih fun d hd => h d (List.mem_cons_of_mem c hd)

/-- What is filled in is composed of the arguments, if there is one for each hole. The text before the first hole is
what was read of the pattern so far. -/
theorem composed_fill {q : Quote} {read pattern : List Char} {args : List Fragment} (isOpen : Open q pattern)
    (full : holes pattern = args.length) (silent : countFrom none read = 0) (reached : scan none read = q) :
    Composed args (sql (.ofList read) ++ fill pattern args) := by
  induction pattern, args using fill.induct generalizing q read with
  | case1 args =>
    obtain rfl := List.eq_nil_of_length_eq_zero full.symm
    rw [fill, append_empty]
    refine .text ⟨?_, ?_⟩
    · rwa [String.toList_ofList]
    · rw [String.toList_ofList, reached]
      exact isOpen
  | case2 rest args ih =>
    obtain ⟨rfl, isOpen⟩ := isOpen
    cases args with
    | nil => cases full
    | cons arg args =>
      have rest : Composed args (sql (.ofList []) ++ fill rest args) := ih isOpen (Nat.succ.inj full) rfl rfl
      rw [show sql (String.ofList []) = empty from rfl, empty_append] at rest
      have read : Inert (.ofList read) :=
        ⟨by rwa [String.toList_ofList], by rwa [String.toList_ofList]⟩
      exact ((Composed.part arg).append rest).after read
  | case3 c rest args other ih =>
    obtain ⟨quiet, isOpen⟩ := (open_cons other).mp isOpen
    rw [fill_cons other, ← append_assoc, ← sql_append,
      show String.ofList read ++ String.singleton c = .ofList (read ++ [c]) by simp]
    refine ih isOpen (holes_cons other ▸ full) ?_ ?_
    · rw [countFrom_append, silent, reached, countFrom, quiet]
      rfl
    · rw [scan_append, reached]
      rfl

theorem Composed.format {pattern : String} {args : List Fragment} (isOpen : Open none pattern.toList)
    (full : holes pattern.toList = args.length) : Composed args (format pattern args) := by
  have filled := @composed_fill none [] pattern.toList args isOpen full rfl rfl
  rwa [show sql (String.ofList []) = empty from rfl, empty_append] at filled

end Fragment

namespace Scalar

open Fragment (Composed Inert sql)

/-- What the expression is built around, in the order in which it is written. -/
def operands {α : Type} : Scalar α → List α
  | .operand a => [a]
  | .text _ | .number _ => []
  | .negative e | .group e | .extract _ e | .cast e _ | .call _ e => e.operands
  | .binary _ l r | .dateAdd l _ r | .call₂ _ l r => l.operands ++ r.operands
  | .call₃ _ a b c => a.operands ++ b.operands ++ c.operands

/-- The names in the expression are texts that a scan passes over. -/
def isSpelled {α : Type} : Scalar α → Bool
  | .operand _ | .text _ | .number _ => true
  | .negative e | .group e => e.isSpelled
  | .binary _ l r => l.isSpelled && r.isSpelled
  | .extract name e | .cast e name | .call name e => decide (Inert name) && e.isSpelled
  | .dateAdd l name r | .call₂ name l r => decide (Inert name) && (l.isSpelled && r.isSpelled)
  | .call₃ name a b c => decide (Inert name) && (a.isSpelled && b.isSpelled && c.isSpelled)

theorem composed (e : Scalar Fragment) (h : e.isSpelled = true) : Composed e.operands e.render := by
  induction e with
  | operand f => exact .part f
  | text s => exact .text (Literal.inert_quoteText _)
  | number n => exact .text (.of_mute (Text.mute_digits n))
  | negative e ih => exact (ih h).after (by decide)
  | group e ih => exact (ih h).around (by decide) (by decide)
  | binary op l r ihl ihr =>
    obtain ⟨hl, hr⟩ := Bool.and_eq_true_iff.mp h
    refine (ihl hl).between ?_ (ihr hr)
    cases op with
    | concat spaced => cases spaced <;> decide
    | _ => decide
  | extract field e ih =>
    obtain ⟨name, he⟩ := Bool.and_eq_true_iff.mp h
    have opened : Inert ("EXTRACT(" ++ field ++ " FROM ") :=
      (Inert.append (by decide) (of_decide_eq_true name)).append (by decide)
    exact (ih he).around opened (by decide)
  | cast e type ih =>
    obtain ⟨name, he⟩ := Bool.and_eq_true_iff.mp h
    exact ((((ih he).after (by decide)).before (by decide)).before (of_decide_eq_true name)).before (by decide)
  | dateAdd l unit r ihl ihr =>
    simp only [isSpelled, Bool.and_eq_true] at h
    obtain ⟨name, hl, hr⟩ := h
    have opened : Inert "DATEADD(" := by decide
    have added : Inert " " := by decide
    have shifted : Inert " TO " := by decide
    have amount := ((((ihl hl).after opened).before added).before (of_decide_eq_true name)).before shifted
    exact (amount.append (ihr hr)).before (by decide)
  | call function e ih =>
    obtain ⟨name, he⟩ := Bool.and_eq_true_iff.mp h
    have opened : Inert (function ++ "(") := (of_decide_eq_true name : Inert function).append (by decide)
    exact (ih he).around opened (by decide)
  | call₂ function a b iha ihb =>
    simp only [isSpelled, Bool.and_eq_true] at h
    obtain ⟨name, ha, hb⟩ := h
    have opened : Inert (function ++ "(") := (of_decide_eq_true name : Inert function).append (by decide)
    exact (((iha ha).after opened).between (by decide) (ihb hb)).before (by decide)
  | call₃ function a b c iha ihb ihc =>
    simp only [isSpelled, Bool.and_eq_true] at h
    obtain ⟨name, ⟨ha, hb⟩, hc⟩ := h
    have opened : Inert (function ++ "(") := (of_decide_eq_true name : Inert function).append (by decide)
    exact ((((iha ha).after opened).between (by decide) (ihb hb)).between (by decide) (ihc hc)).before (by decide)

end Scalar

end FirebirdSql
