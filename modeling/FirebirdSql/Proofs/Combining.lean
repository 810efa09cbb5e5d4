import FirebirdSql.Function
import FirebirdSql.Proofs.Formula.Evaluation
import FirebirdSql.Temporal.Extract

/-!
Expressions combined from columns, parameters and extracted parts, and what the engine reads in their text. Operands are
joined as they are, so an operation is the one that was meant exactly if its operands hold together without parentheses.
-/

namespace FirebirdSql

open Formula (Spells Divides Meaning)
open Fragment (sql join)

inductive Connector where
  | add
  | sub
  | mul
  | div
  | power
  | modulo
  | bitAnd
  | bitOr
  | bitXor
  | shiftLeft
  | shiftRight
  deriving DecidableEq, Repr

namespace Connector

def text : Connector → String
  | .add => "+"
  | .sub => "-"
  | .mul => "*"
  | .div => "/"
  | .power => "^"
  | .modulo => "%"
  | .bitAnd => "&"
  | .bitOr => "|"
  | .bitXor => "#"
  | .shiftLeft => "<<"
  | .shiftRight => ">>"

/-- What stands between the operands; those of a function are its arguments. -/
def operator : Connector → Operator
  | .add => .add
  | .sub => .sub
  | .mul => .mul
  | .div => .div
  | _ => .comma

/-- The function that the operands are the arguments of. -/
def function? : Connector → Option String
  | .power => some "POWER"
  | .modulo => some "MOD"
  | .bitAnd => some "BIN_AND"
  | .bitOr => some "BIN_OR"
  | .bitXor => some "BIN_XOR"
  | .shiftLeft => some "BIN_SHL"
  | .shiftRight => some "BIN_SHR"
  | _ => none

theorem combine_of_operator {c : Connector} (h : c.function? = none) (fs : List Fragment) :
    Arithmetic.combine c.text fs = join (" " ++ c.text ++ " ") fs ∧ Divides (" " ++ c.text ++ " ").toList c.operator := by
  cases c <;> cases h <;> exact ⟨rfl, .symbol (by decide)⟩

theorem combine_of_function {c : Connector} {function : String} (h : c.function? = some function) (fs : List Fragment) :
    Arithmetic.combine c.text fs = Function.call function fs ∧ Divides ", ".toList c.operator ∧
      Formula.State.IsWord function.toList := by
  cases c <;> cases h <;> exact ⟨rfl, .comma, by decide⟩

end Connector

mutual

/-- An expression of columns and bound parameters. -/
inductive Combined where
  | column (name : String)
  | param (v : Value)
  | combine (c : Connector) (first : Combined) (rest : Operands)
  | extract (part : DatePart) (e : Combined)

inductive Operands where
  | nil
  | cons (e : Combined) (rest : Operands)

end

mutual

/-- The text of an expression, with its parameters. -/
def Combined.fragment : Combined → Fragment
  | .column name => sql (Identifier.ofStored name).text
  | .param v => .param v
  | .combine c first rest => Arithmetic.combine c.text (first.fragment :: rest.fragments)
  | .extract part e => part.extract e.fragment

def Operands.fragments : Operands → List Fragment
  | .nil => []
  | .cons e rest => e.fragment :: rest.fragments

end

/-- The value of a part of a date, where the fields of the engine are given: Sunday is its week day zero. -/
def DatePart.valued (M : Meaning V) (part : DatePart) (v : V) : V :=
  let field (name : String) := M.call "EXTRACT".toList (M.operation .ofField (M.word name.toList) v)
  match part with
  | .weekDay => M.operation .add (field "WEEKDAY") (M.number 1)
  | .quarter => M.operation .div (M.operation .add (field "MONTH") (M.number 2)) (M.number 3)
  | part => field part.keyword

mutual

/-- The value of an expression: each operand is one value. -/
def Combined.value (M : Meaning V) : Combined → V
  | .column name => M.column name.toList
  | .param v => M.bound v
  | .combine c first rest =>
    let operands := (rest.values M).foldl (M.operation c.operator) (first.value M)
    match c.function? with
    | none => operands
    | some function => M.call function.toList operands
  | .extract part e => part.valued M (e.value M)

def Operands.values (M : Meaning V) : Operands → List V
  | .nil => []
  | .cons e rest => e.value M :: rest.values M

end

/-- How tightly the text of an expression holds together. -/
def Combined.level : Combined → Nat
  | .combine c first rest =>
    match c.function?, rest with
    | none, .nil => first.level
    | none, .cons _ _ => c.operator.level
    | some _, _ => 5
  | .extract .weekDay _ => 1
  | _ => 5

mutual

/-- The operands of every operation hold together for it: the first at least as tightly as the operator binds, and the
others more tightly. -/
def Combined.Grouped : Combined → Prop
  | .column _ | .param _ => True
  | .combine c first rest =>
    (rest = .nil ∨ c.operator.level ≤ first.level) ∧ first.Grouped ∧ rest.Grouped c.operator.level
  | .extract _ e => e.Grouped

def Operands.Grouped (k : Nat) : Operands → Prop
  | .nil => True
  | .cons e rest => k < e.level ∧ e.Grouped ∧ rest.Grouped k

end

mutual

/-- The formula of an expression. -/
def Combined.formula : Combined → Formula
  | .column name => .column name.toList
  | .param v => .bound v
  | .combine c first rest =>
    let operands := rest.formulas.foldl (.binary c.operator) first.formula
    match c.function? with
    | none => operands
    | some function => .call function.toList operands
  | .extract part e => (part.extraction e.formula).formula id

def Operands.formulas : Operands → List Formula
  | .nil => []
  | .cons e rest => e.formula :: rest.formulas

end

/-! What is read -/

theorem DatePart.spells_extract (part : DatePart) {f : Fragment} {e : Formula} (h : Spells f e) :
    Spells (part.extract f) ((part.extraction e).formula id) := by
  have legible : (part.extraction f).Legible fun _ => e := by
    cases part with
    | weekDay => exact ⟨⟨by decide, h⟩, trivial⟩
    | quarter => exact ⟨⟨⟨by decide, h⟩, trivial⟩, trivial⟩
    | _ => exact ⟨by decide, h⟩
  have formula : (part.extraction f).formula (fun _ => e) = (part.extraction e).formula id := by
    cases part <;> rfl
  exact formula ▸ Scalar.spells_render legible

mutual

theorem Combined.spells : (t : Combined) → Spells t.fragment t.formula
  | .column name => .column name
  | .param v => .param v
  | .combine c first rest => by
    unfold Combined.fragment Combined.formula
    dsimp only
    split
    · next none =>
      obtain ⟨combined, divides⟩ := Connector.combine_of_operator none (first.fragment :: rest.fragments)
      rw [combined]
      exact .joined divides first.spells rest.spells
    · next function named =>
      obtain ⟨combined, divides, word⟩ := Connector.combine_of_function named (first.fragment :: rest.fragments)
      rw [combined, Function.call, Fragment.sql_append]
      exact (Spells.joined divides first.spells rest.spells).call function word
  | .extract part e => part.spells_extract e.spells

theorem Operands.spells : (es : Operands) → List.Forall₂ Spells es.fragments es.formulas
  | .nil => .nil
  | .cons e rest => .cons e.spells rest.spells

end

/-! Its value -/

theorem Formula.value_foldl (M : Meaning V) (op : Operator) (es : List Formula) (e : Formula) :
    (es.foldl (.binary op) e).value M = (es.map (Formula.value M)).foldl (M.operation op) (e.value M) := by
  induction es generalizing e with
  | nil => rfl
  | cons x es ih => exact ih _

theorem DatePart.value_extraction (M : Meaning V) (part : DatePart) (e : Formula) :
    ((part.extraction e).formula id).value M = part.valued M (e.value M) := by
  cases part <;> rfl

mutual

theorem Combined.value_formula (M : Meaning V) : (t : Combined) → t.formula.value M = t.value M
  | .column _ | .param _ => rfl
  | .combine c first rest => by
    have operands : (rest.formulas.foldl (.binary c.operator) first.formula).value M =
        (rest.values M).foldl (M.operation c.operator) (first.value M) := by
      rw [Formula.value_foldl, first.value_formula M, rest.map_value_formulas M]
    unfold Combined.formula Combined.value
    dsimp only
    split
    · exact operands
    · next function named =>
      have nonempty : function.toList ≠ [] := (Connector.combine_of_function named []).2.2.1
      rw [Formula.value, if_neg nonempty, operands]
  | .extract part e => by
    rw [Combined.formula, Combined.value, part.value_extraction, e.value_formula M]

theorem Operands.map_value_formulas (M : Meaning V) : (es : Operands) → es.formulas.map (Formula.value M) = es.values M
  | .nil => rfl
  | .cons e rest => congrArg₂ List.cons (e.value_formula M) (rest.map_value_formulas M)

end

/-! Its grouping -/

theorem Formula.level_foldl (op : Operator) (es : List Formula) (e : Formula) :
    (es.foldl (.binary op) e).level = if es = [] then e.level else op.level := by
  induction es generalizing e with
  | nil => rfl
  | cons x es ih =>
    rw [List.foldl_cons, ih, if_neg (List.cons_ne_nil x es)]
    exact ite_self _

/-- Operands that are grouped from the left. -/
theorem Formula.grouped_foldl (op : Operator) (es : List Formula) (e : Formula) :
    (es.foldl (.binary op) e).Grouped ↔
      (es = [] ∨ op.level ≤ e.level) ∧ e.Grouped ∧ ∀ x ∈ es, op.level < x.level ∧ x.Grouped := by
  induction es generalizing e with
  | nil => simp
  | cons x es ih =>
    rw [List.foldl_cons, ih, List.forall_mem_cons]
    simp only [Formula.level, Formula.Grouped, le_refl, or_true, true_and, List.cons_ne_nil, false_or]
    tauto

theorem DatePart.level_extraction (part : DatePart) (e : Formula) :
    ((part.extraction e).formula id).level = if part = .weekDay then 1 else 5 := by
  cases part <;> rfl

theorem DatePart.grouped_extraction (part : DatePart) {e : Formula} (h : 0 < e.level) :
    ((part.extraction e).formula id).Grouped ↔ e.Grouped := by
  have field (w : List Char) : (Formula.call "EXTRACT".toList (.binary .ofField (.word w) e)).Grouped ↔ e.Grouped :=
    ⟨fun grouped => grouped.2.2.2, fun grouped => ⟨Nat.zero_le _, h, trivial, grouped⟩⟩
  cases part with
  | weekDay =>
    refine Iff.trans ?_ (field "WEEKDAY".toList)
    exact ⟨fun grouped => grouped.2.2.1, fun grouped => ⟨Nat.le_add_left 1 4, Nat.le_add_left 2 3, grouped, trivial⟩⟩
  | quarter =>
    refine Iff.trans ?_ (field "MONTH".toList)
    exact ⟨fun grouped => grouped.2.2.1.2.2.1, fun grouped => ⟨Nat.le_add_left 2 3, Nat.le_add_left 3 2,
      ⟨Nat.le_add_left 1 4, Nat.le_add_left 2 3, grouped, trivial⟩, trivial⟩⟩
  | _ => exact field _

theorem Operands.formulas_eq_nil {es : Operands} : es.formulas = [] ↔ es = .nil := by
  cases es <;> simp [formulas]

theorem Combined.level_formula : (t : Combined) → t.formula.level = t.level
  | .column _ | .param _ => rfl
  | .combine c first .nil => by
    unfold formula level
    cases c.function? with
    | none => exact first.level_formula
    | some function => rfl
  | .combine c first (.cons e rest) => by
    unfold formula level
    cases c.function? with
    | none => exact (Formula.level_foldl ..).trans (if_neg (List.cons_ne_nil _ _))
    | some function => rfl
  | .extract part e => by
    rw [formula, part.level_extraction]
    cases part <;> rfl

theorem Combined.level_pos : (t : Combined) → 0 < t.level
  | .column _ | .param _ => Nat.zero_lt_succ 4
  | .combine c first .nil => by
    unfold level
    cases c <;> first | exact Nat.zero_lt_succ 4 | exact first.level_pos
  | .combine c first (.cons e rest) => by
    unfold level
    cases c <;> exact Nat.zero_lt_succ _
  | .extract part e => by
    cases part <;> exact Nat.zero_lt_succ _

mutual

theorem Combined.grouped_formula : (t : Combined) → (t.formula.Grouped ↔ t.Grouped)
  | .column _ | .param _ => Iff.rfl
  | .combine c first rest => by
    have operands : (rest.formulas.foldl (.binary c.operator) first.formula).Grouped ↔
        (Combined.combine c first rest).Grouped := by
      rw [Formula.grouped_foldl, first.grouped_formula, first.level_formula, rest.grouped_formulas,
        Operands.formulas_eq_nil, Combined.Grouped]
    unfold Combined.formula
    dsimp only
    split <;> exact operands
  | .extract part e => by
    rw [Combined.formula, part.grouped_extraction (e.level_formula ▸ e.level_pos)]
    exact e.grouped_formula

theorem Operands.grouped_formulas (k : Nat) : (es : Operands) →
    ((∀ x ∈ es.formulas, k < x.level ∧ x.Grouped) ↔ es.Grouped k)
  | .nil => by simp [Operands.formulas, Operands.Grouped]
  | .cons e rest => by
    rw [Operands.formulas, List.forall_mem_cons, Operands.Grouped, rest.grouped_formulas k, e.grouped_formula,
      e.level_formula, and_assoc]

end

/-- The text of every expression is read, and what is read has the value of the expression, whatever its parts mean,
exactly if its operands hold together. -/
theorem Combined.value_read_iff (t : Combined) : ∃ e, Formula.read? t.fragment = some e ∧
    ((∀ (V : Type) (M : Meaning V), e.value M = t.value M) ↔ t.Grouped) := by
  refine ⟨t.formula.regroup, t.spells.read?, ?_⟩
  rw [← t.grouped_formula, ← Formula.value_regroup_iff]
  simp only [t.value_formula]

/-- A week day and a sum are taken apart by the product that they are operands of. -/
theorem Combined.product_takes_apart :
    let thursday : Date := ⟨2024, 2, 29⟩
    let row (name : List Char) : Option Datum :=
      [("A".toList, .int 1), ("B".toList, .int 2), ("C".toList, .int 3), ("D".toList, .date thursday)].lookup name
    let product (e : Combined) : Combined := .combine .mul e (.cons (.column "C") .nil)
    let weekDay := product (.extract .weekDay (.column "D"))
    let sum := product (.combine .add (.column "A") (.cons (.column "B") .nil))
    weekDay.fragment = sql "EXTRACT(WEEKDAY FROM \"D\") + 1 * \"C\"" ∧
      weekDay.fragment.eval? row = some (.int 7) ∧ weekDay.value (Datum.meaning row) = some (.int 15) ∧
      sum.fragment = sql "\"A\" + \"B\" * \"C\"" ∧
      sum.fragment.eval? row = some (.int 7) ∧ sum.value (Datum.meaning row) = some (.int 9) := by
  decide +kernel

end FirebirdSql
