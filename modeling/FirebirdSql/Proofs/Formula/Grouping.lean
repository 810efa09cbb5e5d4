import FirebirdSql.Value

/-!
Formulas, and how operators group their operands: the tighter one first, and from the left among those that bind alike.
Written out without parentheses and grouped anew, a formula has the value that it had under every meaning exactly if
parentheses stand wherever an operand binds less than its place needs.
-/

namespace FirebirdSql

/-- What stands between two operands. What divides the arguments of a call binds least. -/
inductive Operator where
  | comma
  | ofField
  | asType
  | toward (unit : List Char)
  | add
  | sub
  | mul
  | div
  | concat
  deriving DecidableEq, Repr

/-- The greater the level, the tighter the operator binds. -/
def Operator.level : Operator → Nat
  | .comma | .ofField | .asType | .toward _ => 0
  | .add | .sub => 1
  | .mul | .div => 2
  | .concat => 3

theorem Operator.level_le (op : Operator) : op.level ≤ 3 := by
  cases op with
  | toward unit => exact Nat.zero_le 3
  | _ => decide

inductive Formula where
  | column (name : List Char)
  | bound (v : Value)
  | number (n : Nat)
  | text (s : List Char)
  /-- A bare word: a field, a type. -/
  | word (w : List Char)
  | negative (e : Formula)
  | binary (op : Operator) (l r : Formula)
  /-- A function and what stands in its parentheses; mere parentheses have no function. -/
  | call (function : List Char) (e : Formula)
  deriving DecidableEq

namespace Formula

/-! Values -/

/-- What the parts of a formula mean. -/
structure Meaning (V : Type) where
  column : List Char → V
  bound : Value → V
  number : Nat → V
  text : List Char → V
  word : List Char → V
  negative : V → V
  operation : Operator → V → V → V
  call : List Char → V → V

/-- The value of a formula; parentheses have that of what is in them. -/
def value (M : Meaning V) : Formula → V
  | .column name => M.column name
  | .bound v => M.bound v
  | .number n => M.number n
  | .text s => M.text s
  | .word w => M.word w
  | .negative e => M.negative (e.value M)
  | .binary op l r => M.operation op (l.value M) (r.value M)
  | .call function e => if function = [] then e.value M else M.call function (e.value M)

/-- The meaning that makes formulas out of formulas. -/
def plain : Meaning Formula := ⟨.column, .bound, .number, .text, .word, .negative, .binary, .call⟩

/-- The formula without its parentheses. -/
def bare : Formula → Formula := value plain

/-! Grouping anew -/

/-- What waits for its operand on the right. -/
inductive Pending where
  | left (l : Formula) (op : Operator)
  | minus

namespace Pending

def level : Pending → Nat
  | left _ op => op.level
  | minus => 4

/-- The operation with its operand. -/
def give : Pending → Formula → Formula
  | left l op, x => .binary op l x
  | minus, x => .negative x

end Pending

/-- Gives an operand to what waits for it and binds at least as tightly as an operator of level `k` that comes next. -/
def settle (k : Nat) : List Pending → Formula → List Pending × Formula
  | [], x => ([], x)
  | p :: rest, x => if k ≤ p.level then settle k rest (p.give x) else (p :: rest, x)

/-- What waits after an operator. -/
def push (op : Operator) (pending : List Pending) (x : Formula) : List Pending :=
  .left (settle op.level pending x).2 op :: (settle op.level pending x).1

/-- The operand when nothing comes any more. -/
def finish (s : List Pending × Formula) : Formula := (settle 0 s.1 s.2).2

/-- What waits, and the last operand, once the formula is written after what waits. -/
def feed : Formula → List Pending → List Pending × Formula
  | .binary op l r, pending => r.feed (push op (l.feed pending).1 (l.feed pending).2)
  | .negative e, pending => e.feed (.minus :: pending)
  | .call function e, pending => (pending, .call function (finish (e.feed [])))
  | e, pending => (pending, e)

/-- The formula as it is grouped when it is written out with no parentheses but its own. -/
def regroup (e : Formula) : Formula := finish (e.feed [])

/-- How tightly a formula holds together. -/
def level : Formula → Nat
  | .binary op _ _ => op.level
  | .negative _ => 4
  | _ => 5

/-- Every operand holds together as tightly as its place needs. -/
def Grouped : Formula → Prop
  | .binary op l r => op.level ≤ l.level ∧ op.level < r.level ∧ l.Grouped ∧ r.Grouped
  | .negative e => 4 ≤ e.level ∧ e.Grouped
  | .call _ e => e.Grouped
  | _ => True

variable {e u v x : Formula} {pending : List Pending} {k : Nat} {op : Operator}

/-- An operand of level `k` is not taken apart by what waits before it. -/
def Pending.Stops (k : Nat) : Pending → Prop
  | left _ op => op.level < k
  | minus => 4 ≤ k

theorem Pending.Stops.mono {p : Pending} {j : Nat} (h : p.Stops k) (le : k ≤ j) : p.Stops j := by
  cases p with
  | left l op => exact Nat.lt_of_lt_of_le h le
  | minus => exact Nat.le_trans h le

theorem Pending.Stops.of_lt {p : Pending} (h : p.level < k) : p.Stops k := by
  cases p with
  | left l op => exact h
  | minus => exact Nat.le_of_lt h

theorem settle_of_stops (h : ∀ p ∈ pending.head?, p.Stops op.level) (x : Formula) :
    settle op.level pending x = (pending, x) := by
  cases pending with
  | nil => rfl
  | cons p rest =>
    have stops := h p rfl
    refine if_neg ?_
    cases p with
    | left l op' => exact Nat.not_le_of_lt stops
    | minus => exact absurd stops (by have := op.level_le; simp only [Pending.Stops]; omega)

/-- A grouped formula after what stops before it is one operand. -/
theorem settle_feed (grouped : e.Grouped) (hk : k ≤ e.level) (stops : ∀ p ∈ pending.head?, p.Stops e.level) :
    settle k (e.feed pending).1 (e.feed pending).2 = settle k pending e := by
  induction e generalizing k pending with
  | binary op l r ihl ihr =>
    obtain ⟨hl, hr, groupedl, groupedr⟩ := grouped
    -- What waits in front takes neither the left operand nor, once the operator waits too, the right one.
    have first : push op (l.feed pending).1 (l.feed pending).2 = .left l op :: pending := by
      rw [push, ihl groupedl hl fun p hp => (stops p hp).mono hl, settle_of_stops stops]
    rw [feed, first, ihr groupedr (Nat.le_trans hk (Nat.le_of_lt hr)) (by rintro p ⟨⟩; exact hr)]
    exact if_pos hk
  | negative e ih =>
    rw [feed, ih grouped.2 (Nat.le_trans hk grouped.1) (by rintro p ⟨⟩; exact grouped.1)]
    exact if_pos hk
  | call function e ih =>
    rw [feed, finish, ih grouped (Nat.zero_le _) (by simp)]
    rfl
  | _ => rfl

theorem regroup_of_grouped (h : e.Grouped) : e.regroup = e := by
  rw [regroup, finish, settle_feed h (Nat.zero_le _) (by simp)]
  rfl

/-! Whatever is grouped anew is grouped -/

/-- Each operand that waits holds together for its operator, and each stops before the next. -/
def Ordered : List Pending → Prop
  | [] => True
  | p :: rest =>
    (∀ l op, p = .left l op → op.level ≤ l.level ∧ l.Grouped) ∧ (∀ q ∈ rest.head?, q.Stops p.level) ∧ Ordered rest

/-- What waits and an operand, where everything is grouped so far. -/
structure Standing (s : List Pending × Formula) : Prop where
  ordered : Ordered s.1
  grouped : s.2.Grouped
  stops : ∀ p ∈ s.1.head?, p.Stops s.2.level

theorem Pending.level_give (p : Pending) (x : Formula) : (p.give x).level = p.level := by
  cases p <;> rfl

theorem Standing.settle (h : Standing (pending, x)) (hk : k ≤ x.level) :
    Standing (settle k pending x) ∧ k ≤ (Formula.settle k pending x).2.level ∧
      ∀ p ∈ (Formula.settle k pending x).1.head?, p.level < k := by
  induction pending generalizing x with
  | nil => exact ⟨h, hk, by simp [Formula.settle]⟩
  | cons p rest ih =>
    unfold Formula.settle
    split
    · next tight =>
      obtain ⟨proper, next, ordered⟩ := h.ordered
      have stops := h.stops p rfl
      refine ih ⟨ordered, ?_, ?_⟩ (by rw [p.level_give]; exact tight)
      · cases p with
        | left l op => exact ⟨(proper l op rfl).1, stops, (proper l op rfl).2, h.grouped⟩
        | minus => exact ⟨stops, h.grouped⟩
      · rw [p.level_give]
        exact next
    · next loose =>
      refine ⟨h, hk, ?_⟩
      rintro p ⟨⟩
      exact Nat.lt_of_not_le loose

theorem ordered_push (h : Standing (pending, x)) (hx : op.level ≤ x.level) : Ordered (push op pending x) := by
  obtain ⟨standing, tight, loose⟩ := h.settle hx
  refine ⟨?_, fun p hp => .of_lt (loose p hp), standing.ordered⟩
  rintro l op ⟨⟩
  exact ⟨tight, standing.grouped⟩

theorem standing_atom (h : Ordered pending) (atom : e.level = 5) (grouped : e.Grouped) : Standing (pending, e) := by
  refine ⟨h, grouped, fun p _ => ?_⟩
  rw [atom]
  cases p with
  | left l op => exact Nat.lt_of_le_of_lt op.level_le (by decide)
  | minus => exact (by decide : 4 ≤ 5)

theorem standing_feed (h : Ordered pending) : Standing (e.feed pending) ∧ (e.feed pending).2.level = 5 := by
  induction e generalizing pending with
  | binary op l r ihl ihr =>
    obtain ⟨standing, level⟩ := ihl h
    exact ihr (ordered_push standing (by have := op.level_le; omega))
  | negative e ih =>
    refine ih ⟨fun l op eq => (by cases eq), fun q hq => ?_, h⟩
    cases q with
    | left l op => exact Nat.lt_succ_of_le op.level_le
    | minus => exact Nat.le_refl 4
  | call function e ih =>
    exact ⟨standing_atom h rfl ((ih (show Ordered [] from trivial)).1.settle (Nat.zero_le _)).1.grouped, rfl⟩
  | _ => exact ⟨standing_atom h rfl trivial, rfl⟩

theorem grouped_regroup (e : Formula) : e.regroup.Grouped :=
  ((standing_feed (show Ordered [] from trivial)).1.settle (Nat.zero_le _)).1.grouped

/-! What is written -/

/-- What a formula is written with, from left to right. -/
inductive Piece where
  | operand (e : Formula)
  | operator (op : Operator)
  | minus

def pieces : Formula → List Piece
  | .binary op l r => l.pieces ++ .operator op :: r.pieces
  | .negative e => .minus :: e.pieces
  | e => [.operand e]

namespace Piece

/-- An operand with what is in its parentheses grouped anew. -/
def regroup : Piece → Piece
  | .operand (.call function e) => .operand (.call function e.regroup)
  | p => p

end Piece

def writtenPending : List Pending → List Piece
  | [] => []
  | .left l op :: rest => writtenPending rest ++ l.pieces ++ [.operator op]
  | .minus :: rest => writtenPending rest ++ [.minus]

def written (s : List Pending × Formula) : List Piece := writtenPending s.1 ++ s.2.pieces

theorem written_settle (k : Nat) (pending : List Pending) (x : Formula) :
    written (settle k pending x) = written (pending, x) := by
  induction pending generalizing x with
  | nil => rfl
  | cons p rest ih =>
    unfold settle
    split
    · rw [ih]
      cases p <;> simp [written, writtenPending, Pending.give, pieces]
    · rfl

theorem settle_zero (pending : List Pending) (x : Formula) : (settle 0 pending x).1 = [] := by
  induction pending generalizing x with
  | nil => rfl
  | cons p rest ih => exact (congrArg Prod.fst (if_pos (Nat.zero_le _))).trans (ih _)

theorem pieces_finish (s : List Pending × Formula) : (finish s).pieces = written s := by
  rw [← written_settle 0 s.1 s.2, written, settle_zero]
  rfl

theorem written_feed (e : Formula) (pending : List Pending) :
    written (e.feed pending) = writtenPending pending ++ e.pieces.map Piece.regroup := by
  induction e generalizing pending with
  | binary op l r ihl ihr =>
    have pushed : writtenPending (push op (l.feed pending).1 (l.feed pending).2) =
        written (l.feed pending) ++ [.operator op] := by
      rw [← written_settle op.level]
      rfl
    rw [feed, ihr, pushed, ihl]
    simp [pieces, Piece.regroup]
  | negative e ih =>
    rw [feed, ih]
    simp [pieces, writtenPending, Piece.regroup]
  | _ => rfl

theorem pieces_regroup (e : Formula) : e.regroup.pieces = e.pieces.map Piece.regroup := by
  rw [regroup, pieces_finish, written_feed]
  rfl

/-! The value decides how it is grouped -/

/-- Operands and operations, parentheses not counted. -/
def weight : Formula → Nat
  | .binary _ l r => l.weight + r.weight + 1
  | .negative e => e.weight + 1
  | .call _ e => e.weight
  | _ => 1

def Piece.weight : Piece → Nat
  | .operand e => e.weight
  | _ => 1

theorem weight_pos (e : Formula) : 0 < e.weight := by
  induction e with
  | call function e ih => exact ih
  | _ => simp [weight]

theorem Piece.weight_pos (p : Piece) : 0 < p.weight := by
  cases p with
  | operand e => exact e.weight_pos
  | _ => exact Nat.one_pos

/-- The weight of what is written. -/
def writtenWeight : List Piece → Nat
  | [] => 0
  | p :: rest => p.weight + writtenWeight rest

theorem writtenWeight_append (s t : List Piece) : writtenWeight (s ++ t) = writtenWeight s + writtenWeight t := by
  induction s with
  | nil => exact (Nat.zero_add _).symm
  | cons p s ih => rw [List.cons_append, writtenWeight, writtenWeight, ih, Nat.add_assoc]

theorem writtenWeight_pieces (e : Formula) : writtenWeight e.pieces = e.weight := by
  induction e with
  | binary op l r ihl ihr =>
    simp only [pieces, writtenWeight_append, writtenWeight, ihl, ihr, Piece.weight, weight]
    omega
  | negative e ih =>
    simp only [pieces, writtenWeight, ih, Piece.weight, weight]
    omega
  | _ => rfl

theorem bare_call (function : List Char) (e : Formula) :
    (call function e).bare = if function = [] then e.bare else .call function e.bare := rfl

theorem weight_bare (e : Formula) : e.bare.weight = e.weight := by
  induction e with
  | binary op l r ihl ihr =>
    change l.bare.weight + r.bare.weight + 1 = l.weight + r.weight + 1
    rw [ihl, ihr]
  | negative e ih => exact congrArg (· + 1) ih
  | call function e ih =>
    rw [bare_call]
    split <;> exact ih
  | _ => rfl

/-- To group anew what is in parentheses changes no weight. -/
theorem writtenWeight_regroup (e : Formula) : writtenWeight (e.pieces.map Piece.regroup) = e.weight := by
  induction e with
  | binary op l r ihl ihr =>
    simp only [pieces, List.map_append, List.map_cons, writtenWeight_append, writtenWeight, ihl, ihr, Piece.regroup,
      Piece.weight, weight]
    omega
  | negative e ih =>
    simp only [pieces, List.map_cons, writtenWeight, ih, Piece.regroup, Piece.weight, weight]
    omega
  | call function e ih =>
    have inner : e.regroup.weight = e.weight := by
      rw [← writtenWeight_pieces, pieces_regroup, ih]
    exact inner
  | _ => rfl

/-- Pieces that begin alike are divided alike where the same weight is before. -/
theorem append_inj_of_weight {s t s' t' : List Piece} (same : s ++ t = s' ++ t')
    (weights : writtenWeight s = writtenWeight s') : s = s' ∧ t = t' := by
  have none {r : List Piece} (h : writtenWeight r = 0) : r = [] := by
    cases r with
    | nil => rfl
    | cons p r =>
      rw [writtenWeight] at h
      exact absurd h (by have := p.weight_pos; omega)
  rcases List.append_eq_append_iff.mp same with ⟨r, rfl, rfl⟩ | ⟨r, rfl, rfl⟩
  · rw [writtenWeight_append] at weights
    simp [none (r := r) (by omega)]
  · rw [writtenWeight_append] at weights
    simp [none (r := r) (by omega)]

theorem length_pieces_pos (e : Formula) : 0 < e.pieces.length := by
  cases e with
  | binary op l r =>
    simp only [pieces, List.length_append, List.length_cons]
    omega
  | _ => exact Nat.zero_lt_succ _

theorem level_of_length (e : Formula) :
    e.level = if e.pieces.length = 1 then 5 else e.bare.level := by
  cases e with
  | binary op l r =>
    have := l.length_pieces_pos
    have := r.length_pieces_pos
    exact (if_neg (by simp only [pieces, List.length_append, List.length_cons]; omega)).symm
  | negative e => exact (if_neg (by have := e.length_pieces_pos; simp only [pieces, List.length_cons]; omega)).symm
  | _ => rfl

theorem level_congr (pieces : u.pieces = v.pieces.map Piece.regroup) (same : u.bare = v.bare) : v.level = u.level := by
  rw [level_of_length v, level_of_length u, pieces, List.length_map, same]

/-- A formula is grouped if a grouped one is written as it is and has its operations. -/
theorem grouped_of_pieces (grouped : u.Grouped) (pieces : u.pieces = v.pieces.map Piece.regroup)
    (same : u.bare = v.bare) : v.Grouped := by
  induction v generalizing u with
  | binary op l r ihl ihr =>
    cases u with
    | binary op' l' r' =>
      obtain ⟨rfl, samel, samer⟩ : op' = op ∧ l'.bare = l.bare ∧ r'.bare = r.bare := by
        simpa [bare, value, plain] using same
      obtain ⟨hl, hr, groupedl, groupedr⟩ := grouped
      -- The left operands have the same operations and so the same weight: both are written up to the same operator.
      have weights : writtenWeight l'.pieces = writtenWeight (l.pieces.map Piece.regroup) := by
        rw [writtenWeight_pieces, writtenWeight_regroup, ← weight_bare l', ← weight_bare l, samel]
      obtain ⟨piecesl, rest⟩ := append_inj_of_weight (pieces.trans List.map_append) weights
      have piecesr := List.tail_eq_of_cons_eq rest
      refine ⟨?_, ?_, ihl groupedl piecesl samel, ihr groupedr piecesr samer⟩
      · rwa [level_congr piecesl samel]
      · rwa [level_congr piecesr samer]
    | negative u => simp [bare, value, plain] at same
    | _ =>
      have length := congrArg List.length pieces
      simp only [Formula.pieces, List.length_map, List.length_append, List.length_cons, List.length_nil] at length
      have := length_pieces_pos l
      omega
  | negative e ih =>
    cases u with
    | negative u =>
      have samee : u.bare = e.bare := by simpa [bare, value, plain] using same
      have piecese := List.tail_eq_of_cons_eq pieces
      exact ⟨level_congr piecese samee ▸ grouped.1, ih grouped.2 piecese samee⟩
    | binary op l r => simp [bare, value, plain] at same
    | _ => simp [Formula.pieces, Piece.regroup] at pieces
  | call function e ih =>
    have whole : u = .call function e.regroup := by
      cases u with
      | binary op l r =>
        have length := congrArg List.length pieces
        simp only [Formula.pieces, List.length_map, List.length_append, List.length_cons, List.length_nil] at length
        have := l.length_pieces_pos
        omega
      | negative u => simp [Formula.pieces, Piece.regroup] at pieces
      | _ => exact Piece.operand.inj (List.cons.inj pieces).1
    subst whole
    have samee : e.regroup.bare = e.bare := by
      rw [bare_call, bare_call] at same
      split at same
      · exact same
      · exact (Formula.call.inj same).2
    exact ih (u := e.regroup) grouped (pieces_regroup e) samee
  | _ => trivial

/-- Grouped anew, a formula keeps its value under every meaning exactly if it is grouped. -/
theorem value_regroup_iff (e : Formula) :
    (∀ (V : Type) (M : Meaning V), e.regroup.value M = e.value M) ↔ e.Grouped := by
  constructor
  · intro same
    exact grouped_of_pieces (grouped_regroup e) (pieces_regroup e) (same Formula plain)
  · intro grouped V M
    rw [regroup_of_grouped grouped]

end Formula

end FirebirdSql
