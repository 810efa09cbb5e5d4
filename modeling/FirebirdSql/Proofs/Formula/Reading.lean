import FirebirdSql.Identifier
import FirebirdSql.Proofs.Composed
import FirebirdSql.Proofs.Formula.Grouping
import Mathlib.Data.List.Forall2

/-!
Formulas read from their text, one character after another, as the engine groups them. A fragment spells a formula if,
wherever an operand may stand, reading it is feeding the formula to what waits; what is put together from such fragments
spells the formula that is put together.
-/

namespace FirebirdSql

namespace Formula

/-- What is expected next. -/
inductive Mode where
  | operand
  /-- In a numeral or a bare word. -/
  | word (w : List Char)
  | quoted (q : Char) (s : List Char)
  /-- After a quote inside of quotes, which another one would take back. -/
  | closing (q : Char) (s : List Char)
  | after (x : Formula)
  | bar (x : Formula)
  /-- In a word that comes after an operand. -/
  | keyword (x : Formula) (w : List Char)
  /-- In the word that comes after a unit. -/
  | toward (x : Formula) (unit w : List Char)

/-- What is open: parentheses with their function, and in each what waits for an operand. -/
structure State where
  mode : Mode
  function : List Char
  pending : List Pending
  outer : List (List Char × List Pending)
  params : List Value

def isWordChar (c : Char) : Bool := c.isAlphanum || c == '_' || c == '$'

def ofWord (w : List Char) : Formula :=
  match Text.readNat? w with
  | some n => .number n
  | none => .word w

def ofQuoted (q : Char) (s : List Char) : Formula := if q = '"' then .column s else .text s

/-- The operand that ends here. -/
def Mode.operand? : Mode → Option Formula
  | .word w => some (ofWord w)
  | .closing q s => some (ofQuoted q s)
  | .after x => some x
  | _ => none

def operator? : Char → Option Operator
  | ',' => some .comma
  | '+' => some .add
  | '-' => some .sub
  | '*' => some .mul
  | '/' => some .div
  | _ => none

def keyword? (w : List Char) : Option Operator :=
  if w = ['F', 'R', 'O', 'M'] then some .ofField else if w = ['A', 'S'] then some .asType else none

namespace State

def push (s : State) (op : Operator) (x : Formula) : State :=
  { s with mode := .operand, pending := Formula.push op s.pending x }

def enter (s : State) (function : List Char) : State :=
  ⟨.operand, function, [], (s.function, s.pending) :: s.outer, s.params⟩

/-- A character after an operand. -/
def stepAfter (s : State) (x : Formula) (c : Char) : Option State :=
  if c = '|' then some { s with mode := .bar x }
  else if c = ')' then
    match s.outer with
    | [] => none
    | (function, pending) :: outer =>
      some ⟨.after (.call s.function (finish (s.pending, x))), function, pending, outer, s.params⟩
  else if isWordChar c then some { s with mode := .keyword x [c] }
  else if Text.isBlank c then some { s with mode := .after x }
  else (operator? c).map fun op => s.push op x

def stepOperand (s : State) (c : Char) : Option State :=
  if c = '"' ∨ c = '\'' then some { s with mode := .quoted c [] }
  else if c = '(' then some (s.enter [])
  else if c = '-' then some { s with pending := .minus :: s.pending }
  else if c = '?' then
    match s.params with
    | [] => none
    | v :: params => some { s with mode := .after (.bound v), params := params }
  else if isWordChar c then some { s with mode := .word [c] }
  else if Text.isBlank c then some s
  else none

def step (s : State) (c : Char) : Option State :=
  match s.mode with
  | .operand => s.stepOperand c
  | .word w =>
    if isWordChar c then some { s with mode := .word (w ++ [c]) }
    else if c = '(' then some (s.enter w)
    else s.stepAfter (ofWord w) c
  | .quoted q t => some { s with mode := if c = q then .closing q t else .quoted q (t ++ [c]) }
  | .closing q t => if c = q then some { s with mode := .quoted q (t ++ [q]) } else s.stepAfter (ofQuoted q t) c
  | .after x => s.stepAfter x c
  | .bar x => if c = '|' then some (s.push .concat x) else none
  | .keyword x w =>
    if isWordChar c then some { s with mode := .keyword x (w ++ [c]) }
    else if Text.isBlank c then
      match keyword? w with
      | some op => some (s.push op x)
      | none => some { s with mode := .toward x w [] }
    else none
  | .toward x unit w =>
    if isWordChar c then some { s with mode := .toward x unit (w ++ [c]) }
    else if Text.isBlank c ∧ w = ['T', 'O'] then some (s.push (.toward unit) x)
    else none

/-- What was read, if nothing is left open. -/
def formula? (s : State) : Option Formula :=
  if s.outer.isEmpty && s.params.isEmpty then s.mode.operand?.map fun x => finish (s.pending, x) else none

/-- Reads the rest of a formula. -/
def read (s : State) : List Char → Option Formula
  | [] => s.formula?
  | c :: rest => (s.step c).bind fun t => t.read rest

end State

/-- The formula that a fragment is read as. -/
def read? (f : Fragment) : Option Formula := State.read ⟨.operand, [], [], [], f.params⟩ f.template.toList

/-- What can stand after an operand and is not a part of it. -/
def Ends (rest : List Char) : Prop := ∀ c ∈ rest.head?, c = ' ' ∨ c = ',' ∨ c = ')' ∨ c = '|'

/-- Wherever an operand may stand, to read the fragment is to feed the formula to what waits. -/
def Spells (f : Fragment) (e : Formula) : Prop :=
  ∀ function pending outer params rest, Ends rest →
    State.read ⟨.operand, function, pending, outer, f.params ++ params⟩ (f.template.toList ++ rest) =
      State.read ⟨.after (e.feed pending).2, function, (e.feed pending).1, outer, params⟩ rest

/-- A fragment that spells a formula is read as it, grouped anew. -/
theorem Spells.read? {f : Fragment} {e : Formula} (h : Spells f e) : Formula.read? f = some e.regroup := by
  have whole := h [] [] [] [] [] (by simp [Ends])
  rw [List.append_nil, List.append_nil] at whole
  exact whole

namespace State

variable {function : List Char} {pending : List Pending} {outer : List (List Char × List Pending)} {params : List Value}
  {rest : List Char} {x : Formula}

theorem read_cons {s t : State} {c : Char} (h : s.step c = some t) (rest : List Char) :
    s.read (c :: rest) = t.read rest := by
  rw [read, h]
  rfl

/-- Where an operand ends, it goes on as after it. -/
theorem read_ended {mode : Mode} (operand : mode.operand? = some x)
    (next : ∀ c ∈ rest.head?,
      step ⟨mode, function, pending, outer, params⟩ c = stepAfter ⟨mode, function, pending, outer, params⟩ x c) :
    read ⟨mode, function, pending, outer, params⟩ rest = read ⟨.after x, function, pending, outer, params⟩ rest := by
  cases rest with
  | nil => rw [read, read, formula?, formula?, operand, Mode.operand?]
  | cons c rest =>
    rw [read, next c rfl]
    rfl

/-! Quotes -/

theorem read_quoted (q : Char) (t s rest : List Char) :
    read ⟨.quoted q s, function, pending, outer, params⟩ (Text.replaceChar q [q, q] t ++ q :: rest) =
      read ⟨.closing q (s ++ t), function, pending, outer, params⟩ rest := by
  unfold Text.replaceChar
  induction t generalizing s with
  | nil =>
    rw [List.append_nil]
    exact read_cons (by simp [step]) rest
  | cons c t ih =>
    rw [List.append_cons s c t, ← ih, List.flatMap_cons, List.append_assoc]
    by_cases quote : c = q
    · subst quote
      have closed : step ⟨.quoted c s, function, pending, outer, params⟩ c =
          some ⟨.closing c s, function, pending, outer, params⟩ := by
        simp [step]
      have again : step ⟨.closing c s, function, pending, outer, params⟩ c =
          some ⟨.quoted c (s ++ [c]), function, pending, outer, params⟩ := if_pos rfl
      rw [if_pos rfl, List.cons_append, List.cons_append, read_cons closed]
      exact read_cons again _
    · rw [if_neg quote]
      exact read_cons (by simp only [step, if_neg quote]) _

theorem read_delimited {q : Char} (quote : q = '"' ∨ q = '\'') (t : List Char) (ends : Ends rest) :
    read ⟨.operand, function, pending, outer, params⟩ (q :: Text.replaceChar q [q, q] t ++ [q] ++ rest) =
      read ⟨.after (ofQuoted q t), function, pending, outer, params⟩ rest := by
  have opened : step ⟨.operand, function, pending, outer, params⟩ q =
      some ⟨.quoted q [], function, pending, outer, params⟩ := if_pos quote
  rw [List.append_assoc, List.cons_append, read_cons opened]
  refine (read_quoted q t [] rest).trans (read_ended rfl fun c hc => if_neg ?_)
  rintro rfl
  rcases quote with rfl | rfl <;> rcases ends _ hc with h | h | h | h <;> exact absurd h (by decide)

/-! Words -/

/-- The characters of a word. -/
def IsWord (w : List Char) : Prop := w ≠ [] ∧ w.all isWordChar = true

instance (w : List Char) : Decidable (IsWord w) := inferInstanceAs (Decidable (_ ∧ _))

theorem ne_of_isWordChar {c d : Char} (h : isWordChar c = true) (hd : isWordChar d = false) : c ≠ d := by
  rintro rfl
  exact absurd h (hd ▸ Bool.false_ne_true)

theorem stepOperand_word {s : State} {c : Char} (h : isWordChar c = true) :
    s.stepOperand c = some { s with mode := .word [c] } := by
  have symbols : c ≠ '"' ∧ c ≠ '\'' ∧ c ≠ '(' ∧ c ≠ '-' ∧ c ≠ '?' :=
    ⟨ne_of_isWordChar h rfl, ne_of_isWordChar h rfl, ne_of_isWordChar h rfl, ne_of_isWordChar h rfl, ne_of_isWordChar h rfl⟩
  simp [stepOperand, symbols, h]

/-- A mode that collects the characters of a word. -/
theorem read_collected (mode : List Char → Mode)
    (collects : ∀ w c, isWordChar c = true →
      step ⟨mode w, function, pending, outer, params⟩ c = some ⟨mode (w ++ [c]), function, pending, outer, params⟩)
    {t : List Char} (h : ∀ c ∈ t, isWordChar c = true) (w rest : List Char) :
    read ⟨mode w, function, pending, outer, params⟩ (t ++ rest) =
      read ⟨mode (w ++ t), function, pending, outer, params⟩ rest := by
  induction t generalizing w with
  | nil => rw [List.append_nil, List.nil_append]
  | cons c t ih =>
    rw [List.append_cons w c t, ← ih fun d hd => h d (List.mem_cons_of_mem c hd)]
    exact read_cons (collects w c (h c List.mem_cons_self)) _

theorem read_wordChars {w : List Char} (h : IsWord w) (rest : List Char) :
    read ⟨.operand, function, pending, outer, params⟩ (w ++ rest) =
      read ⟨.word w, function, pending, outer, params⟩ rest := by
  obtain ⟨some, chars⟩ := h
  obtain ⟨c, w, rfl⟩ := List.exists_cons_of_ne_nil some
  have chars := List.all_eq_true.mp chars
  have first : step ⟨.operand, function, pending, outer, params⟩ c = .some ⟨.word [c], function, pending, outer, params⟩ :=
    stepOperand_word (chars c List.mem_cons_self)
  rw [List.cons_append, read_cons first]
  exact read_collected .word (fun _ _ h => if_pos h) (fun d hd => chars d (List.mem_cons_of_mem c hd)) [c] rest

theorem read_word {w : List Char} (h : IsWord w) (ends : Ends rest) :
    read ⟨.operand, function, pending, outer, params⟩ (w ++ rest) =
      read ⟨.after (ofWord w), function, pending, outer, params⟩ rest := by
  rw [read_wordChars h]
  refine read_ended rfl fun c hc => ?_
  rcases ends c hc with rfl | rfl | rfl | rfl <;> rfl

theorem read_function {w : List Char} (h : IsWord w) (rest : List Char) :
    read ⟨.operand, function, pending, outer, params⟩ (w ++ '(' :: rest) =
      read ⟨.operand, w, [], (function, pending) :: outer, params⟩ rest := by
  rw [read_wordChars h]
  exact read_cons rfl rest

theorem stepAfter_word {s : State} {c : Char} (h : isWordChar c = true) :
    s.stepAfter x c = some { s with mode := .keyword x [c] } := by
  have symbols : c ≠ '|' ∧ c ≠ ')' := ⟨ne_of_isWordChar h rfl, ne_of_isWordChar h rfl⟩
  simp [stepAfter, symbols, h]

/-- The word after an operand, and the blank that ends it. -/
theorem read_keyword {w : List Char} (h : IsWord w) (rest : List Char) :
    read ⟨.after x, function, pending, outer, params⟩ (w ++ rest) =
      read ⟨.keyword x w, function, pending, outer, params⟩ rest := by
  obtain ⟨some, chars⟩ := h
  obtain ⟨c, w, rfl⟩ := List.exists_cons_of_ne_nil some
  have chars := List.all_eq_true.mp chars
  have first : step ⟨.after x, function, pending, outer, params⟩ c =
      .some ⟨.keyword x [c], function, pending, outer, params⟩ := stepAfter_word (chars c List.mem_cons_self)
  rw [List.cons_append, read_cons first]
  exact read_collected (.keyword x) (fun _ _ h => if_pos h) (fun d hd => chars d (List.mem_cons_of_mem c hd)) [c] rest

end State

open State (IsWord)

/-! Operators -/

/-- After an operand, the text is read as the operator. -/
structure Divides (symbol : List Char) (op : Operator) : Prop where
  nonempty : symbol ≠ []
  ends : Ends symbol
  reads : ∀ x function pending outer params rest,
    State.read ⟨.after x, function, pending, outer, params⟩ (symbol ++ rest) =
      State.read ⟨.operand, function, push op pending x, outer, params⟩ rest

namespace Divides

open State (read_cons)

theorem comma : Divides ", ".toList .comma :=
  ⟨by decide, by simp [Ends], fun _ _ _ _ _ _ => (read_cons rfl _).trans (read_cons rfl _)⟩

/-- A symbol of one character between blanks. -/
theorem symbol {c : Char} {op : Operator} (h : (c, op) ∈ [('+', Operator.add), ('-', .sub), ('*', .mul), ('/', .div)]) :
    Divides [' ', c, ' '] op := by
  refine ⟨by simp, by simp [Ends], fun x function pending outer params rest => ?_⟩
  simp only [List.mem_cons, Prod.mk.injEq, List.not_mem_nil, or_false] at h
  rcases h with ⟨rfl, rfl⟩ | ⟨rfl, rfl⟩ | ⟨rfl, rfl⟩ | ⟨rfl, rfl⟩ <;>
    exact (read_cons rfl _).trans ((read_cons rfl _).trans (read_cons rfl _))

theorem bars : Divides ['|', '|'] .concat :=
  ⟨by decide, by simp [Ends], fun _ _ _ _ _ _ => (read_cons rfl _).trans (read_cons rfl _)⟩

theorem spacedBars : Divides [' ', '|', '|', ' '] .concat :=
  ⟨by decide, by simp [Ends], fun _ _ _ _ _ _ =>
    (read_cons rfl _).trans ((read_cons rfl _).trans ((read_cons rfl _).trans (read_cons rfl _)))⟩

/-- A keyword between blanks. -/
theorem keyword {w : List Char} {op : Operator} (h : keyword? w = some op) : Divides (' ' :: w ++ [' ']) op := by
  have word : IsWord w := by
    unfold keyword? at h
    split at h
    · next eq => exact eq ▸ by decide
    · split at h
      · next eq => exact eq ▸ by decide
      · cases h
  refine ⟨by simp, by simp [Ends], fun x function pending outer params rest => ?_⟩
  have ended : State.step ⟨.keyword x w, function, pending, outer, params⟩ ' ' =
      some ⟨.operand, function, push op pending x, outer, params⟩ := by
    change (match keyword? w with | some op => some _ | none => _) = _
    rw [h]
    rfl
  rw [List.append_assoc, List.cons_append, read_cons rfl]
  exact (State.read_keyword word _).trans (read_cons ended _)

/-- A unit and `TO`, between blanks. -/
theorem toward {unit : List Char} (word : IsWord unit) (free : keyword? unit = none) :
    Divides (' ' :: unit ++ [' ', 'T', 'O', ' ']) (.toward unit) := by
  refine ⟨by simp, by simp [Ends], fun x function pending outer params rest => ?_⟩
  have ended : State.step ⟨.keyword x unit, function, pending, outer, params⟩ ' ' =
      some ⟨.toward x unit [], function, pending, outer, params⟩ := by
    change (match keyword? unit with | some op => some _ | none => _) = _
    rw [free]
  rw [List.append_assoc, List.cons_append, read_cons rfl]
  refine (State.read_keyword word _).trans ((read_cons ended _).trans ?_)
  exact (read_cons rfl _).trans ((read_cons rfl _).trans (read_cons rfl _))

end Divides

theorem ends_append {s : List Char} (some : s ≠ []) (ends : Ends s) (rest : List Char) : Ends (s ++ rest) := by
  obtain ⟨c, s, rfl⟩ := List.exists_cons_of_ne_nil some
  exact ends

/-! Fragments -/

namespace Spells

open Fragment (sql join)

variable {f g : Fragment} {e l r : Formula}

theorem column (name : String) : Spells (sql (Identifier.ofStored name).text) (.column name.toList) := by
  intro function pending outer params rest ends
  change State.read _ ((String.ofList _).toList ++ rest) = _
  rw [String.toList_ofList]
  exact State.read_delimited (.inl rfl) name.toList ends

theorem text (s : String) : Spells (sql (.ofList (Literal.quoteText s.toList))) (.text s.toList) := by
  intro function pending outer params rest ends
  change State.read _ ((String.ofList _).toList ++ rest) = _
  rw [String.toList_ofList]
  exact State.read_delimited (.inr rfl) s.toList ends

theorem param (v : Value) : Spells (.param v) (.bound v) := by
  intro function pending outer params rest _
  have template : (Fragment.param v).template.toList ++ rest = '?' :: rest := by
    simp [Fragment.param]
  rw [template]
  exact State.read_cons rfl rest

theorem word {w : String} (h : IsWord w.toList) : Spells (sql w) (ofWord w.toList) := by
  intro function pending outer params rest ends
  have atom (pending : List Pending) : (ofWord w.toList).feed pending = (pending, ofWord w.toList) := by
    unfold ofWord
    split <;> rfl
  rw [atom]
  exact State.read_word h ends

theorem number (n : Nat) : Spells (sql (Text.natText n)) (.number n) := by
  have digits : (Text.natText n).toList = Text.digits n := String.toList_ofList
  have spelled : Spells (sql (Text.natText n)) (ofWord (Text.natText n).toList) :=
    .word (digits ▸ ⟨Text.digits_ne_nil n, List.all_eq_true.mpr (Text.forall_digits (by decide) n)⟩)
  rwa [ofWord, digits, Text.readNat?_digits] at spelled

theorem negative (h : Spells f e) : Spells (sql "-" ++ f) (.negative e) := by
  intro function pending outer params rest ends
  have template : (sql "-" ++ f).template.toList ++ rest = '-' :: (f.template.toList ++ rest) := by
    simp [sql]
  rw [template]
  exact (State.read_cons rfl _).trans (h _ _ _ _ _ ends)

theorem operation {symbol : String} {op : Operator} (d : Divides symbol.toList op) (hf : Spells f l) (hg : Spells g r) :
    Spells (f ++ sql symbol ++ g) (.binary op l r) := by
  intro function pending outer params rest ends
  have template : (f ++ sql symbol ++ g).template.toList ++ rest =
      f.template.toList ++ (symbol.toList ++ (g.template.toList ++ rest)) := by
    simp [sql]
  have bound : (f ++ sql symbol ++ g).params ++ params = f.params ++ (g.params ++ params) := by
    simp [sql]
  rw [template, bound, hf _ _ _ _ _ (ends_append d.nonempty d.ends _), d.reads]
  exact hg _ _ _ _ _ ends

/-- In parentheses there is nothing yet that waits, and nothing is left to wait after them. -/
theorem read_inside (h : Spells f e) (function : List Char) (inside : List Char) (pending : List Pending)
    (outer : List (List Char × List Pending)) (params : List Value) (rest : List Char) :
    State.read ⟨.operand, inside, [], (function, pending) :: outer, f.params ++ params⟩ (f.template.toList ++ ')' :: rest) =
      State.read ⟨.after (.call inside e.regroup), function, pending, outer, params⟩ rest := by
  rw [h _ _ _ _ _ (by simp [Ends])]
  exact State.read_cons rfl rest

theorem call (name : String) (word : IsWord name.toList) (h : Spells f e) :
    Spells (sql name ++ sql "(" ++ f ++ sql ")") (.call name.toList e) := by
  intro function pending outer params rest _
  have template : (sql name ++ sql "(" ++ f ++ sql ")").template.toList ++ rest =
      name.toList ++ '(' :: (f.template.toList ++ ')' :: rest) := by
    simp [sql]
  have bound : (sql name ++ sql "(" ++ f ++ sql ")").params ++ params = f.params ++ params := by
    simp [sql]
  rw [template, bound, State.read_function word]
  exact h.read_inside ..

theorem group (h : Spells f e) : Spells (sql "(" ++ f ++ sql ")") (.call [] e) := by
  intro function pending outer params rest _
  have template : (sql "(" ++ f ++ sql ")").template.toList ++ rest = '(' :: (f.template.toList ++ ')' :: rest) := by
    simp [sql]
  have bound : (sql "(" ++ f ++ sql ")").params ++ params = f.params ++ params := by
    simp [sql]
  rw [template, bound, State.read_cons rfl]
  exact h.read_inside ..

/-- Operands with an operator between each and the next are grouped from the left. -/
theorem joined {symbol : String} {op : Operator} (d : Divides symbol.toList op) {fs : List Fragment} {es : List Formula}
    (hf : Spells f e) (hfs : List.Forall₂ Spells fs es) : Spells (join symbol (f :: fs)) (es.foldl (.binary op) e) := by
  induction hfs generalizing f e with
  | nil => exact hf
  | @cons g e' fs es hg _ ih =>
    have regrouped : join symbol (f :: g :: fs) = join symbol ((f ++ sql symbol ++ g) :: fs) := by
      cases fs with
      | nil => rfl
      | cons h fs => simp only [join, Fragment.append_assoc]
    rw [regrouped]
    exact ih (hf.operation d hg)

end Spells

end Formula

end FirebirdSql
