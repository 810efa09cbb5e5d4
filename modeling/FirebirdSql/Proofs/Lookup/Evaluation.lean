import FirebirdSql.Proofs.Lookup.Like

/-!
What expressions over texts come to, read from their text one character after another. The pattern that the engine
computes from an expression is the one that is bound for the value of the expression.
-/

namespace FirebirdSql

namespace Text

/-- Passes over `skip` characters, and puts `form` for every occurrence of `pat` from there on. -/
def replaceFrom (pat form : List Char) : (skip : Nat) → List Char → List Char
  | _, [] => []
  | skip + 1, _ :: rest => replaceFrom pat form skip rest
  | 0, c :: rest =>
    if startsWith pat (c :: rest) then form ++ replaceFrom pat form (pat.length - 1) rest
    else c :: replaceFrom pat form 0 rest

/-- Puts `form` for every `pat`, from left to right. A text that has no characters occurs nowhere. -/
def replaceAll (pat form s : List Char) : List Char := if pat.isEmpty then s else replaceFrom pat form 0 s

theorem replaceAll_singleton (c : Char) (form s : List Char) : replaceAll [c] form s = replaceChar c form s := by
  change replaceFrom [c] form 0 s = replaceChar c form s
  unfold replaceChar
  induction s with
  | nil => rfl
  | cons d s ih =>
    have head : startsWith [c] (d :: s) = decide (d = c) := by
      by_cases h : c = d
      · simp [startsWith, dropHead?, h]
      · simp [startsWith, dropHead?, h, Ne.symm h]
    rw [replaceFrom, head, List.flatMap_cons]
    by_cases h : d = c
    · rw [decide_eq_true h, if_pos rfl, if_pos h, ← ih]
      rfl
    · rw [decide_eq_false h, if_neg Bool.false_ne_true, if_neg h, ih]
      rfl

end Text

namespace TextExpression

/-- A call whose arguments are being read: those that are through, and what the current one comes to so far. -/
structure Call where
  function : List Char
  arguments : List (List Char)
  joined : List Char

/-- What is expected next. -/
inductive Mode where
  | operand
  /-- A name, or the function of a call; `inside` its quotes or outside. -/
  | name (name : List Char) (inside : Bool)
  | literal
  /-- After a quote in a literal, which another one would take back. -/
  | closing
  | after
  | bar

structure State where
  mode : Mode
  call : Call
  outer : List Call
  params : List Value

/-- The value of a function; what is only in parentheses has none. -/
def applied? (up : Char → Char) (function : List Char) (arguments : List (List Char)) : Option (List Char) :=
  match String.ofList function, arguments with
  | "REPLACE", [s, pat, form] => some (Text.replaceAll pat form s)
  | "UPPER", [s] => some (s.map up)
  | "", [s] => some s
  | _, _ => none

namespace State

def join (s : State) (text : List Char) : State := { s with call := { s.call with joined := s.call.joined ++ text } }

def isNameChar (c : Char) : Bool := c.isAlphanum || c == '_' || c == '$' || c == '.'

variable (up : Char → Char) (row : String → List Char)

/-- A character after an operand. -/
def stepAfter (s : State) (c : Char) : Option State :=
  if c = '|' then some { s with mode := .bar }
  else if c = ',' then
    some { s with mode := .operand, call := { s.call with arguments := s.call.arguments ++ [s.call.joined], joined := [] } }
  else if c = ')' then
    match s.outer with
    | [] => none
    | call :: outer => do
      let value ← applied? up s.call.function (s.call.arguments ++ [s.call.joined])
      return { s with mode := .after, call := { call with joined := call.joined ++ value }, outer := outer }
  else if Text.isBlank c then some { s with mode := .after }
  else none

def enter (s : State) (function : List Char) : State :=
  { s with mode := .operand, call := ⟨function, [], []⟩, outer := s.call :: s.outer }

def step (s : State) (c : Char) : Option State :=
  match s.mode with
  | .operand =>
    if c = '\'' then some { s with mode := .literal }
    else if c = '(' then some (s.enter [])
    else if c = '?' then
      match s.params with
      | .text p :: params => some { (s.join p.toList) with mode := .after, params := params }
      | _ => none
    else if c = '"' then some { s with mode := .name [c] true }
    else if isNameChar c then some { s with mode := .name [c] false }
    else if Text.isBlank c then some s
    else none
  | .name name inside =>
    if c = '"' then some { s with mode := .name (name ++ [c]) !inside }
    else if inside || isNameChar c then some { s with mode := .name (name ++ [c]) inside }
    else if c = '(' then some (s.enter name)
    else stepAfter up (s.join (row (.ofList name))) c
  | .literal => if c = '\'' then some { s with mode := .closing } else some (s.join [c])
  | .closing =>
    if c = '\'' then some { (s.join [c]) with mode := .literal } else stepAfter up s c
  | .after => stepAfter up s c
  | .bar => if c = '|' then some { s with mode := .operand } else none

/-- What the expression comes to, if nothing is left open. -/
def value? (s : State) : Option (List Char) :=
  if s.outer.isEmpty && s.call.arguments.isEmpty && s.params.isEmpty then
    match s.mode with
    | .after | .closing => some s.call.joined
    | .name name false => some (s.join (row (.ofList name))).call.joined
    | _ => none
  else none

/-- Reads the rest of an expression. -/
def read (s : State) : List Char → Option (List Char)
  | [] => s.value? row
  | c :: rest => (s.step up row c).bind fun t => t.read rest

end State

variable {up : Char → Char} {row : String → List Char}

/-- The value of an expression on a row, where functions and names have their values and parameters are bound. -/
def eval? (up : Char → Char) (row : String → List Char) (f : Fragment) : Option (List Char) :=
  State.read up row ⟨.operand, ⟨[], [], []⟩, [], f.params⟩ f.template.toList

/-- What can stand after an operand and is not a part of it. -/
def EndsOperand (rest : List Char) : Prop := ∀ c ∈ rest.head?, c = ' ' ∨ c = ',' ∨ c = ')'

/-- Wherever an operand is expected, the fragment is read as one that comes to a text. -/
def Denotes (up : Char → Char) (row : String → List Char) (f : Fragment) (value : List Char) : Prop :=
  ∀ call outer params rest, EndsOperand rest →
    State.read up row ⟨.operand, call, outer, f.params ++ params⟩ (f.template.toList ++ rest) =
      State.read up row (State.join ⟨.after, call, outer, params⟩ value) rest

theorem Denotes.eval? {f : Fragment} {value : List Char} (h : Denotes up row f value) : eval? up row f = some value := by
  have whole := h ⟨[], [], []⟩ [] [] [] (by simp [EndsOperand])
  rw [List.append_nil, List.append_nil] at whole
  exact whole

namespace State

variable {call : Call} {outer : List Call} {params : List Value} {rest : List Char}

theorem read_cons {s t : State} {c : Char} (h : s.step up row c = some t) (rest : List Char) :
    s.read up row (c :: rest) = t.read up row rest := by
  rw [read, h]
  rfl

theorem join_join (s : State) (text text' : List Char) : (s.join text).join text' = s.join (text ++ text') := by
  simp [join]

/-! Literals -/

/-- After a literal it goes on as after an operand. -/
theorem read_closing (h : EndsOperand rest) :
    read up row ⟨.closing, call, outer, params⟩ rest = read up row ⟨.after, call, outer, params⟩ rest := by
  cases rest with
  | nil => rfl
  | cons c rest =>
    have other : c ≠ '\'' := by
      rcases h c rfl with rfl | rfl | rfl <;> decide
    have same : step up row ⟨.closing, call, outer, params⟩ c = step up row ⟨.after, call, outer, params⟩ c := if_neg other
    rw [read, read, same]

theorem step_literal {c : Char} (h : c ≠ '\'') :
    step up row ⟨.literal, call, outer, params⟩ c = some (join ⟨.literal, call, outer, params⟩ [c]) := if_neg h

theorem read_literal (s rest : List Char) :
    read up row ⟨.literal, call, outer, params⟩ (Text.replaceChar '\'' ['\'', '\''] s ++ '\'' :: rest) =
      read up row (join ⟨.closing, call, outer, params⟩ s) rest := by
  unfold Text.replaceChar
  induction s generalizing call with
  | nil =>
    rw [join, List.append_nil]
    exact read_cons rfl rest
  | cons c s ih =>
    have next := @ih { call with joined := call.joined ++ [c] }
    rw [join, List.append_assoc] at next
    rw [List.flatMap_cons, List.append_assoc, join]
    refine Eq.trans ?_ next
    by_cases quote : c = '\''
    · subst quote
      exact (read_cons rfl _).trans (read_cons rfl _)
    · rw [if_neg quote]
      exact read_cons (step_literal quote) _

/-! Names and functions -/

theorem step_operand {c : Char} (h : isNameChar c = true) :
    step up row ⟨.operand, call, outer, params⟩ c = some ⟨.name [c] false, call, outer, params⟩ := by
  have other (d : Char) (hd : isNameChar d = false) : c ≠ d := by
    rintro rfl
    exact absurd h (hd ▸ Bool.false_ne_true)
  have symbols : c ≠ '\'' ∧ c ≠ '(' ∧ c ≠ '?' ∧ c ≠ '"' := ⟨other _ rfl, other _ rfl, other _ rfl, other _ rfl⟩
  simp [step, symbols, h]

theorem step_name {c : Char} (name : List Char) (h : isNameChar c = true) :
    step up row ⟨.name name false, call, outer, params⟩ c = some ⟨.name (name ++ [c]) false, call, outer, params⟩ := by
  have other : c ≠ '"' := by
    rintro rfl
    exact absurd h (by decide)
  simp [step, other, h]

theorem read_name {w : List Char} (h : ∀ c ∈ w, isNameChar c = true) (name rest : List Char) :
    read up row ⟨.name name false, call, outer, params⟩ (w ++ rest) =
      read up row ⟨.name (name ++ w) false, call, outer, params⟩ rest := by
  induction w generalizing name with
  | nil => rw [List.append_nil, List.nil_append]
  | cons c w ih =>
    rw [List.append_cons name c w, ← ih fun d hd => h d (List.mem_cons_of_mem c hd)]
    exact read_cons (step_name name (h c List.mem_cons_self)) _

theorem read_inside {body : List Char} (h : '"' ∉ body) (name rest : List Char) :
    read up row ⟨.name name true, call, outer, params⟩ (body ++ rest) =
      read up row ⟨.name (name ++ body) true, call, outer, params⟩ rest := by
  induction body generalizing name with
  | nil => rw [List.append_nil, List.nil_append]
  | cons c body ih =>
    have other : c ≠ '"' := fun hc => h (hc ▸ List.mem_cons_self)
    have step : step up row ⟨.name name true, call, outer, params⟩ c =
        some ⟨.name (name ++ [c]) true, call, outer, params⟩ := (if_neg other).trans (if_pos rfl)
    rw [List.append_cons name c body, ← ih fun hm => h (List.mem_cons_of_mem c hm)]
    exact read_cons step _

/-- A name that ends is an operand, which has its value on the row. -/
theorem read_ended (name : List Char) (h : EndsOperand rest) :
    read up row ⟨.name name false, call, outer, params⟩ rest =
      read up row (join ⟨.after, call, outer, params⟩ (row (.ofList name))) rest := by
  cases rest with
  | nil => rfl
  | cons c rest =>
    have same : step up row ⟨.name name false, call, outer, params⟩ c =
        step up row (join ⟨.after, call, outer, params⟩ (row (.ofList name))) c := by
      rcases h c rfl with rfl | rfl | rfl
      · rfl
      · rfl
      · cases outer <;> rfl
    rw [read, read, same]

/-- The name before a parenthesis is the function that is called. -/
theorem read_function {w : List Char} (hw : w ≠ []) (h : ∀ c ∈ w, isNameChar c = true) (rest : List Char) :
    read up row ⟨.operand, call, outer, params⟩ (w ++ '(' :: rest) =
      read up row ⟨.operand, ⟨w, [], []⟩, call :: outer, params⟩ rest := by
  obtain ⟨c, w, rfl⟩ := List.exists_cons_of_ne_nil hw
  rw [List.cons_append, read_cons (step_operand (h c List.mem_cons_self)),
    read_name fun d hd => h d (List.mem_cons_of_mem c hd)]
  exact read_cons rfl rest

/-- An argument that another one follows. -/
theorem read_argument {f : Fragment} {value : List Char} (h : Denotes up row f value) (function : List Char)
    (arguments : List (List Char)) (rest : List Char) :
    read up row ⟨.operand, ⟨function, arguments, []⟩, outer, f.params ++ params⟩ (f.template.toList ++ ',' :: ' ' :: rest) =
      read up row ⟨.operand, ⟨function, arguments ++ [value], []⟩, outer, params⟩ rest := by
  rw [h _ _ _ _ (by simp [EndsOperand])]
  exact (read_cons rfl _).trans (read_cons rfl _)

/-- The last argument, after which the function has its value. -/
theorem read_lastArgument {f : Fragment} {value result : List Char} (h : Denotes up row f value) {function : List Char}
    {arguments : List (List Char)} (applied : applied? up function (arguments ++ [value]) = some result)
    (rest : List Char) :
    read up row ⟨.operand, ⟨function, arguments, []⟩, call :: outer, f.params ++ params⟩
        (f.template.toList ++ ')' :: rest) =
      read up row (join ⟨.after, call, outer, params⟩ result) rest := by
  rw [h _ _ _ _ (by simp [EndsOperand])]
  refine read_cons ?_ rest
  change (applied? up function (arguments ++ [value]) >>= fun result => _) = _
  rw [applied]
  rfl

end State

namespace Denotes

variable {f g : Fragment} {s t : List Char}

theorem text (s : String) : Denotes up row (.sql (.ofList (Literal.quoteText s.toList))) s.toList := by
  intro call outer params rest ends
  have opened : State.step up row ⟨.operand, call, outer, params⟩ '\'' = some ⟨.literal, call, outer, params⟩ := rfl
  change State.read up row ⟨.operand, call, outer, params⟩ ((String.ofList _).toList ++ rest) = _
  rw [String.toList_ofList, Literal.quoteText, List.cons_append, List.cons_append, List.append_assoc,
    State.read_cons opened]
  exact (State.read_literal s.toList rest).trans (State.read_closing ends)

theorem param (s : String) : Denotes up row (.param (.text s)) s.toList := by
  intro call outer params rest _
  have template : (Fragment.param (.text s)).template.toList ++ rest = '?' :: rest := by
    simp [Fragment.param]
  rw [template]
  exact State.read_cons rfl rest

/-- A delimited name stands for what the row has under it. -/
theorem name (body : List Char) (h : '"' ∉ body) :
    Denotes up row (.sql (.ofList (Identifier.delimit body))) (row (.ofList (Identifier.delimit body))) := by
  intro call outer params rest ends
  have opened : State.step up row ⟨.operand, call, outer, params⟩ '"' = some ⟨.name ['"'] true, call, outer, params⟩ := rfl
  change State.read up row ⟨.operand, call, outer, params⟩ ((String.ofList _).toList ++ rest) = _
  rw [String.toList_ofList, Identifier.delimit, List.cons_append, List.cons_append, List.append_assoc,
    State.read_cons opened, State.read_inside h]
  exact (State.read_cons rfl rest).trans (State.read_ended _ ends)

theorem concat (h : Denotes up row f s) (h' : Denotes up row g t) :
    Denotes up row (f ++ Fragment.sql " || " ++ g) (s ++ t) := by
  intro call outer params rest ends
  have template : (f ++ Fragment.sql " || " ++ g).template.toList ++ rest =
      f.template.toList ++ ' ' :: '|' :: '|' :: ' ' :: (g.template.toList ++ rest) := by
    simp [Fragment.sql]
  have bound : (f ++ Fragment.sql " || " ++ g).params ++ params = f.params ++ (g.params ++ params) := by
    simp [Fragment.sql]
  rw [template, bound, h _ _ _ _ (by simp [EndsOperand]), ← State.join_join]
  refine Eq.trans ?_ (h' _ _ _ _ ends)
  exact (State.read_cons rfl _).trans ((State.read_cons rfl _).trans ((State.read_cons rfl _).trans (State.read_cons rfl _)))

theorem upper (h : Denotes up row f s) :
    Denotes up row (Fragment.sql "UPPER" ++ Fragment.sql "(" ++ f ++ Fragment.sql ")") (s.map up) := by
  intro call outer params rest ends
  have template : (Fragment.sql "UPPER" ++ Fragment.sql "(" ++ f ++ Fragment.sql ")").template.toList ++ rest =
      ['U', 'P', 'P', 'E', 'R'] ++ '(' :: (f.template.toList ++ ')' :: rest) := by
    simp [Fragment.sql]
  have bound : (Fragment.sql "UPPER" ++ Fragment.sql "(" ++ f ++ Fragment.sql ")").params ++ params = f.params ++ params := by
    simp [Fragment.sql]
  rw [template, bound, State.read_function (List.cons_ne_nil _ _) (List.all_eq_true.mp rfl)]
  exact State.read_lastArgument h rfl rest

theorem replace {pat form : Fragment} {p r : List Char} (h : Denotes up row f s) (hp : Denotes up row pat p)
    (hr : Denotes up row form r) :
    Denotes up row (Fragment.sql "REPLACE" ++ Fragment.sql "(" ++ f ++ Fragment.sql ", " ++ pat ++ Fragment.sql ", " ++ form ++
      Fragment.sql ")") (Text.replaceAll p r s) := by
  intro call outer params rest ends
  have template : (Fragment.sql "REPLACE" ++ Fragment.sql "(" ++ f ++ Fragment.sql ", " ++ pat ++ Fragment.sql ", " ++
      form ++ Fragment.sql ")").template.toList ++ rest =
      ['R', 'E', 'P', 'L', 'A', 'C', 'E'] ++ '(' :: (f.template.toList ++ ',' :: ' ' ::
        (pat.template.toList ++ ',' :: ' ' :: (form.template.toList ++ ')' :: rest))) := by
    simp [Fragment.sql]
  have bound : (Fragment.sql "REPLACE" ++ Fragment.sql "(" ++ f ++ Fragment.sql ", " ++ pat ++ Fragment.sql ", " ++
      form ++ Fragment.sql ")").params ++ params = f.params ++ (pat.params ++ (form.params ++ params)) := by
    simp [Fragment.sql]
  rw [template, bound, State.read_function (List.cons_ne_nil _ _) (List.all_eq_true.mp rfl), State.read_argument h,
    State.read_argument hp]
  exact State.read_lastArgument hr rfl rest

end Denotes

/-! Patterns -/

/-- What stands between `LIKE` and the escape character, which is the backslash. -/
def likeOperand? (right : List Char) : Option (List Char) :=
  (Text.dropHead? "LIKE ".toList right).bind fun rest =>
    (Text.dropHead? " ESCAPE '\\'".toList.reverse rest.reverse).map List.reverse

/-- The pattern that the right side of a condition compares with. -/
def pattern? (up : Char → Char) (row : String → List Char) (right : Fragment) : Option (List Char) :=
  (likeOperand? right.template.toList).bind fun operand => eval? up row ⟨.ofList operand, right.params⟩

theorem likeOperand?_between (operand : List Char) :
    likeOperand? ("LIKE ".toList ++ operand ++ " ESCAPE '\\'".toList) = some operand := by
  have head : Text.dropHead? "LIKE ".toList ("LIKE ".toList ++ operand ++ " ESCAPE '\\'".toList) =
      some (operand ++ " ESCAPE '\\'".toList) := Text.dropHead?_eq_some_iff.mpr (List.append_assoc ..)
  have tail : Text.dropHead? " ESCAPE '\\'".toList.reverse (operand ++ " ESCAPE '\\'".toList).reverse =
      some operand.reverse := Text.dropHead?_eq_some_iff.mpr List.reverse_append
  rw [likeOperand?, head, Option.bind_some, tail, Option.map_some, List.reverse_reverse]

theorem Denotes.pattern? {f : Fragment} {s : List Char} (h : Denotes up row f s) :
    pattern? up row (Fragment.sql "LIKE " ++ f ++ Fragment.sql " ESCAPE '\\'") = some s := by
  have template : (Fragment.sql "LIKE " ++ f ++ Fragment.sql " ESCAPE '\\'").template.toList =
      "LIKE ".toList ++ f.template.toList ++ " ESCAPE '\\'".toList := by
    simp [Fragment.sql]
  have bound : (Fragment.sql "LIKE " ++ f ++ Fragment.sql " ESCAPE '\\'").params = f.params := by
    simp [Fragment.sql]
  rw [TextExpression.pattern?, template, bound, likeOperand?_between, Option.bind_some, String.ofList_toList]
  exact h.eval?

end TextExpression

namespace Lookup

open TextExpression (Denotes pattern?)

variable {up : Char → Char} {row : String → List Char} {l : Lookup} {anchor : Anchor} {f : Fragment} {s : List Char}

theorem denotes_escapedWildcards (h : Denotes up row f s) :
    Denotes up row (escapedWildcards f).render (escapeWildcards s) := by
  have replaced := ((h.replace (.text "\\") (.text "\\\\")).replace (.text "%") (.text "\\%")).replace (.text "_") (.text "\\_")
  have characters : "\\".toList = ['\\'] ∧ "%".toList = ['%'] ∧ "_".toList = ['_'] := by decide
  rw [characters.1, characters.2.1, characters.2.2, Text.replaceAll_singleton, Text.replaceAll_singleton,
    Text.replaceAll_singleton] at replaced
  exact replaced

theorem denotes_surrounded {e : Scalar Fragment} (h : Denotes up row e.render s) (anchor : Anchor) :
    Denotes up row (anchor.surrounded e).render (anchor.surround s) := by
  cases anchor with
  | anywhere => exact ((Denotes.text "%").concat h).concat (.text "%")
  | start => exact h.concat (.text "%")
  | finish => exact (Denotes.text "%").concat h

theorem denotes_pattern (h : Denotes up row f s) (l : Lookup) (anchor : Anchor) :
    Denotes up row (l.pattern anchor f).render (anchor.surround (l.compared up (escapeWildcards s))) := by
  refine denotes_surrounded ?_ anchor
  unfold compared
  split
  · exact (denotes_escapedWildcards h).upper
  · exact denotes_escapedWildcards h

/-- The operator of a pattern lookup with the placeholder in the place of the pattern. -/
theorem operator_pattern (hl : l.anchor? = some anchor) (p : String) :
    pattern? up row ⟨l.operator, [.text p]⟩ = some (l.compared up p.toList) := by
  have parts : (⟨l.operator, [.text p]⟩ : Fragment) = .sql "LIKE " ++
      (if l.ignoresCase then .sql "UPPER" ++ .sql "(" ++ .param (.text p) ++ .sql ")" else .param (.text p)) ++
        .sql " ESCAPE '\\'" := by
    cases l <;> cases hl <;> rfl
  rw [parts]
  refine Denotes.pattern? ?_
  unfold compared
  split
  · exact (Denotes.param p).upper
  · exact .param p

/-- Whatever expression a text comes from, the pattern that the engine computes from the expression is the one that it
gets from the pattern that is bound for the text. -/
theorem pattern_of_expression_eq_bound (percent : up '%' = '%') (hl : l.anchor? = some anchor) {s : String}
    (h : Denotes up row f s.toList) (column : Fragment) :
    l.condition column (.expr f) = l.castColumn column ++ .sql " " ++ l.operatorOn f ∧
      l.condition column (.value (.text s)) = l.castColumn column ++ .sql " " ++ ⟨l.operator, [l.bound (.text s)]⟩ ∧
      ∃ pattern, pattern? up row (l.operatorOn f) = some pattern ∧
        pattern? up row ⟨l.operator, [l.bound (.text s)]⟩ = some pattern := by
  refine ⟨rfl, rfl, anchor.surround (l.compared up (escapeWildcards s.toList)), ?_, ?_⟩
  · rw [operatorOn, hl]
    exact (denotes_pattern h l anchor).pattern?
  · rw [bound_text hl, operator_pattern hl, String.toList_ofList, compared_surround percent]

/-- The title of a book, in a column that is looked for in another one. -/
theorem pattern_of_title_eq_bound :
    let row (name : String) : List Char := if name = "\"TITLE\"" then "50%_off\\ now".toList else []
    Denotes Char.toUpper row (.sql "\"TITLE\"") "50%_off\\ now".toList ∧
      ∃ pattern, pattern? Char.toUpper row (Lookup.icontains.operatorOn (.sql "\"TITLE\"")) = some pattern ∧
        pattern? Char.toUpper row ⟨Lookup.icontains.operator, [Lookup.icontains.bound (.text "50%_off\\ now")]⟩ =
          some pattern := by
  intro row
  have title : Denotes Char.toUpper row (.sql "\"TITLE\"") "50%_off\\ now".toList :=
    Denotes.name "TITLE".toList (by decide)
  exact ⟨title, (pattern_of_expression_eq_bound rfl rfl title (.sql "\"SUBTITLE\"")).2.2⟩

end Lookup

end FirebirdSql
