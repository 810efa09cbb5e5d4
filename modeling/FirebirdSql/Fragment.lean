import FirebirdSql.Error

/-!
Fragments of statements: a template with placeholders, and the values bound to them in order. A question mark inside
single or double quotes is not a placeholder.
-/

namespace FirebirdSql

structure Fragment where
  template : String
  params : List Value
  deriving DecidableEq

namespace Fragment

/-- Where a scan of a template stands: outside quotes, or inside those of one character. -/
abbrev Quote := Option Char

/-- A quote opens outside of quotes, and closes with its own character. -/
def step (q : Quote) (c : Char) : Quote :=
  match q with
  | some d => if c = d then none else some d
  | none => if c = '\'' ∨ c = '"' then some c else none

def isPlaceholder (q : Quote) (c : Char) : Bool := q == none && c == '?'

/-- The quote that a scan from `q` ends in. -/
def scan (q : Quote) (template : List Char) : Quote := template.foldl step q

/-- The number of placeholders that a scan from `q` meets. -/
def countFrom (q : Quote) : List Char → Nat
  | [] => 0
  | c :: rest => (if isPlaceholder q c then 1 else 0) + countFrom (step q c) rest

def countPlaceholders (template : String) : Nat := countFrom none template.toList

def empty : Fragment := ⟨"", []⟩

/-- A fragment without values. -/
def sql (template : String) : Fragment := ⟨template, []⟩

/-- A single bound value. -/
def param (v : Value) : Fragment := ⟨"?", [v]⟩

def append (f g : Fragment) : Fragment := ⟨f.template ++ g.template, f.params ++ g.params⟩

instance : Append Fragment := ⟨append⟩

def pushSql (f : Fragment) (s : String) : Fragment := ⟨f.template ++ s, f.params⟩

def pushParam (f : Fragment) (v : Value) : Fragment := f ++ param v

/-- The parts with `sep` between each and the next. -/
def join (sep : String) : List Fragment → Fragment
  | [] => empty
  | [f] => f
  | f :: rest => f ++ sql sep ++ join sep rest

/-- Puts the arguments for the holes of a pattern; a hole without one gets nothing. -/
def fill : List Char → List Fragment → Fragment
  | [], _ => empty
  | '\x7b' :: '\x7d' :: rest, args => args.headD empty ++ fill rest args.tail
  | c :: rest, args => sql (String.singleton c) ++ fill rest args

/-- A pattern with holes, filled in order. -/
def format (pattern : String) (args : List Fragment) : Fragment := fill pattern.toList args

def placeholders (f : Fragment) : Nat := countPlaceholders f.template

/-- Every placeholder has its value. -/
def validate (f : Fragment) : Except Error Unit :=
  if f.placeholders = f.params.length then .ok ()
  else .error (.parameterMismatch f.placeholders f.params.length)

def isEmpty (f : Fragment) : Bool := (Text.trim f.template.toList).isEmpty

/-- Writes the values in the places of the placeholders, as far as there are any. -/
def inlineFrom (literal : Value → List Char) (q : Quote) : List Char → List Value → List Char
  | [], _ => []
  | c :: rest, params =>
    match isPlaceholder q c, params with
    | true, v :: params => literal v ++ inlineFrom literal (step q c) rest params
    | _, params => c :: inlineFrom literal (step q c) rest params

/-- The template with its values written out. -/
def inlined (literal : Value → List Char) (f : Fragment) : String :=
  .ofList (inlineFrom literal none f.template.toList f.params)

@[simp] theorem append_template (f g : Fragment) : (f ++ g).template = f.template ++ g.template := rfl

@[simp] theorem append_params (f g : Fragment) : (f ++ g).params = f.params ++ g.params := rfl

theorem countFrom_append (q : Quote) (s t : List Char) :
    countFrom q (s ++ t) = countFrom q s + countFrom (scan q s) t := by
  induction s generalizing q with
  | nil => simp [countFrom, scan]
  | cons c s ih => simp [countFrom, scan, ih, Nat.add_assoc]

end Fragment

end FirebirdSql
