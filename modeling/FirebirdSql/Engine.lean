import FirebirdSql.Error
import FirebirdSql.Text.Case

/-!
Versions of the engine, read from the banner of a server, and what an engine of a version can do.
-/

namespace FirebirdSql

structure Version where
  major : Nat
  minor : Nat
  patch : Nat
  build : Nat
  deriving DecidableEq, Repr

namespace Version

def greatestNumber : Nat := 0xFFFFFFFF

/-- Two to four numbers between points; what comes after the fourth is not read. -/
def ofNumbers? (token : List Char) : Option Version := do
  match ← ((Text.splitAt '.' token).take 4).mapM (Text.readUpTo? greatestNumber) with
  | [a, b] => some ⟨a, b, 0, 0⟩
  | [a, b, c] => some ⟨a, b, c, 0⟩
  | [a, b, c, d] => some ⟨a, b, c, d⟩
  | _ => none

/-- The numbers after the build mark of the first word that has one. -/
def build? (words : List (List Char)) : Option Version := do
  let (_, numbers) ← words.findSome? (Text.splitFirst? ['-', 'V'])
  ofNumbers? numbers

/-- The word after the product's name. -/
def afterProduct? : List (List Char) → Option (List Char)
  | [] => none
  | word :: rest =>
    if Text.sameAsciiLetters word "firebird".toList then rest.head? else afterProduct? rest

/-- The numbers after the product's name, else those that the banner ends with. -/
def product? (words : List (List Char)) : Option Version :=
  ((afterProduct? words).bind ofNumbers?).or (words.getLast?.bind ofNumbers?)

/-- The version in a banner. The build numbers win, unless the product's own version differs: old servers give an
older product's numbers there. -/
def ofBanner (banner : String) : Except Error Version :=
  let words := Text.words banner.toList
  match build? words, product? words with
  | some full, some product =>
    if full.major ≠ product.major ∨ full.minor ≠ product.minor then .ok product else .ok full
  | some full, none => .ok full
  | none, some product => .ok product
  | none, none => .error (.invalidVersion banner)

def text (v : Version) : String :=
  Text.joined "." ([v.major, v.minor, v.patch, v.build].map Text.natText)

end Version

/-- What an engine can do, by its version. -/
structure Engine where
  version : Version
  deriving DecidableEq, Repr

namespace Engine

def isModern (e : Engine) : Bool := decide (3 ≤ e.version.major)

/-- Booleans are a type of their own, with literals. -/
def hasBooleans (e : Engine) : Bool := e.isModern

/-- A column's nullability has a statement of its own. -/
def hasNotNullStatement (e : Engine) : Bool := e.isModern

/-- The greatest length of an identifier. -/
def identifierLimit (e : Engine) : Nat := if e.isModern then 63 else 31

/-- An insertion can return the key it made. -/
def returnsInsertedKey (e : Engine) : Bool := decide (2 ≤ e.version.major)

def ofBanner (banner : String) : Except Error Engine := Engine.mk <$> Version.ofBanner banner

theorem identifierLimit_ge (e : Engine) : 31 ≤ e.identifierLimit := by
  unfold identifierLimit
  split <;> decide

end Engine

end FirebirdSql
