import FirebirdSql.Digest
import FirebirdSql.Engine
import FirebirdSql.Text.Case
import FirebirdSql.Text.Search

/-!
Delimited identifiers. A plain name is taken in upper case and cut to the limit of the engine, with the start of a
digest at the cut; a name that comes between quotes is kept as it is. The catalog stores what stands between the
quotes. Names of indexes and constraints are derived from the table and the columns.
-/

namespace FirebirdSql

/-- An identifier as statements spell it, between double quotes. -/
structure Identifier where
  text : String
  deriving DecidableEq, Repr

namespace Identifier

/-- The length of the digest in a cut name. -/
def cutDigestLength : Nat := 4

/-- At most `limit` characters; a longer name ends in a digest of the whole. -/
def cut (limit : Nat) (name : List Char) : List Char :=
  if name.length ≤ limit then name
  else name.take (limit - cutDigestLength) ++ Digest.ofNames [name] cutDigestLength

def isDelimited (name : List Char) : Bool :=
  decide (2 ≤ name.length) && name.head? == some '"' && name.getLast? == some '"'

def delimit (body : List Char) : List Char := '"' :: body ++ ['"']

/-- The name between quotes: as it is if it has them, else in upper case and cut. -/
def quoteChars (limit : Nat) (name : List Char) : List Char :=
  if isDelimited name then name else delimit (Text.upper (cut limit (Text.upper name)))

/-- What stands between the quotes. -/
def undelimit (name : List Char) : List Char := (name.drop 1).dropLast

def quote (e : Engine) (name : String) : Identifier := ⟨.ofList (quoteChars e.identifierLimit name.toList)⟩

/-- The name as the catalog stores it. -/
def catalogName (e : Engine) (name : String) : String :=
  .ofList (undelimit (quoteChars e.identifierLimit name.toList))

/-- The identifier of exactly the stored name, a quote in it written twice. -/
def ofStored (name : String) : Identifier :=
  ⟨.ofList (delimit (Text.replaceChar '"' ['"', '"'] name.toList))⟩

/-- The length of the digest in a derived name. -/
def derivedDigestLength : Nat := 8

/-- Identifiers start with neither an underscore nor a digit. -/
def mendHead (limit : Nat) (name : List Char) : List Char :=
  match name with
  | c :: _ => if c = '_' ∨ c.isDigit then 'D' :: name.take (limit - 1) else name
  | [] => []

/-- The name of an index or constraint over columns: table, columns, and a digest of both with the suffix. What does
not fit is cut from the table and from the columns alike. -/
def derivedChars (limit : Nat) (table : List Char) (columns : List (List Char)) (suffix : List Char) :
    List Char :=
  let tail := Digest.ofNames (table :: columns) derivedDigestLength ++ suffix
  let columns := Text.joinWith ['_'] columns
  let name := table ++ '_' :: columns ++ '_' :: tail
  let share := (limit - (Text.Utf8.encode tail).length) / 2 - 1
  let name := if limit < name.length then table.take share ++ '_' :: columns.take share ++ '_' :: tail else name
  Text.upper (mendHead limit name)

def derivedName (e : Engine) (table : String) (columns : List String) (suffix : String) : String :=
  .ofList (derivedChars e.identifierLimit table.toList (columns.map String.toList) suffix.toList)

end Identifier

end FirebirdSql
