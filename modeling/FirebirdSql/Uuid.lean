import FirebirdSql.Text.Hex
import FirebirdSql.Text.Search

/-!
Universally unique identifiers of 128 bits. They are written as 32 hexadecimal digits or in five groups, and read in
either form, in braces or as a uniform resource name.
-/

namespace FirebirdSql

structure Uuid where
  value : BitVec 128
  deriving DecidableEq, Repr

namespace Uuid

/-- All the digits in one run. -/
def simpleChars (u : Uuid) : List Char := Text.hexPadded 32 u.value.toNat

/-- Five groups of 8, 4, 4, 4 and 12 digits. -/
def groupedChars (u : Uuid) : List Char :=
  let ds := u.simpleChars
  ds.take 8 ++ '-' :: (ds.drop 8).take 4 ++ '-' :: (ds.drop 12).take 4 ++
    '-' :: (ds.drop 16).take 4 ++ '-' :: ds.drop 20

def text (u : Uuid) : String := .ofList u.groupedChars

/-- Exactly 32 digits. -/
def ofDigits? (s : List Char) : Option Uuid :=
  if s.length = 32 then (Text.readHex? s).map fun n => ⟨BitVec.ofNat 128 n⟩ else none

/-- Five groups, with a dash between each and the next. -/
def ofGroups? (s : List Char) : Option Uuid :=
  if s.length = 36 ∧ [8, 13, 18, 23].all fun i => s[i]? == some '-' then
    ofDigits? (s.take 8 ++ (s.drop 9).take 4 ++ (s.drop 14).take 4 ++ (s.drop 19).take 4 ++ s.drop 24)
  else none

def resourceName : List Char := "urn:uuid:".toList

def read? (s : List Char) : Option Uuid :=
  if s.length = 32 then ofDigits? s
  else if s.length = 36 then ofGroups? s
  else if s.length = 38 ∧ s.head? = some '\x7b' ∧ s.getLast? = some '\x7d' then ofGroups? (s.drop 1).dropLast
  else if s.length = 45 ∧ (s.take 9).map Char.toLower = resourceName then ofGroups? (s.drop 9)
  else none

end Uuid

end FirebirdSql
