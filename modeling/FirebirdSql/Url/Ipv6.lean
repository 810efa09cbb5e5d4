import FirebirdSql.Text.Hex
import FirebirdSql.Text.Numeral
import FirebirdSql.Text.Search

/-!
IPv6 addresses: eight pieces of sixteen bits. One run of zeros may be left out, and the last two pieces may be written
as an IPv4 address.
-/

namespace FirebirdSql.Url.Ipv6

/-- One to four hexadecimal digits. -/
def piece? (group : List Char) : Option Nat :=
  if group.isEmpty ∨ 4 < group.length then none else Text.readHex? group

/-- A number up to 255 without leading zeros. -/
def octet? (s : List Char) : Option Nat :=
  if s.head? = some '0' ∧ s ≠ ['0'] then none else (Text.readNat? s).filter (· ≤ 255)

/-- The two pieces of an IPv4 address. -/
def ipv4Pieces? (group : List Char) : Option (List Nat) := do
  match ← (Text.splitAt '.' group).mapM octet? with
  | [a, b, c, d] => some [256 * a + b, 256 * c + d]
  | _ => none

/-- Pieces before and after the run that is left out, if there is one. -/
structure Reading where
  before : List Nat
  after : Option (List Nat)

def Reading.count (r : Reading) : Nat :=
  r.before.length + match r.after with
    | some after => after.length + 1
    | none => 0

def Reading.add (r : Reading) (pieces : List Nat) : Reading :=
  match r.after with
  | some after => { r with after := some (after ++ pieces) }
  | none => { r with before := r.before ++ pieces }

/-- Reads the groups between colons. An empty group is the run that is left out; the last one may also be the end
after it. -/
def Reading.groups? (r : Reading) : List (List Char) → Option Reading
  | [] => some r
  | [[]] => some r
  | [group] =>
    if 8 ≤ r.count then none
    else if group.contains '.' then
      if 6 < r.count then none else r.add <$> ipv4Pieces? group
    else (piece? group).map fun p => r.add [p]
  | [] :: rest =>
    if 8 ≤ r.count ∨ r.after.isSome then none else { r with after := some [] : Reading }.groups? rest
  | group :: rest =>
    if 8 ≤ r.count ∨ rest = [[]] then none
    else match piece? group with
      | some p => (r.add [p]).groups? rest
      | none => none

/-- All eight pieces. -/
def Reading.pieces? (r : Reading) : Option (List Nat) :=
  match r.after with
  | some after => some (r.before ++ List.replicate (8 - r.before.length - after.length) 0 ++ after)
  | none => if r.before.length = 8 then some r.before else none

def read? (s : List Char) : Option (List Nat) := do
  let r ← match Text.splitAt ':' s with
    | [] :: [] :: group :: rest => ({ before := [], after := some [] } : Reading).groups? (group :: rest)
    | [] :: _ => none
    | groups => ({ before := [], after := none } : Reading).groups? groups
  r.pieces?

/-- The number of zeros at the start. -/
def zeros (pieces : List Nat) : Nat := (pieces.takeWhile (· == 0)).length

/-- The first of the longest runs of two zeros or more, as its start and length. -/
def longestRun? (pieces : List Nat) : Option (Nat × Nat) :=
  (List.range 8).foldl (fun best i =>
    let n := zeros (pieces.drop i)
    let longest := match best with
      | some (_, length) => length
      | none => 1
    if longest < n then some (i, n) else best) none

def colons (pieces : List Nat) : List Char := Text.joinWith [':'] (pieces.map Text.hexDigits)

/-- The pieces between colons, with the longest run of zeros left out. -/
def write (pieces : List Nat) : List Char :=
  match longestRun? pieces with
  | some (start, length) => colons (pieces.take start) ++ ':' :: ':' :: colons (pieces.drop (start + length))
  | none => colons pieces

end FirebirdSql.Url.Ipv6
