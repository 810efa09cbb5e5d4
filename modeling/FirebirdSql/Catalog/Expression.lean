import FirebirdSql.Text.Blank
import FirebirdSql.Text.Case
import FirebirdSql.Text.Search

/-!
Normal forms of the expressions that indexes are computed by. The engine may store one in other letters, with other
blanks, and in further parentheses.
-/

namespace FirebirdSql.Catalog.Expression

/-- No parenthesis closes that was not opened, and `depth` of them are open at the start and none at the end. -/
def balancedFrom (depth : Nat) : List Char → Bool
  | [] => depth == 0
  | c :: rest =>
    if c = '(' then balancedFrom (depth + 1) rest
    else if c = ')' then
      match depth with
      | 0 => false
      | depth + 1 => balancedFrom depth rest
    else balancedFrom depth rest

def balanced (s : List Char) : Bool := balancedFrom 0 s

/-- What stands in a pair of parentheses around the whole. -/
def unwrap? (s : List Char) : Option (List Char) :=
  match s with
  | '(' :: rest =>
    if rest.getLast? = some ')' ∧ balanced rest.dropLast then some rest.dropLast else none
  | _ => none

theorem unwrap?_length {s t : List Char} (h : unwrap? s = some t) : t.length < s.length := by
  unfold unwrap? at h
  split at h
  · split at h
    · obtain rfl := Option.some.inj h
      simp only [List.length_dropLast, List.length_cons]
      omega
    · cases h
  · cases h

/-- Takes off all the parentheses around the whole. -/
def strip (s : List Char) : List Char :=
  match _h : unwrap? s with
  | some t => strip t
  | none => s
termination_by s.length
decreasing_by exact unwrap?_length _h

def computedBy : List Char := "COMPUTEDBY".toList

/-- The text in upper case without blanks, without the clause's keywords and the parentheses around it. -/
def normalize (source : List Char) : List Char :=
  let s := Text.upper (source.filter (!Text.isBlank ·))
  strip ((Text.dropHead? computedBy s).getD s)

/-- `normalize` on strings. -/
def normalized (source : String) : String := .ofList (normalize source.toList)

end FirebirdSql.Catalog.Expression
