import FirebirdSql.Fragment

/-!
Splicing: a template is cut at the byte offsets of its placeholders, and the values are written out at the cuts.
-/

namespace FirebirdSql

/-- The part of a text between two byte offsets. There is none if they are out of order, or if one of them lies within
a character or beyond the end. -/
def Text.slice? (s : String) (first last : Nat) : Option String :=
  if first ≤ last ∧ String.Pos.Raw.IsValid s ⟨first⟩ ∧ String.Pos.Raw.IsValid s ⟨last⟩ then
    some (String.Pos.Raw.extract s ⟨first⟩ ⟨last⟩)
  else none

namespace Fragment

/-- The byte offsets of the placeholders that a scan from `q` meets, for a text that itself begins at `offset`. -/
def offsetsFrom (q : Quote) (offset : Nat) : List Char → List Nat
  | [] => []
  | c :: rest =>
    let others := offsetsFrom (step q c) (offset + c.utf8Size) rest
    if isPlaceholder q c then offset :: others else others

def offsets (template : String) : List Nat := offsetsFrom none 0 template.toList

/-- The template from `first` on, with a literal in the place of the byte at each of the offsets. -/
def spliceFrom? (template : String) (first : Nat) : List (Nat × String) → Option String
  | [] => Text.slice? template first template.utf8ByteSize
  | (offset, literal) :: rest => do
    let part ← Text.slice? template first offset
    let tail ← spliceFrom? template (offset + 1) rest
    return part ++ literal ++ tail

/-- The template with its values written out, as far as there are both. -/
def spliced? (literal : Value → String) (f : Fragment) : Option String :=
  spliceFrom? f.template 0 ((offsets f.template).zip (f.params.map literal))

end Fragment

end FirebirdSql
