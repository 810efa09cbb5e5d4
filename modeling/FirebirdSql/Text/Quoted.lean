import FirebirdSql.Text.HiddenTable
import FirebirdSql.Text.Hex

/-!
Text between double quotes, as messages show it: the quote and the backslash are escaped, and so is every character
that would not be seen.
-/

namespace FirebirdSql.Text

/-- A character that is not shown as itself. -/
def isHidden (c : Char) : Bool :=
  if c.toNat < 128 then decide (c.toNat < 32) || c.toNat == 127
  else hiddenRanges.any fun r => decide (r.1 ≤ c.toNat) && decide (c.toNat ≤ r.2)

def escaped (c : Char) : List Char :=
  match c with
  | '"' => ['\\', '"']
  | '\\' => ['\\', '\\']
  | '\n' => ['\\', 'n']
  | '\r' => ['\\', 'r']
  | '\t' => ['\\', 't']
  | '\x00' => ['\\', '0']
  | c => if isHidden c then ['\\', 'u', '\x7b'] ++ hexDigits c.toNat ++ ['\x7d'] else [c]

def quoted (s : String) : String := .ofList ('"' :: s.toList.flatMap escaped ++ ['"'])

end FirebirdSql.Text
