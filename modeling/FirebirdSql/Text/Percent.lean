import FirebirdSql.Text.Hex
import FirebirdSql.Text.Utf8

/-!
Percent encoding: a byte as `%` and two hexadecimal digits. A percent sign without two digits stands for itself.
-/

namespace FirebirdSql.Text.Percent

/-- The upper-case hexadecimal form of a byte. -/
def encodeByte (b : UInt8) : List Char := '%' :: (hexByte b).map Char.toUpper

/-- Encodes the characters that `escapes` holds of, and all those beyond ASCII. -/
def encode (escapes : Char → Bool) (s : List Char) : List Char :=
  s.flatMap fun c =>
    if decide (128 ≤ c.toNat) || escapes c then (String.utf8EncodeChar c).flatMap encodeByte else [c]

/-- The bytes that the text stands for. -/
def decode : List Char → List UInt8
  | [] => []
  | '%' :: a :: b :: rest =>
    match hexValue? a, hexValue? b with
    | some high, some low => UInt8.ofNat (16 * high + low) :: decode rest
    | _, _ => String.utf8EncodeChar '%' ++ decode (a :: b :: rest)
  | c :: rest => String.utf8EncodeChar c ++ decode rest

/-- The decoded text, with bytes that are not UTF-8 replaced. -/
def decodeText (s : List Char) : String := .ofList (Utf8.decodeLossy (decode s))

end FirebirdSql.Text.Percent
