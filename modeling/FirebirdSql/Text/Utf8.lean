/-!
UTF-8 in both directions. Decoding names the first place where a byte sequence is not UTF-8, or puts one replacement
character for every maximal run that is not.
-/

namespace FirebirdSql.Text.Utf8

def encode (s : List Char) : List UInt8 := s.flatMap String.utf8EncodeChar

/-- Where decoding stops: the index of the first byte of the bad sequence, and its length unless the input ends
inside it. -/
structure Fault where
  index : Nat
  length : Option Nat
  deriving DecidableEq, Repr

/-- What a character still needs: the number of bytes to come, the bounds of the next one, how many bytes have been
read, and the bits they held. -/
structure Pending where
  count : Nat
  least : UInt8
  greatest : UInt8
  seen : Nat
  bits : Nat

/-- The start of a character of several bytes. -/
def lead? (b : UInt8) : Option Pending :=
  let tail (count : Nat) (least greatest : UInt8) (mask : Nat) : Option Pending :=
    some ⟨count, least, greatest, 1, b.toNat % mask⟩
  if 0xC2 ≤ b && b ≤ 0xDF then tail 1 0x80 0xBF 32
  else if b == 0xE0 then tail 2 0xA0 0xBF 16
  else if b == 0xED then tail 2 0x80 0x9F 16
  else if 0xE1 ≤ b && b ≤ 0xEF then tail 2 0x80 0xBF 16
  else if b == 0xF0 then tail 3 0x90 0xBF 8
  else if 0xF1 ≤ b && b ≤ 0xF3 then tail 3 0x80 0xBF 8
  else if b == 0xF4 then tail 3 0x80 0x8F 8
  else none

def Pending.accepts (p : Pending) (b : UInt8) : Bool := decide (p.least ≤ b) && decide (b ≤ p.greatest)

def Pending.add (p : Pending) (b : UInt8) : Pending :=
  ⟨p.count - 1, 0x80, 0xBF, p.seen + 1, p.bits * 64 + b.toNat % 64⟩

/-- Decodes the bytes from `index` on; a pending character started `seen` bytes before. -/
def decodeFrom (index : Nat) : Option Pending → List UInt8 → Except Fault (List Char)
  | none, [] => .ok []
  | some p, [] => .error ⟨index - p.seen, none⟩
  | none, b :: rest =>
    if b < 0x80 then (Char.ofNat b.toNat :: ·) <$> decodeFrom (index + 1) none rest
    else match lead? b with
      | some p => decodeFrom (index + 1) (some p) rest
      | none => .error ⟨index, some 1⟩
  | some p, b :: rest =>
    if p.accepts b then
      let q := p.add b
      if q.count = 0 then (Char.ofNat q.bits :: ·) <$> decodeFrom (index + 1) none rest
      else decodeFrom (index + 1) (some q) rest
    else .error ⟨index - p.seen, some p.seen⟩

def decode (bs : List UInt8) : Except Fault (List Char) := decodeFrom 0 none bs

def replacement : Char := Char.ofNat 0xFFFD

/-- A byte between characters: the characters it ends, and what is pending after it. -/
def lossyStart (b : UInt8) : List Char × Option Pending :=
  if b < 0x80 then ([Char.ofNat b.toNat], none)
  else match lead? b with
    | some p => ([], some p)
    | none => ([replacement], none)

def decodeLossyFrom : Option Pending → List UInt8 → List Char
  | none, [] => []
  | some _, [] => [replacement]
  | none, b :: rest =>
    let (out, next) := lossyStart b
    out ++ decodeLossyFrom next rest
  | some p, b :: rest =>
    if p.accepts b then
      let q := p.add b
      if q.count = 0 then Char.ofNat q.bits :: decodeLossyFrom none rest
      else decodeLossyFrom (some q) rest
    else
      let (out, next) := lossyStart b
      replacement :: out ++ decodeLossyFrom next rest

/-- Every byte sequence, with each bad run replaced. -/
def decodeLossy (bs : List UInt8) : List Char := decodeLossyFrom none bs

end FirebirdSql.Text.Utf8
