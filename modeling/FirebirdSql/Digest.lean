import FirebirdSql.Text.Hex
import FirebirdSql.Text.Utf8

/-!
The SHA-256 digest, by which long names are told apart.
-/

namespace FirebirdSql.Digest

def roundConstants : List UInt32 := [
  0x428a2f98, 0x71374491, 0xb5c0fbcf, 0xe9b5dba5, 0x3956c25b, 0x59f111f1, 0x923f82a4, 0xab1c5ed5,
  0xd807aa98, 0x12835b01, 0x243185be, 0x550c7dc3, 0x72be5d74, 0x80deb1fe, 0x9bdc06a7, 0xc19bf174,
  0xe49b69c1, 0xefbe4786, 0x0fc19dc6, 0x240ca1cc, 0x2de92c6f, 0x4a7484aa, 0x5cb0a9dc, 0x76f988da,
  0x983e5152, 0xa831c66d, 0xb00327c8, 0xbf597fc7, 0xc6e00bf3, 0xd5a79147, 0x06ca6351, 0x14292967,
  0x27b70a85, 0x2e1b2138, 0x4d2c6dfc, 0x53380d13, 0x650a7354, 0x766a0abb, 0x81c2c92e, 0x92722c85,
  0xa2bfe8a1, 0xa81a664b, 0xc24b8b70, 0xc76c51a3, 0xd192e819, 0xd6990624, 0xf40e3585, 0x106aa070,
  0x19a4c116, 0x1e376c08, 0x2748774c, 0x34b0bcb5, 0x391c0cb3, 0x4ed8aa4a, 0x5b9cca4f, 0x682e6ff3,
  0x748f82ee, 0x78a5636f, 0x84c87814, 0x8cc70208, 0x90befffa, 0xa4506ceb, 0xbef9a3f7, 0xc67178f2]

/-- The eight words that the blocks are worked into. -/
structure Chain where
  a : UInt32
  b : UInt32
  c : UInt32
  d : UInt32
  e : UInt32
  f : UInt32
  g : UInt32
  h : UInt32
  deriving DecidableEq, Repr

def Chain.initial : Chain :=
  ⟨0x6a09e667, 0xbb67ae85, 0x3c6ef372, 0xa54ff53a, 0x510e527f, 0x9b05688c, 0x1f83d9ab, 0x5be0cd19⟩

def Chain.words (k : Chain) : List UInt32 := [k.a, k.b, k.c, k.d, k.e, k.f, k.g, k.h]

def Chain.add (k l : Chain) : Chain :=
  ⟨k.a + l.a, k.b + l.b, k.c + l.c, k.d + l.d, k.e + l.e, k.f + l.f, k.g + l.g, k.h + l.h⟩

def rotate (x : UInt32) (n : UInt32) : UInt32 := (x >>> n) ||| (x <<< (32 - n))

/-- One round, with the sum of its constant and its word of the schedule. -/
def Chain.round (k : Chain) (word : UInt32) : Chain :=
  let s1 := rotate k.e 6 ^^^ rotate k.e 11 ^^^ rotate k.e 25
  let choice := (k.e &&& k.f) ^^^ (~~~k.e &&& k.g)
  let t1 := k.h + s1 + choice + word
  let s0 := rotate k.a 2 ^^^ rotate k.a 13 ^^^ rotate k.a 22
  let majority := (k.a &&& k.b) ^^^ (k.a &&& k.c) ^^^ (k.b &&& k.c)
  ⟨t1 + s0 + majority, k.a, k.b, k.c, k.d + t1, k.e, k.f, k.g⟩

/-- Adds `count` words to a schedule that is kept in reverse. -/
def schedule (reversed : List UInt32) : Nat → List UInt32
  | 0 => reversed
  | count + 1 =>
    let earlier (i : Nat) : UInt32 := reversed.getD i 0
    let x := earlier 14
    let y := earlier 1
    let s0 := rotate x 7 ^^^ rotate x 18 ^^^ (x >>> 3)
    let s1 := rotate y 17 ^^^ rotate y 19 ^^^ (y >>> 10)
    schedule ((earlier 15 + s0 + earlier 6 + s1) :: reversed) count

def wordOfBytes (bs : List UInt8) : UInt32 := bs.foldl (fun w b => (w <<< 8) ||| b.toUInt32) 0

/-- The words of `count` groups of four bytes. -/
def wordsOfBytes : Nat → List UInt8 → List UInt32
  | 0, _ => []
  | count + 1, bs => wordOfBytes (bs.take 4) :: wordsOfBytes count (bs.drop 4)

/-- Works in the block of the next 64 bytes. -/
def Chain.block (k : Chain) (bs : List UInt8) : Chain :=
  let words := (schedule (wordsOfBytes 16 bs).reverse 48).reverse
  k.add ((List.zipWith (· + ·) roundConstants words).foldl Chain.round k)

def Chain.blocks (k : Chain) : Nat → List UInt8 → Chain
  | 0, _ => k
  | count + 1, bs => (k.block bs).blocks count (bs.drop 64)

def bytesOfNat (count n : Nat) : List UInt8 :=
  (List.range count).map fun i => UInt8.ofNat (n / Nat.pow 256 (count - 1 - i))

/-- The bytes, a one bit, zeros, and the number of bits, to a whole number of blocks. -/
def padded (bs : List UInt8) : List UInt8 :=
  let zeros := (119 - bs.length % 64) % 64
  bs ++ 0x80 :: List.replicate zeros 0 ++ bytesOfNat 8 (8 * bs.length)

def sha256 (bs : List UInt8) : List UInt8 :=
  let message := padded bs
  (Chain.initial.blocks (message.length / 64) message).words.flatMap fun w => bytesOfNat 4 w.toNat

/-- The first `length` hexadecimal digits of the digest of the parts, one after another. -/
def ofNames (parts : List (List Char)) (length : Nat) : List Char :=
  (Text.hexOfBytes (sha256 (parts.flatMap Text.Utf8.encode))).take length

end FirebirdSql.Digest
