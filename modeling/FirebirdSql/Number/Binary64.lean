/-!
Binary floating-point numbers of 64 bits. A finite number is a significand times a power of two; rounding takes a
fraction of whole numbers to the nearest such number, a tie to the even significand.
-/

namespace FirebirdSql

structure Binary64 where
  bits : UInt64
  deriving DecidableEq, Repr

namespace Binary64

def negative (x : Binary64) : Bool := x.bits >>> 63 == 1

def exponentField (x : Binary64) : Nat := ((x.bits >>> 52) &&& 0x7FF).toNat

def fraction (x : Binary64) : Nat := (x.bits &&& 0xFFFFFFFFFFFFF).toNat

def isFinite (x : Binary64) : Bool := x.exponentField != 0x7FF

def isNaN (x : Binary64) : Bool := !x.isFinite && x.fraction != 0

def significand (x : Binary64) : Nat :=
  if x.exponentField = 0 then x.fraction else x.fraction + 0x10000000000000

/-- The magnitude of a finite number is `significand * 2 ^ exponent`. -/
def exponent (x : Binary64) : Int :=
  if x.exponentField = 0 then -1074 else (x.exponentField : Int) - 1075

def isZero (x : Binary64) : Bool := x.exponentField == 0 && x.fraction == 0

/-- Numeric equality: a number that is not one equals nothing, and both zeros are equal. -/
def same (x y : Binary64) : Bool :=
  !x.isNaN && !y.isNaN && (x == y || (x.isZero && y.isZero))

/-- The magnitude of a finite number as numerator and denominator. -/
def ratio (x : Binary64) : Nat × Nat :=
  if 0 ≤ x.exponent then (x.significand * Nat.pow 2 x.exponent.toNat, 1)
  else (x.significand, Nat.pow 2 (-x.exponent).toNat)

/-- The whole number nearest to `num / den`, a half going to the even one. -/
def nearestEven (num den : Nat) : Nat :=
  let q := num / den
  let r := 2 * (num % den)
  if r < den then q else if den < r then q + 1 else q + q % 2

def signBit (negative : Bool) : Nat := if negative then 0x8000000000000000 else 0

/-- The number nearest to `num / den`; beyond the largest one it is infinite. -/
def ofRatio (negative : Bool) (num den : Nat) : Binary64 :=
  if num = 0 then ⟨UInt64.ofNat (signBit negative)⟩
  else
    let place (e : Int) : Nat :=
      if 0 ≤ e then nearestEven num (den * Nat.pow 2 e.toNat) else nearestEven (num * Nat.pow 2 (-e).toNat) den
    let low := max ((num.log2 : Int) - den.log2 - 53) (-1074)
    let e := if place low < 0x20000000000000 then low else low + 1
    let magnitude := (e + 1074).toNat * 0x10000000000000 + place e
    ⟨UInt64.ofNat (signBit negative + min magnitude 0x7FF0000000000000)⟩

def ofInt (n : Int) : Binary64 := ofRatio (decide (n < 0)) n.natAbs 1

/-- Sum of two magnitudes. -/
def add (x y : Binary64) : Binary64 :=
  let (a, b) := x.ratio
  let (c, d) := y.ratio
  ofRatio false (a * d + c * b) (b * d)

/-- Product of two magnitudes. -/
def mul (x y : Binary64) : Binary64 :=
  let (a, b) := x.ratio
  let (c, d) := y.ratio
  ofRatio false (a * c) (b * d)

/-- Quotient of two magnitudes, the second not zero. -/
def div (x y : Binary64) : Binary64 :=
  let (a, b) := x.ratio
  let (c, d) := y.ratio
  ofRatio false (a * d) (b * c)

/-- The magnitude rounded to a whole number, a half going up. -/
def roundHalfUp (x : Binary64) : Binary64 :=
  let (a, b) := x.ratio
  ofRatio false ((2 * a + b) / (2 * b)) 1

/-- The number with its fraction cut off. -/
def truncate (x : Binary64) : Int :=
  let (a, b) := x.ratio
  if x.negative then -Int.ofNat (a / b) else Int.ofNat (a / b)

/-- The truncated number, if it is finite and has 64 signed bits. -/
def toInt64? (x : Binary64) : Option Int :=
  if !x.isFinite then none
  else if -0x8000000000000000 ≤ x.truncate ∧ x.truncate < 0x8000000000000000 then some x.truncate else none

def negate (x : Binary64) : Binary64 := ⟨x.bits ^^^ 0x8000000000000000⟩

/-- `x` to the power `n` by repeated squaring, each product rounded. -/
def powFrom (result x : Binary64) (n : Nat) : Binary64 :=
  if n = 0 then result
  else
    let result := if n % 2 = 1 then mul result x else result
    if n / 2 = 0 then result else powFrom result (mul x x) (n / 2)
termination_by n
decreasing_by omega

def pow (x : Binary64) (n : Nat) : Binary64 := powFrom (ofInt 1) x n

end Binary64

end FirebirdSql
