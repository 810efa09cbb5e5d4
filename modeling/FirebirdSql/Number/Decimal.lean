import FirebirdSql.Number.Binary64
import FirebirdSql.Text.Numeral

/-!
Decimal numbers of at most 96 bits and 28 places. Reading keeps the places as written; rounding takes a half to the
even neighbour; widening adds places while the coefficient has room for them.
-/

namespace FirebirdSql

/-- The number `coefficient / 10 ^ places`, with its sign. -/
structure Decimal where
  negative : Bool
  coefficient : Nat
  places : Nat
  coefficient_lt : coefficient < Nat.pow 2 96
  places_le : places ≤ 28
  deriving DecidableEq

namespace Decimal

/-- The number with the given parts, if they have room. -/
def ofParts? (negative : Bool) (coefficient places : Nat) : Option Decimal :=
  if h : coefficient < Nat.pow 2 96 ∧ places ≤ 28 then some ⟨negative, coefficient, places, h.1, h.2⟩ else none

def ofInt? (n : Int) : Option Decimal := ofParts? (decide (n < 0)) n.natAbs 0

/-- A numeral in plain notation with all its places. -/
def text (d : Decimal) : String :=
  let ds := Text.paddedDigits (d.places + 1) d.coefficient
  let whole := ds.take (ds.length - d.places)
  let tail := ds.drop (ds.length - d.places)
  let number := if d.places = 0 then whole else whole ++ '.' :: tail
  .ofList (if d.negative then '-' :: number else number)

def signedCoefficient (d : Decimal) : Int := if d.negative then -d.coefficient else d.coefficient

/-- Numeric equality, whatever the places. -/
def same (c d : Decimal) : Bool :=
  c.signedCoefficient * Nat.pow 10 d.places == d.signedCoefficient * Nat.pow 10 c.places

def isWhole (d : Decimal) : Bool := d.coefficient % Nat.pow 10 d.places == 0

/-- The number with its fraction cut off. -/
def truncate (d : Decimal) : Int :=
  let n := d.coefficient / Nat.pow 10 d.places
  if d.negative then -(n : Int) else n

/-- The truncated number, if it has 64 signed bits. -/
def toInt64? (d : Decimal) : Option Int :=
  if -0x8000000000000000 ≤ d.truncate ∧ d.truncate < 0x8000000000000000 then some d.truncate else none

/-- What reading has found: the coefficient, and the places once a point has come. -/
structure Scan where
  coefficient : Nat
  places : Nat
  point : Bool
  anyDigit : Bool

/-- The last digit that is taken in, where no further one has room: a half goes up, and a separator stands for zero.
After it come only digits and separators, which are passed over. -/
def Scan.roundBy? (s : Scan) (c : Char) (rest : List Char) : Option Scan := do
  let d ← if c = '_' then some 0 else Text.digitValue? c
  if !rest.all fun c => c == '_' || (Text.digitValue? c).isSome then none
  else if d < 5 then some s
  else if s.coefficient + 1 < Nat.pow 2 96 then some { s with coefficient := s.coefficient + 1 }
  else if s.places = 0 then none
  else some { s with coefficient := (s.coefficient + 5) / 10, places := s.places - 1 }

/-- All places are taken. -/
def Scan.isFull (s : Scan) : Bool := s.point && decide (28 ≤ s.places)

/-- From here on one more digit may not fit into 64 bits. -/
def wideLimit : Nat := 0xFFFFFFFFFFFFFFFF / 10 - 255

/-- The digits before the last one have reached the limit of 64 bits. -/
def Scan.isWide (s : Scan) : Bool := decide (wideLimit ≤ s.coefficient / 10)

/-- Reads digits with separators and at most one point. Once all places are taken the next character rounds, but after
a wide coefficient a separator is passed over first, and a digit behind it is still taken in if there is room. -/
def Scan.read? (s : Scan) : List Char → Option Scan
  | [] => if s.anyDigit then some s else none
  | '.' :: rest => if s.point then none else { s with point := true }.read? rest
  | '_' :: rest => if s.anyDigit then s.read? rest else none
  | c :: rest =>
    match Text.digitValue? c with
    | none => none
    | some d =>
      let next := 10 * s.coefficient + d
      if next < Nat.pow 2 96 then
        let t : Scan := ⟨next, if s.point then s.places + 1 else 0, s.point, true⟩
        match rest with
        | [] => some t
        | e :: rest' =>
          if t.isFull && !(e == '_' && t.isWide) then t.roundBy? e rest' else t.read? rest
      else if s.point then s.roundBy? c rest else none

/-- The number that was read. A zero has no sign, and the places start again from zero after the 28th. -/
def Scan.number? (s : Scan) (negative : Bool) : Option Decimal :=
  ofParts? (negative && s.coefficient != 0) s.coefficient (s.places % 29)

/-- Divided by the `n`-th power of ten. Places after the 28th are rounded off, a half away from zero. -/
def scaleDown? (d : Decimal) (n : Nat) : Option Decimal :=
  if 28 < n then none
  else
    let unit := Nat.pow 10 (d.places + n - 28)
    ofParts? d.negative ((d.coefficient + unit / 2) / unit) (min 28 (d.places + n))

/-- Multiplied by the `n`-th power of ten: the places give way first. -/
def scaleUp? (d : Decimal) (n : Nat) : Option Decimal :=
  if n ≤ d.places then ofParts? d.negative d.coefficient (d.places - n)
  else if 28 < n then none
  else ofParts? d.negative (d.coefficient * Nat.pow 10 (n - d.places)) 0

/-- Moves the point by a written exponent. -/
def shift? (d : Decimal) (exponent : List Char) : Option Decimal :=
  match exponent with
  | '-' :: rest => Text.readUpTo? 0xFFFFFFFF rest >>= d.scaleDown?
  | _ => Text.readUpTo? 0xFFFFFFFF exponent >>= d.scaleUp?

def isExponentMark (c : Char) : Bool := c == 'e' || c == 'E'

/-- Reads a number without an exponent: a sign and digits. -/
def readPlain? (text : List Char) : Option Decimal :=
  let (negative, body) := match text with
    | '-' :: rest => (true, rest)
    | '+' :: rest => (false, rest)
    | _ => (false, text)
  (Scan.mk 0 0 false false).read? body >>= (·.number? negative)

/-- Reads a number: a sign, digits, and an exponent. -/
def read? (text : List Char) : Option Decimal :=
  match text.dropWhile (!isExponentMark ·) with
  | [] => readPlain? text
  | _ :: exponent => readPlain? (text.takeWhile (!isExponentMark ·)) >>= (·.shift? exponent)

/-- The number with at most `places` places, a half going to the even neighbour. -/
def round (d : Decimal) (places : Nat) : Decimal :=
  if d.places ≤ places then d
  else
    let c := Binary64.nearestEven d.coefficient (Nat.pow 10 (d.places - places))
    (ofParts? (d.negative && c != 0) c places).getD d

/-- As many of `count` further places as the coefficient has room for. -/
def addPlaces (d : Decimal) : Nat → Decimal
  | 0 => d
  | count + 1 =>
    match ofParts? d.negative (10 * d.coefficient) (d.places + 1) with
    | some wider => wider.addPlaces count
    | none => d

/-- The number rounded, or widened as far as possible, to `places` places. -/
def rescale (d : Decimal) (places : Nat) : Decimal :=
  let r := d.round places
  r.addPlaces (places - r.places)

/-- A significand on its way to a decimal coefficient: `coefficient * 10 ^ exponent` times a power of five that is
still to be worked in. -/
structure Conversion where
  coefficient : Nat
  exponent : Int

/-- Works in `count` factors of five: a factor of two in the coefficient pays for one, else it is multiplied, else
its last bit is lost. -/
def Conversion.timesFive (c : Conversion) : Nat → Conversion
  | 0 => c
  | count + 1 =>
    (if c.coefficient % 2 = 0 ∨ Nat.pow 2 96 ≤ 5 * c.coefficient then
      ⟨c.coefficient / 2, c.exponent + 1⟩
    else ⟨5 * c.coefficient, c.exponent⟩ : Conversion).timesFive count

/-- One digit less, rounded. -/
def Conversion.dropDigit (c : Conversion) : Conversion :=
  let n := c.coefficient / 10
  if n = 0 then ⟨0, c.exponent + 1⟩
  else ⟨if 5 ≤ c.coefficient % 10 then n + 1 else n, c.exponent + 1⟩

/-- Drops digits until the places are at most 28; a number that vanishes has none. -/
def Conversion.fitPlaces (c : Conversion) : Nat → Conversion
  | 0 => c
  | count + 1 =>
    let next := c.dropDigit
    if next.coefficient = 0 then ⟨0, 0⟩ else next.fitPlaces count

/-- Drops the digits beyond the precision of the floating-point number. -/
def Conversion.fitPrecision (c : Conversion) : Nat → Conversion
  | 0 => c
  | count + 1 =>
    if 0x10000000000000 ≤ c.coefficient then
      (⟨(c.coefficient + 5) / 10, c.exponent + 1⟩ : Conversion).fitPrecision count
    else c

/-- Drops zeros at the end of the places. -/
def Conversion.dropZeros (c : Conversion) : Nat → Conversion
  | 0 => c
  | count + 1 =>
    if c.coefficient % 10 = 0 then (⟨c.coefficient / 10, c.exponent + 1⟩ : Conversion).dropZeros count
    else c

/-- The decimal form of a finite number within range: a multiple of its last bit's whole value exactly, a fraction to
the fifteen or sixteen digits that are certain. -/
def ofBinary64? (x : Binary64) : Option Decimal :=
  if !x.isFinite then none
  else if x.isZero then ofParts? x.negative 0 0
  else if 0 ≤ x.exponent then ofParts? x.negative (x.significand * Nat.pow 2 x.exponent.toNat) 0
  else
    let c := (Conversion.mk x.significand x.exponent).timesFive (-x.exponent).toNat
    let c := c.fitPlaces (-c.exponent - 28).toNat
    let c := c.fitPrecision (-c.exponent).toNat
    let c := c.dropZeros (-c.exponent).toNat
    ofParts? x.negative c.coefficient (-c.exponent).toNat

/-- The floating-point number of the whole part plus that of the fraction, rounded once more to the places. -/
def toBinary64 (d : Decimal) : Binary64 :=
  if d.places = 0 then Binary64.ofInt d.signedCoefficient
  else
    let unit := Nat.pow 10 d.places
    let whole := Binary64.ofRatio false (d.coefficient / unit) 1
    let magnitude :=
      if d.coefficient % unit = 0 then whole
      else
        let value := whole.add (Binary64.ofRatio false (d.coefficient % unit) 1 |>.div (Binary64.ofRatio false unit 1))
        let scale := (Binary64.ofInt 10).pow d.places
        (value.mul scale).roundHalfUp.div scale
    if d.negative then magnitude.negate else magnitude

end Decimal

end FirebirdSql
