import FirebirdSql.Number.Binary64
import FirebirdSql.Text.Numeral

/-!
The fewest decimal digits that read back as a given floating-point number, and the two ways in which they are laid
out: plain notation for literals, and notation with an exponent for very large and very small numbers in messages.
-/

namespace FirebirdSql.Binary64

/-- The number `coefficient * 10 ^ exponent`. -/
structure Digits where
  coefficient : Nat
  exponent : Int
  deriving DecidableEq, Repr

/-- The reals that round to a number: `least / scale` to `greatest / scale`, with the ends if `closed`; the number
itself is `value / scale`. -/
structure Interval where
  least : Nat
  value : Nat
  greatest : Nat
  scale : Nat
  closed : Bool

/-- The interval of a finite number that is not zero. Below a power of two the gap is half as wide. -/
def interval (x : Binary64) : Interval :=
  let m := x.significand
  let up := Nat.pow 2 x.exponent.toNat
  let down := Nat.pow 2 (-x.exponent).toNat
  let below := if x.fraction = 0 ∧ 1 < x.exponentField then 1 else 2
  ⟨(4 * m - below) * up, 4 * m * up, (4 * m + 2) * up, 4 * down, m % 2 == 0⟩

/-- Whether `num / den` rounds to the number. -/
def Interval.holds (i : Interval) (num den : Nat) : Bool :=
  let low := i.least * den
  let high := i.greatest * den
  let n := num * i.scale
  if i.closed then decide (low ≤ n) && decide (n ≤ high) else decide (low < n) && decide (n < high)

/-- The least `e` with `value / scale < 10 ^ e`. -/
def Interval.magnitude (i : Interval) : Int :=
  if i.scale ≤ i.value then (Text.digits (i.value / i.scale)).length
  else
    let inverse := (i.scale + i.value - 1) / i.value
    1 - ((Text.digits (inverse - 1)).length : Int)

/-- The digits on the grid of `count` digits that read back. Of two the nearer ones win, and halfway between them the
greater ones. -/
def Interval.onGrid? (i : Interval) (count : Nat) : Option Digits :=
  let e := i.magnitude - count
  let up := Nat.pow 10 e.toNat
  let down := Nat.pow 10 (-e).toNat
  let floor := i.value * down / (i.scale * up)
  let fits (c : Nat) : Bool := i.holds (c * up) down
  let nearFloor := 2 * i.value * down < (2 * floor + 1) * up * i.scale
  match fits floor, fits (floor + 1) with
  | true, true => some ⟨if nearFloor then floor else floor + 1, e⟩
  | true, false => some ⟨floor, e⟩
  | false, true => some ⟨floor + 1, e⟩
  | false, false => none

/-- The shortest digits of a finite number that is not zero; seventeen always suffice. The grid of no digits holds the
power of ten above the number. -/
def shortest (x : Binary64) : Digits :=
  let i := x.interval
  ((List.range 18).findSome? i.onGrid?).getD ⟨x.significand, x.exponent⟩

/-- Plain notation with at least `places` digits after the point. -/
def plain (places : Nat) (d : Digits) : List Char :=
  let ds := Text.digits d.coefficient
  let point := (ds.length : Int) + d.exponent
  let whole := if point ≤ 0 then ['0'] else ds.take point.toNat ++ List.replicate d.exponent.toNat '0'
  let tail := List.replicate (-point).toNat '0' ++ ds.drop point.toNat
  let tail := tail ++ List.replicate (places - tail.length) '0'
  if tail.isEmpty then whole else whole ++ '.' :: tail

/-- One digit before the point, and an exponent. -/
def scientific (d : Digits) : List Char :=
  match Text.digits d.coefficient with
  | [] => []
  | c :: rest =>
    let rest := (rest.reverse.dropWhile (· == '0')).reverse
    let exponent := ((Text.digits d.coefficient).length : Int) + d.exponent - 1
    (if rest.isEmpty then [c] else c :: '.' :: rest) ++ 'e' :: Text.signedDigits exponent

def signed (x : Binary64) (s : List Char) : String := .ofList (if x.negative then '-' :: s else s)

/-- What is written for a number that has no digits. -/
def special? (x : Binary64) : Option String :=
  if x.isNaN then some "NaN" else if x.isFinite then none else some (x.signed ['i', 'n', 'f'])

/-- Plain notation, never with an exponent. -/
def text (x : Binary64) : String :=
  match x.special? with
  | some s => s
  | none => x.signed (if x.isZero then ['0'] else plain 0 x.shortest)

/-- Notation with a point, or with an exponent from ten to the sixteenth on and below a ten-thousandth. -/
def description (x : Binary64) : String :=
  match x.special? with
  | some s => s
  | none =>
    if x.isZero then x.signed ['0', '.', '0']
    else
      let d := x.shortest
      let point := ((Text.digits d.coefficient).length : Int) + d.exponent
      x.signed (if point ≤ -4 ∨ 17 ≤ point then scientific d else plain 1 d)

end FirebirdSql.Binary64
