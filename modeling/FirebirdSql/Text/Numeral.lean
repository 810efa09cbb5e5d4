/-!
Decimal numerals of whole numbers: writing them, padding them with zeros, and reading them with an optional sign
within bounds.
-/

namespace FirebirdSql.Text

def digit (n : Nat) : Char := Char.ofNat (48 + n)

def digitValue? (c : Char) : Option Nat :=
  if '0' ≤ c ∧ c ≤ '9' then some (c.toNat - 48) else none

/-- The digits of `n`, most significant first, without leading zeros. -/
def digits (n : Nat) : List Char :=
  if n < 10 then [digit n] else digits (n / 10) ++ [digit (n % 10)]
termination_by n

def signedDigits (n : Int) : List Char :=
  if n < 0 then '-' :: digits n.natAbs else digits n.natAbs

/-- At least `width` digits. -/
def paddedDigits (width n : Nat) : List Char :=
  let ds := digits n
  List.replicate (width - ds.length) '0' ++ ds

/-- Continues the numeral whose value so far is `value`. -/
def readDigits (value : Nat) : List Char → Option Nat
  | [] => some value
  | c :: rest =>
    match digitValue? c with
    | some d => readDigits (10 * value + d) rest
    | none => none

/-- One or more digits and nothing else. -/
def readNat? (s : List Char) : Option Nat :=
  if s.isEmpty then none else readDigits 0 s

/-- A numeral of at most `greatest`; a plus sign may come first. -/
def readUpTo? (greatest : Nat) (s : List Char) : Option Nat :=
  let n? := match s with
    | '+' :: rest => readNat? rest
    | _ => readNat? s
  n?.filter (· ≤ greatest)

/-- A numeral with an optional sign that lies between `least` and `greatest`. -/
def readBetween? (least greatest : Int) (s : List Char) : Option Int :=
  let n? : Option Int := match s with
    | '+' :: rest => (readNat? rest).map Int.ofNat
    | '-' :: rest => (readNat? rest).map fun n => -Int.ofNat n
    | _ => (readNat? s).map Int.ofNat
  n?.filter fun n => decide (least ≤ n) && decide (n ≤ greatest)

/-- `digits` as a string. -/
def natText (n : Nat) : String := .ofList (digits n)

/-- `signedDigits` as a string. -/
def intText (n : Int) : String := .ofList (signedDigits n)

theorem digitValue?_digit {n : Nat} (h : n < 10) : digitValue? (digit n) = some n := by
  match n, h with
  | 0, _ | 1, _ | 2, _ | 3, _ | 4, _ | 5, _ | 6, _ | 7, _ | 8, _ | 9, _ => rfl

theorem readDigits_append (v : Nat) (s t : List Char) :
    readDigits v (s ++ t) = (readDigits v s).bind fun w => readDigits w t := by
  induction s generalizing v with
  | nil => rfl
  | cons c s ih =>
    simp only [List.cons_append, readDigits]
    cases digitValue? c with
    | none => rfl
    | some d => exact ih _

theorem readDigits_digits (n : Nat) : readDigits 0 (digits n) = some n := by
  induction n using Nat.strongRecOn with
  | _ n ih =>
    rw [digits]
    split
    · next h => simp [readDigits, digitValue?_digit h]
    · next h =>
      rw [readDigits_append, ih (n / 10) (by omega)]
      simp only [Option.bind_some, readDigits, digitValue?_digit (Nat.mod_lt n (by decide))]
      congr 1
      omega

theorem digits_ne_nil (n : Nat) : digits n ≠ [] := by
  rw [digits]
  split <;> simp

theorem readNat?_digits (n : Nat) : readNat? (digits n) = some n := by
  simp [readNat?, digits_ne_nil, readDigits_digits]

/-- In a numeral there are only digits. -/
theorem notMem_of_readNat? {s : List Char} {n : Nat} (h : readNat? s = some n) {c : Char} (hc : digitValue? c = none) :
    c ∉ s := by
  have digits (v : Nat) (s : List Char) (h : (readDigits v s).isSome) : c ∉ s := by
    induction s generalizing v with
    | nil => exact List.not_mem_nil
    | cons d s ih =>
      cases hd : digitValue? d with
      | none => simp [readDigits, hd] at h
      | some k =>
        refine List.not_mem_cons_of_ne_of_not_mem ?_ (ih (10 * v + k) (by simpa [readDigits, hd] using h))
        rintro rfl
        rw [hc] at hd
        cases hd
  unfold readNat? at h
  split at h
  · cases h
  · exact digits 0 s (h ▸ rfl)

end FirebirdSql.Text
