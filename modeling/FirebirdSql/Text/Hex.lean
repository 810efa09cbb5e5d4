/-!
Hexadecimal digits, in lower case when written.
-/

namespace FirebirdSql.Text

def hexDigit (n : Nat) : Char := if n < 10 then Char.ofNat (48 + n) else Char.ofNat (87 + n)

def hexValue? (c : Char) : Option Nat :=
  if '0' ≤ c ∧ c ≤ '9' then some (c.toNat - 48)
  else if 'a' ≤ c ∧ c ≤ 'f' then some (c.toNat - 87)
  else if 'A' ≤ c ∧ c ≤ 'F' then some (c.toNat - 55)
  else none

/-- The hexadecimal digits of `n`, without leading zeros. -/
def hexDigits (n : Nat) : List Char :=
  if n < 16 then [hexDigit n] else hexDigits (n / 16) ++ [hexDigit (n % 16)]
termination_by n

/-- The last `width` hexadecimal digits of `n`. -/
def hexPadded : Nat → Nat → List Char
  | 0, _ => []
  | width + 1, n => hexPadded width (n / 16) ++ [hexDigit (n % 16)]

def hexByte (b : UInt8) : List Char := [hexDigit (b.toNat / 16), hexDigit (b.toNat % 16)]

def hexOfBytes (bs : List UInt8) : List Char := bs.flatMap hexByte

/-- Two digits a byte. -/
def bytesOfHex? : List Char → Option (List UInt8)
  | [] => some []
  | [_] => none
  | a :: b :: rest => do
    let high ← hexValue? a
    let low ← hexValue? b
    let bytes ← bytesOfHex? rest
    return UInt8.ofNat (16 * high + low) :: bytes

/-- The value of a run of hexadecimal digits. -/
def readHex? (s : List Char) : Option Nat :=
  s.foldlM (fun n c => (hexValue? c).map (16 * n + ·)) 0

theorem hexValue?_hexDigit {n : Nat} (h : n < 16) : hexValue? (hexDigit n) = some n := by
  have all : ∀ k : Fin 16, hexValue? (hexDigit k) = some k.val := by decide
  exact all ⟨n, h⟩

theorem length_hexPadded (width n : Nat) : (hexPadded width n).length = width := by
  induction width generalizing n with
  | zero => rfl
  | succ width ih => rw [hexPadded, List.length_append, ih, List.length_singleton]

theorem forall_hexPadded {p : Char → Prop} (hex : ∀ n < 16, p (hexDigit n)) (width n : Nat) : ∀ c ∈ hexPadded width n, p c := by
  induction width generalizing n with
  | zero => exact fun c hc => absurd hc List.not_mem_nil
  | succ width ih =>
    intro c hc
    rcases List.mem_append.mp hc with front | last
    · exact ih _ c front
    · rw [List.mem_singleton.mp last]
      exact hex _ (Nat.mod_lt n (by decide))

/-- As many digits as are written are read. -/
theorem readHex?_hexPadded (width n : Nat) : readHex? (hexPadded width n) = some (n % Nat.pow 16 width) := by
  induction width generalizing n with
  | zero => exact congrArg some (Nat.mod_one n).symm
  | succ width ih =>
    have value : 16 * (n / 16 % Nat.pow 16 width) + n % 16 = n % Nat.pow 16 (width + 1) := by
      rw [show Nat.pow 16 (width + 1) = 16 * Nat.pow 16 width from Nat.pow_succ', Nat.mod_mul, Nat.add_comm]
    have front : (hexPadded width (n / 16)).foldlM (fun n c => (hexValue? c).map (16 * n + ·)) 0 =
        some (n / 16 % Nat.pow 16 width) :=
      ih (n / 16)
    rw [readHex?, hexPadded, List.foldlM_append, front, Option.bind_eq_bind, Option.bind_some, List.foldlM_cons,
      hexValue?_hexDigit (Nat.mod_lt n (by decide)), ← value]
    rfl

theorem bytesOfHex?_hexOfBytes (bs : List UInt8) : bytesOfHex? (hexOfBytes bs) = some bs := by
  induction bs with
  | nil => rfl
  | cons b bs ih =>
    have hb : b.toNat < 256 := b.toNat_lt
    have high : b.toNat / 16 < 16 := by omega
    have low : b.toNat % 16 < 16 := by omega
    have value : UInt8.ofNat (16 * (b.toNat / 16) + b.toNat % 16) = b := by
      rw [show 16 * (b.toNat / 16) + b.toNat % 16 = b.toNat by omega, UInt8.ofNat_toNat]
    change bytesOfHex? (hexDigit _ :: hexDigit _ :: hexOfBytes bs) = _
    rw [bytesOfHex?, hexValue?_hexDigit high, hexValue?_hexDigit low, ih]
    exact congrArg (fun a => some (a :: bs)) value

end FirebirdSql.Text
