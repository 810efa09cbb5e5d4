import FirebirdSql.Text.Utf8
import Mathlib.Data.List.Basic

/-!
Decoding of UTF-8 gives back what was encoded, and takes nothing else. Between the two stands the table of well-formed byte
sequences: a character is written as the one sequence that the table has for its code point, and the bounds which the decoder
keeps on the second byte are those of the table.
-/

namespace FirebirdSql

theorem exists_of_map_eq_ok {α β ε : Type} {f : α → β} {r : Except ε α} {b : β} (h : f <$> r = .ok b) :
    ∃ a, r = .ok a ∧ b = f a := by
  cases r with
  | error e => cases h
  | ok a => exact ⟨a, rfl, (Except.ok.inj h).symm⟩

namespace Text.Utf8

/-- A byte after the first, with six bits of the code point. -/
def trail (m : Nat) : UInt8 := UInt8.ofNat (m + 128)

/-- The well-formed byte sequences, each with its code point. None is longer than it has to be, and none is that of half of
a surrogate pair. -/
inductive Form : Nat → List UInt8 → Prop where
  | one {n : Nat} : n < 128 → Form n [UInt8.ofNat n]
  | two {n m : Nat} : 2 ≤ n → n < 32 → m < 64 → Form (n * 64 + m) [UInt8.ofNat (n + 192), trail m]
  | three {n m k : Nat} : n < 16 → m < 64 → k < 64 → (n = 0 → 32 ≤ m) → (n = 13 → m < 32) →
      Form ((n * 64 + m) * 64 + k) [UInt8.ofNat (n + 224), trail m, trail k]
  | four {n m k j : Nat} : n < 5 → m < 64 → k < 64 → j < 64 → (n = 0 → 16 ≤ m) → (n = 4 → m < 16) →
      Form (((n * 64 + m) * 64 + k) * 64 + j) [UInt8.ofNat (n + 240), trail m, trail k, trail j]

theorem form_utf8EncodeChar (c : Char) : Form c.toNat (String.utf8EncodeChar c) := by
  have valid : c.toNat < 0xD800 ∨ 0xDFFF < c.toNat ∧ c.toNat < 0x110000 := c.valid
  have code : c.val.toNat = c.toNat := rfl
  rw [String.utf8EncodeChar, code]
  generalize c.toNat = v at valid
  by_cases one : v ≤ 0x7F
  · rw [if_pos one]
    exact .one (by omega)
  by_cases two : v ≤ 0x7FF
  · rw [if_neg one, if_pos two, show v / 64 % 32 = v / 64 by omega]
    have form : Form (v / 64 * 64 + v % 64) _ := .two (by omega) (by omega) (by omega)
    rwa [show v / 64 * 64 + v % 64 = v by omega] at form
  by_cases three : v ≤ 0xFFFF
  · rw [if_neg one, if_neg two, if_pos three, show v / 4096 % 16 = v / 4096 by omega]
    have form : Form ((v / 4096 * 64 + v / 64 % 64) * 64 + v % 64) _ :=
      .three (by omega) (by omega) (by omega) (by omega) (by omega)
    rwa [show (v / 4096 * 64 + v / 64 % 64) * 64 + v % 64 = v by omega] at form
  · rw [if_neg one, if_neg two, if_neg three, show v / 262144 % 8 = v / 262144 by omega]
    have form : Form (((v / 262144 * 64 + v / 4096 % 64) * 64 + v / 64 % 64) * 64 + v % 64) _ :=
      .four (by omega) (by omega) (by omega) (by omega) (by omega) (by omega)
    rwa [show ((v / 262144 * 64 + v / 4096 % 64) * 64 + v / 64 % 64) * 64 + v % 64 = v by omega] at form

theorem Form.isValidChar {v : Nat} {bs : List UInt8} (h : Form v bs) : v.isValidChar := by
  change v < 0xD800 ∨ 0xDFFF < v ∧ v < 0x110000
  cases h <;> omega

theorem Form.utf8EncodeChar_eq {v : Nat} {bs : List UInt8} (h : Form v bs) : String.utf8EncodeChar (Char.ofNat v) = bs := by
  have code : (Char.ofNat v).val.toNat = v := by
    rw [Char.ofNat, dif_pos h.isValidChar]
    rfl
  rw [String.utf8EncodeChar, code]
  clear code
  cases h with
  | one small => rw [if_pos (by omega)]
  | @two n m least most trailing =>
    rw [if_neg (by omega), if_pos (by omega), show (n * 64 + m) / 64 % 32 = n by omega, show (n * 64 + m) % 64 = m by omega]
    rfl
  | @three n m k lead second third overlong surrogate =>
    rw [if_neg (by omega), if_neg (by omega), if_pos (by omega), show ((n * 64 + m) * 64 + k) / 4096 % 16 = n by omega,
      show ((n * 64 + m) * 64 + k) / 64 % 64 = m by omega, show ((n * 64 + m) * 64 + k) % 64 = k by omega]
    rfl
  | @four n m k j lead second third fourth overlong beyond =>
    rw [if_neg (by omega), if_neg (by omega), if_neg (by omega),
      show (((n * 64 + m) * 64 + k) * 64 + j) / 262144 % 8 = n by omega,
      show (((n * 64 + m) * 64 + k) * 64 + j) / 4096 % 64 = m by omega,
      show (((n * 64 + m) * 64 + k) * 64 + j) / 64 % 64 = k by omega,
      show (((n * 64 + m) * 64 + k) * 64 + j) % 64 = j by omega]
    rfl

/-! What the decoder keeps of the bytes before -/

deriving instance DecidableEq for Pending

/-- A character of which `count` bytes are still to come; six bits of the next one lie between the bounds. -/
def awaiting (count least greatest seen bits : Nat) : Pending := ⟨count, trail least, trail greatest, seen, bits⟩

theorem lead?_two {n : Nat} (least : 2 ≤ n) (most : n < 32) : lead? (UInt8.ofNat (n + 192)) = some (awaiting 1 0 63 1 n) := by
  have all : ∀ n : Fin 32, 2 ≤ n.val → lead? (UInt8.ofNat (n + 192)) = some (awaiting 1 0 63 1 n) := by decide
  exact all ⟨n, most⟩ least

theorem lead?_three {n : Nat} (most : n < 16) : lead? (UInt8.ofNat (n + 224)) =
    some (awaiting 2 (if n = 0 then 32 else 0) (if n = 13 then 31 else 63) 1 n) := by
  have all : ∀ n : Fin 16, lead? (UInt8.ofNat (n + 224)) =
      some (awaiting 2 (if n.val = 0 then 32 else 0) (if n.val = 13 then 31 else 63) 1 n) := by decide
  exact all ⟨n, most⟩

theorem lead?_four {n : Nat} (most : n < 5) : lead? (UInt8.ofNat (n + 240)) =
    some (awaiting 3 (if n = 0 then 16 else 0) (if n = 4 then 15 else 63) 1 n) := by
  have all : ∀ n : Fin 5, lead? (UInt8.ofNat (n + 240)) =
      some (awaiting 3 (if n.val = 0 then 16 else 0) (if n.val = 4 then 15 else 63) 1 n) := by decide
  exact all ⟨n, most⟩

/-- Every other byte beyond ASCII starts nothing. -/
theorem lead?_cases {b : UInt8} (beyond : ¬b < 0x80) : lead? b = none ∨ (∃ n, 2 ≤ n ∧ n < 32 ∧ b = UInt8.ofNat (n + 192)) ∨
    (∃ n < 16, b = UInt8.ofNat (n + 224)) ∨ ∃ n < 5, b = UInt8.ofNat (n + 240) := by
  have all : ∀ k : Fin 256, k.val < 194 ∨ 245 ≤ k.val → UInt8.ofNat k < 0x80 ∨ lead? (UInt8.ofNat k) = none := by
    decide +kernel
  have bound : b.toNat < 256 := b.toNat_lt
  have byte {k : Nat} (h : b.toNat = k) : b = UInt8.ofNat k := by rw [← h, UInt8.ofNat_toNat]
  by_cases within : b.toNat < 194 ∨ 245 ≤ b.toNat
  · have none := all ⟨b.toNat, bound⟩ within
    rw [UInt8.ofNat_toNat] at none
    exact .inl (none.resolve_left beyond)
  · rcases Nat.lt_or_ge b.toNat 224 with two | more
    · exact .inr (.inl ⟨b.toNat - 192, by omega, by omega, byte (by omega)⟩)
    · rcases Nat.lt_or_ge b.toNat 240 with three | four
      · exact .inr (.inr (.inl ⟨b.toNat - 224, by omega, byte (by omega)⟩))
      · exact .inr (.inr (.inr ⟨b.toNat - 240, by omega, byte (by omega)⟩))

theorem not_ascii {n : Nat} (least : 128 ≤ n) (most : n < 256) : ¬UInt8.ofNat n < 0x80 := by
  rw [UInt8.lt_iff_toNat_lt, UInt8.toNat_ofNat_of_lt' most]
  exact Nat.not_lt.mpr least

theorem toNat_trail {m : Nat} (h : m < 64) : (trail m).toNat = m + 128 := UInt8.toNat_ofNat_of_lt' (by omega : m + 128 < 256)

variable {p : Pending} {least greatest seen bits count m i : Nat} {rest : List UInt8} {s : List Char}

theorem decodeFrom_lead {b : UInt8} (beyond : ¬b < 0x80) (lead : lead? b = some p) :
    decodeFrom i none (b :: rest) = decodeFrom (i + 1) (some p) rest := by
  rw [decodeFrom, if_neg beyond, lead]

theorem accepts_trail (low : least < 64) (high : greatest < 64) (hm : m < 64) :
    (awaiting count least greatest seen bits).accepts (trail m) = true ↔ least ≤ m ∧ m ≤ greatest := by
  simp only [Pending.accepts, awaiting, Bool.and_eq_true, decide_eq_true_eq, UInt8.le_iff_toNat_le, toNat_trail low,
    toNat_trail high, toNat_trail hm]
  omega

theorem add_trail (hm : m < 64) :
    (awaiting (count + 1) least greatest seen bits).add (trail m) = awaiting count 0 63 (seen + 1) (bits * 64 + m) := by
  rw [Pending.add, toNat_trail hm, show (m + 128) % 64 = m by omega]
  rfl

theorem decodeFrom_trail (lower : least ≤ m) (upper : m ≤ greatest) (high : greatest < 64) :
    decodeFrom i (some (awaiting (count + 1) least greatest seen bits)) (trail m :: rest) =
      if count = 0 then (Char.ofNat (bits * 64 + m) :: ·) <$> decodeFrom (i + 1) none rest
      else decodeFrom (i + 1) (some (awaiting count 0 63 (seen + 1) (bits * 64 + m))) rest := by
  have accepted : (awaiting (count + 1) least greatest seen bits).accepts (trail m) = true :=
    (accepts_trail (by omega) high (by omega)).mpr ⟨lower, upper⟩
  rw [decodeFrom, if_pos accepted, add_trail (by omega)]
  rfl

/-- A character that goes on is read to the end only with a byte that it accepts. -/
theorem exists_trail (low : least < 64) (high : greatest < 64)
    (h : decodeFrom i (some (awaiting count least greatest seen bits)) rest = .ok s) :
    ∃ m others, least ≤ m ∧ m ≤ greatest ∧ rest = trail m :: others := by
  cases rest with
  | nil => cases h
  | cons b rest =>
    rw [decodeFrom] at h
    split at h
    · next accepted =>
      have bounds : least + 128 ≤ b.toNat ∧ b.toNat ≤ greatest + 128 := by
        simpa only [Pending.accepts, awaiting, Bool.and_eq_true, decide_eq_true_eq, UInt8.le_iff_toNat_le, toNat_trail low,
          toNat_trail high] using accepted
      refine ⟨b.toNat - 128, rest, by omega, by omega, ?_⟩
      rw [trail, show b.toNat - 128 + 128 = b.toNat by omega, UInt8.ofNat_toNat]
    · cases h

/-- Each sequence of the table is read as its character. -/
theorem Form.decodeFrom_append {v : Nat} {bs : List UInt8} (h : Form v bs) (i : Nat) (rest : List UInt8) :
    decodeFrom i none (bs ++ rest) = (Char.ofNat v :: ·) <$> decodeFrom (i + bs.length) none rest := by
  cases h with
  | one small =>
    have ascii : UInt8.ofNat v < 0x80 := by
      rw [UInt8.lt_iff_toNat_lt, UInt8.toNat_ofNat_of_lt' (by omega : v < 256)]
      exact small
    rw [List.singleton_append, decodeFrom, if_pos ascii, UInt8.toNat_ofNat_of_lt' (by omega : v < 256)]
    rfl
  | @two n m least most second =>
    simp only [List.cons_append, List.nil_append]
    rw [decodeFrom_lead (not_ascii (by omega) (by omega)) (lead?_two least most)]
    exact decodeFrom_trail (Nat.zero_le m) (Nat.le_of_lt_succ second) (by decide)
  | @three n m k lead second third overlong surrogate =>
    simp only [List.cons_append, List.nil_append]
    rw [decodeFrom_lead (not_ascii (by omega) (by omega)) (lead?_three lead),
      decodeFrom_trail (by split <;> omega) (by split <;> omega) (by split <;> omega), if_neg (by decide),
      decodeFrom_trail (Nat.zero_le k) (Nat.le_of_lt_succ third) (by decide), if_pos rfl]
    rfl
  | @four n m k j lead second third fourth overlong beyond =>
    simp only [List.cons_append, List.nil_append]
    rw [decodeFrom_lead (not_ascii (by omega) (by omega)) (lead?_four lead),
      decodeFrom_trail (by split <;> omega) (by split <;> omega) (by split <;> omega), if_neg (by decide),
      decodeFrom_trail (Nat.zero_le k) (Nat.le_of_lt_succ third) (by decide), if_neg (by decide),
      decodeFrom_trail (Nat.zero_le j) (Nat.le_of_lt_succ fourth) (by decide), if_pos rfl]
    rfl

/-- What is read begins with a sequence of the table. -/
theorem exists_form {b : UInt8} (h : decodeFrom i none (b :: rest) = .ok s) :
    ∃ v bs others, Form v bs ∧ b :: rest = bs ++ others := by
  by_cases ascii : b < 0x80
  · have form : Form b.toNat [UInt8.ofNat b.toNat] := .one (UInt8.lt_iff_toNat_lt.mp ascii)
    rw [UInt8.ofNat_toNat] at form
    exact ⟨_, _, rest, form, rfl⟩
  rcases lead?_cases ascii with none | ⟨n, least, most, rfl⟩ | ⟨n, most, rfl⟩ | ⟨n, most, rfl⟩
  · rw [decodeFrom, if_neg ascii, none] at h
    cases h
  · rw [decodeFrom_lead (not_ascii (by omega) (by omega)) (lead?_two least most)] at h
    obtain ⟨m, others, -, upper, rfl⟩ := exists_trail (by decide) (by decide) h
    exact ⟨_, _, others, .two least most (by omega), rfl⟩
  · rw [decodeFrom_lead (not_ascii (by omega) (by omega)) (lead?_three most)] at h
    obtain ⟨m, others, lower, upper, rfl⟩ := exists_trail (by split <;> omega) (by split <;> omega) h
    rw [decodeFrom_trail lower upper (by split <;> omega), if_neg (by decide)] at h
    obtain ⟨k, others, -, last, rfl⟩ := exists_trail (by decide) (by decide) h
    exact ⟨_, _, others, .three most (by split at upper <;> omega) (by omega) (by rintro rfl; exact lower)
      (by rintro rfl; exact Nat.lt_succ_of_le upper), rfl⟩
  · rw [decodeFrom_lead (not_ascii (by omega) (by omega)) (lead?_four most)] at h
    obtain ⟨m, others, lower, upper, rfl⟩ := exists_trail (by split <;> omega) (by split <;> omega) h
    rw [decodeFrom_trail lower upper (by split <;> omega), if_neg (by decide)] at h
    obtain ⟨k, others, -, third, rfl⟩ := exists_trail (by decide) (by decide) h
    rw [decodeFrom_trail (Nat.zero_le k) third (by decide), if_neg (by decide)] at h
    obtain ⟨j, others, -, last, rfl⟩ := exists_trail (by decide) (by decide) h
    exact ⟨_, _, others, .four most (by split at upper <;> omega) (by omega) (by omega) (by rintro rfl; exact lower)
      (by rintro rfl; exact Nat.lt_succ_of_le upper), rfl⟩

theorem encode_cons (c : Char) (s : List Char) : encode (c :: s) = String.utf8EncodeChar c ++ encode s := List.flatMap_cons

theorem encode_append (s t : List Char) : encode (s ++ t) = encode s ++ encode t := List.flatMap_append

theorem length_le_encode (s : List Char) : s.length ≤ (encode s).length := by
  induction s with
  | nil => exact Nat.le_refl 0
  | cons c s ih =>
    have one : 1 ≤ (String.utf8EncodeChar c).length := by
      rw [String.length_utf8EncodeChar]
      exact c.utf8Size_pos
    rw [encode_cons, List.length_cons, List.length_append]
    omega

theorem decodeFrom_encode (i : Nat) (s : List Char) : decodeFrom i none (encode s) = .ok s := by
  induction s generalizing i with
  | nil => rfl
  | cons c s ih =>
    rw [encode_cons, (form_utf8EncodeChar c).decodeFrom_append, ih, Char.ofNat_toNat]
    rfl

/-- What is read is what the bytes are the form of. The induction is on the length, since a character takes several bytes. -/
theorem encode_of_decodeFrom {bs : List UInt8} (h : decodeFrom i none bs = .ok s) : encode s = bs := by
  induction hn : bs.length using Nat.strongRecOn generalizing bs i s with
  | _ n ih =>
    cases bs with
    | nil =>
      cases h
      rfl
    | cons b bs =>
      obtain ⟨v, first, others, form, parts⟩ := exists_form h
      rw [parts, form.decodeFrom_append] at h
      obtain ⟨t, tail, rfl⟩ := exists_of_map_eq_ok h
      have shorter : others.length < n := by
        have some : first ≠ [] := by
          rintro rfl
          cases form
        rw [← hn, parts, List.length_append]
        exact Nat.lt_add_of_pos_left (List.length_pos_of_ne_nil some)
      rw [encode_cons, form.utf8EncodeChar_eq, ih _ shorter tail rfl, parts]

theorem encode_injective : Function.Injective encode := by
  intro s t same
  have read : decodeFrom 0 none (encode s) = .ok s := decodeFrom_encode 0 s
  rw [same, decodeFrom_encode] at read
  exact (Except.ok.inj read).symm

theorem decode_eq_ok_iff {bs : List UInt8} {s : List Char} : decode bs = .ok s ↔ encode s = bs := by
  constructor
  · exact encode_of_decodeFrom
  · rintro rfl
    exact decodeFrom_encode 0 s

/-- The bytes that are UTF-8 are those that some text is encoded as. -/
theorem isValidUTF8_iff {bs : List UInt8} : bs.toByteArray.IsValidUTF8 ↔ ∃ s, encode s = bs := by
  constructor
  · rintro ⟨s, bytes⟩
    exact ⟨s, (List.toByteArray_inj.mp bytes).symm⟩
  · rintro ⟨s, rfl⟩
    exact .intro s rfl

/-- Where nothing has to be replaced, both ways of decoding agree. -/
theorem decodeLossyFrom_of_ok {p : Option Pending} {bs : List UInt8} (h : decodeFrom i p bs = .ok s) :
    decodeLossyFrom p bs = s := by
  induction bs generalizing i p s with
  | nil =>
    cases p with
    | none =>
      cases h
      rfl
    | some p => cases h
  | cons b bs ih =>
    cases p with
    | none =>
      rw [decodeFrom] at h
      rw [decodeLossyFrom, lossyStart]
      by_cases ascii : b < 0x80
      · rw [if_pos ascii] at h ⊢
        obtain ⟨t, read, rfl⟩ := exists_of_map_eq_ok h
        exact congrArg (_ :: ·) (ih read)
      · rw [if_neg ascii] at h ⊢
        cases lead : lead? b with
        | none =>
          rw [lead] at h
          cases h
        | some p =>
          rw [lead] at h
          exact ih h
    | some p =>
      rw [decodeFrom] at h
      rw [decodeLossyFrom]
      by_cases accepted : p.accepts b = true
      · rw [if_pos accepted] at h ⊢
        by_cases last : (p.add b).count = 0
        · dsimp only at h ⊢
          rw [if_pos last] at h ⊢
          obtain ⟨t, read, rfl⟩ := exists_of_map_eq_ok h
          exact congrArg (_ :: ·) (ih read)
        · dsimp only at h ⊢
          rw [if_neg last] at h ⊢
          exact ih h
      · rw [if_neg accepted] at h
        cases h

theorem decodeLossy_encode (s : List Char) : decodeLossy (encode s) = s := decodeLossyFrom_of_ok (decodeFrom_encode 0 s)

end Text.Utf8

end FirebirdSql
