import FirebirdSql.Proofs.StoredName
import FirebirdSql.Proofs.Utf8
import FirebirdSql.Text.Percent

/-!
Texts that are percent-encoded. Each of their bytes is escaped, or is a character that means nothing else anywhere in a URL, so
they come through the reading of a URL as they are, and they are decoded to what they spell.
-/

namespace FirebirdSql.Text.Percent

/-- Letters, digits and four marks stand for themselves. -/
def isUnreserved (c : Char) : Bool := c.isAlphanum || ['-', '.', '_', '~'].contains c

/-- The text spells the bytes: each one is escaped, with digits in either case, or is an unreserved character. -/
inductive Spells : List Char → List UInt8 → Prop where
  | nil : Spells [] []
  | escaped {a b : Char} {high low : Nat} {s : List Char} {bs : List UInt8} : hexValue? a = some high →
      hexValue? b = some low → Spells s bs → Spells ('%' :: a :: b :: s) (UInt8.ofNat (16 * high + low) :: bs)
  | plain {c : Char} {s : List Char} {bs : List UInt8} : isUnreserved c = true → Spells s bs →
      Spells (c :: s) (UInt8.ofNat c.toNat :: bs)

/-- The text spells the UTF-8 form of another. -/
def Writes (s : List Char) (t : String) : Prop := Spells s (Utf8.encode t.toList)

theorem ascii_of_isUnreserved {c : Char} (h : isUnreserved c = true) : c.toNat < 128 := by
  rcases Bool.or_eq_true_iff.mp h with letter | mark
  · exact ascii_of_isAlphanum letter
  · simp only [List.contains_iff_mem, List.mem_cons, List.not_mem_nil, or_false] at mark
    rcases mark with rfl | rfl | rfl | rfl
    all_goals decide

theorem ascii_of_hexValue? {c : Char} {n : Nat} (h : hexValue? c = some n) : c.toNat < 128 := by
  unfold hexValue? at h
  split at h
  · next within =>
    have : c.toNat ≤ 57 := within.2
    omega
  split at h
  · next within =>
    have : c.toNat ≤ 102 := within.2
    omega
  split at h
  · next within =>
    have : c.toNat ≤ 70 := within.2
    omega
  · cases h

theorem isUnreserved_of_hexValue? {c : Char} {n : Nat} (h : hexValue? c = some n) : isUnreserved c = true := by
  have all : ∀ n : Fin 128, (hexValue? (Char.ofNat n)).isSome = true → isUnreserved (Char.ofNat n) = true := by decide
  exact forall_ascii (p := fun c => (hexValue? c).isSome = true → isUnreserved c = true) all (ascii_of_hexValue? h)
    (by rw [h]; rfl)

theorem forall_unreserved {p : Char → Prop} [DecidablePred p]
    (h : ∀ n : Fin 128, isUnreserved (Char.ofNat n) = true → p (Char.ofNat n)) {c : Char} (hc : isUnreserved c = true) : p c :=
  forall_ascii (p := fun c => isUnreserved c = true → p c) h (ascii_of_isUnreserved hc) hc

variable {s t : List Char} {bs cs : List UInt8} {escapes : Char → Bool}

theorem Spells.char_of_mem (h : Spells s bs) : ∀ c ∈ s, c = '%' ∨ isUnreserved c = true := by
  induction h with
  | nil => exact fun c hc => absurd hc List.not_mem_nil
  | escaped ha hb _ ih =>
    have first := isUnreserved_of_hexValue? ha
    have second := isUnreserved_of_hexValue? hb
    exact List.forall_mem_cons.mpr ⟨.inl rfl, List.forall_mem_cons.mpr ⟨.inr first, List.forall_mem_cons.mpr ⟨.inr second, ih⟩⟩⟩
  | plain hc _ ih => exact List.forall_mem_cons.mpr ⟨.inr hc, ih⟩

theorem Spells.append (h : Spells s bs) (h' : Spells t cs) : Spells (s ++ t) (bs ++ cs) := by
  induction h with
  | nil => exact h'
  | escaped ha hb _ ih => exact .escaped ha hb ih
  | plain hc _ ih => exact .plain hc ih

theorem Spells.eq_nil_iff (h : Spells s bs) : s = [] ↔ bs = [] := by
  cases h <;> simp

theorem utf8EncodeChar_ascii {c : Char} (h : c.toNat < 128) : String.utf8EncodeChar c = [UInt8.ofNat c.toNat] := by
  have small : c.val.toNat ≤ 0x7F := Nat.le_of_lt_succ h
  rw [String.utf8EncodeChar, if_pos small]
  rfl

/-- What is spelled out is decoded without the text after it. -/
theorem Spells.decode_append (h : Spells s bs) (t : List Char) : decode (s ++ t) = bs ++ decode t := by
  induction h with
  | nil => rfl
  | @escaped a b high low s bs ha hb _ ih => rw [List.cons_append, List.cons_append, List.cons_append, decode, ha, hb, ih, List.cons_append]
  | @plain c s bs hc _ ih =>
    have other : c ≠ '%' := by
      rintro rfl
      exact absurd hc (by decide)
    rw [List.cons_append, decode, utf8EncodeChar_ascii (ascii_of_isUnreserved hc), ih]
    · rfl
    · exact fun _ _ _ same _ => other same

theorem Spells.decode_eq (h : Spells s bs) : decode s = bs := by
  simpa [decode] using h.decode_append []

theorem encode_of_passed (h : ∀ c ∈ s, c.toNat < 128 ∧ escapes c = false) : encode escapes s = s := by
  induction s with
  | nil => rfl
  | cons c s ih =>
    obtain ⟨⟨ascii, passed⟩, others⟩ := List.forall_mem_cons.mp h
    have same : (if (decide (128 ≤ c.toNat) || escapes c) = true then (String.utf8EncodeChar c).flatMap encodeByte else [c]) = [c] := by
      rw [if_neg (by simp [passed, ascii])]
    rw [encode, List.flatMap_cons, same, ← encode, ih others]
    rfl

theorem spells_encodeByte (b : UInt8) : Spells (encodeByte b) [b] := by
  have digit : ∀ n : Fin 16, hexValue? (hexDigit n).toUpper = some n.val := by decide
  have bound : b.toNat < 256 := b.toNat_lt
  have spelled := Spells.escaped (digit ⟨b.toNat / 16, by omega⟩) (digit ⟨b.toNat % 16, by omega⟩) .nil
  rw [show 16 * (b.toNat / 16) + b.toNat % 16 = b.toNat by omega, UInt8.ofNat_toNat] at spelled
  exact spelled

/-- The text with every byte escaped. -/
def escapeAll (t : String) : List Char := encode (fun _ => true) t.toList

theorem writes_escapeAll (t : String) : Writes (escapeAll t) t := by
  have bytes (bs : List UInt8) : Spells (bs.flatMap encodeByte) bs := by
    induction bs with
    | nil => exact .nil
    | cons b bs ih =>
      rw [List.flatMap_cons]
      exact (spells_encodeByte b).append ih
  have whole : escapeAll t = (Utf8.encode t.toList).flatMap encodeByte := by
    simp only [escapeAll, encode, Utf8.encode, Bool.or_true, if_true, List.flatMap_assoc]
  rw [Writes, whole]
  exact bytes _

theorem Writes.decodeText_eq {t : String} (h : Writes s t) : decodeText s = t := by
  rw [decodeText, h.decode_eq, Utf8.decodeLossy_encode, String.ofList_toList]

theorem Writes.eq_nil_iff {t : String} (h : Writes s t) : s = [] ↔ t = "" := by
  rw [Spells.eq_nil_iff h, ← String.toList_eq_nil_iff, ← Utf8.encode_injective.eq_iff]
  rfl

end FirebirdSql.Text.Percent
