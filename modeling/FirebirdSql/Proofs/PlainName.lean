import FirebirdSql.Identifier

/-!
Plain names: ASCII characters without double quotes. They are taken in upper case, so their spellings differ at most
by the case of their letters.
-/

namespace FirebirdSql

namespace Text

theorem toUpper_toLower_ascii {c : Char} (h : c.toNat < 128) : c.toLower.toUpper = c.toUpper := by
  have all : ∀ n : Fin 128, (Char.ofNat n).toLower.toUpper = (Char.ofNat n).toUpper := by decide
  have hc := all ⟨c.toNat, h⟩
  rwa [Char.ofNat_toNat] at hc

theorem toLower_toUpper_ascii {c : Char} (h : c.toNat < 128) : c.toUpper.toLower = c.toLower := by
  have all : ∀ n : Fin 128, (Char.ofNat n).toUpper.toLower = (Char.ofNat n).toLower := by decide
  have hc := all ⟨c.toNat, h⟩
  rwa [Char.ofNat_toNat] at hc

theorem map_toUpper_toLower {s : List Char} (h : ∀ c ∈ s, c.toNat < 128) :
    (s.map Char.toLower).map Char.toUpper = s.map Char.toUpper := by
  rw [List.map_map]
  exact List.map_congr_left fun c hc => toUpper_toLower_ascii (h c hc)

end Text

namespace Identifier

/-- The name consists of ASCII characters other than the double quote. -/
def Plain (name : String) : Prop := ∀ c ∈ name.toList, c.toNat < 128 ∧ c ≠ '"'

instance (name : String) : Decidable (Plain name) := List.decidableBAll _ name.toList

theorem Plain.not_delimited {name : String} (h : Plain name) : isDelimited name.toList = false := by
  cases hd : isDelimited name.toList with
  | false => rfl
  | true =>
    simp only [isDelimited, Bool.and_eq_true, beq_iff_eq] at hd
    exact absurd rfl (h '"' (List.mem_of_mem_head? hd.1.2)).2

theorem Plain.upper {name : String} (h : Plain name) :
    Text.upper name.toList = name.toList.map Char.toUpper :=
  Text.upper_ascii fun c hc => (h c hc).1

theorem Plain.upper_eq {a b : String} (ha : Plain a) (hb : Plain b)
    (h : Text.sameAsciiLetters a.toList b.toList = true) : Text.upper a.toList = Text.upper b.toList := by
  have hl : a.toList.map Char.toLower = b.toList.map Char.toLower := by simpa [Text.sameAsciiLetters] using h
  rw [ha.upper, hb.upper, ← Text.map_toUpper_toLower fun c hc => (ha c hc).1, hl,
    Text.map_toUpper_toLower fun c hc => (hb c hc).1]

/-- Plain names of the same letters are spellings of one identifier. -/
theorem quote_eq_of_sameAsciiLetters (e : Engine) {a b : String} (ha : Plain a) (hb : Plain b)
    (h : Text.sameAsciiLetters a.toList b.toList = true) : quote e a = quote e b := by
  simp only [quote, quoteChars, ha.not_delimited, hb.not_delimited, Bool.false_eq_true, if_false, ha.upper_eq hb h]

end Identifier

end FirebirdSql
