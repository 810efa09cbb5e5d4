import FirebirdSql.Proofs.DelimitedName

/-!
Upper case leaves alone what is in upper case: no character that is the upper form of another, or a part of it, has an
upper form of its own. Hence spellings that differ in the case of ASCII letters agree in upper case.
-/

namespace FirebirdSql.Text

/-- The characters of one run are told from the upper forms of another: they lie beyond them, or between them. -/
def CaseRun.avoids (r s : CaseRun) : Bool :=
  let first := (r.first + r.shift).toNat
  let last := (r.last + r.shift).toNat
  last.blt s.first || s.last.blt first ||
    ((r.first == r.last || r.step == 2) && s.step == 2 && (first + s.first) % 2 == 1)

theorem CaseRun.covers_iff {r : CaseRun} {n : Nat} :
    r.covers n = true ↔ r.first ≤ n ∧ n ≤ r.last ∧ (n - r.first) % r.step = 0 := by
  simp only [covers, Bool.and_eq_true, decide_eq_true_eq, beq_iff_eq, and_assoc]

theorem CaseRun.not_covers_of_avoids {r s : CaseRun} {n : Nat} (positive : 0 ≤ r.first + r.shift)
    (avoids : r.avoids s = true) (covers : r.covers n = true) : ¬s.covers (n + r.shift).toNat = true := by
  obtain ⟨least, most, within⟩ := covers_iff.mp covers
  rw [covers_iff]
  rintro ⟨above, below, stepped⟩
  simp only [CaseRun.avoids, Bool.or_eq_true, Bool.and_eq_true, Nat.blt_eq, beq_iff_eq] at avoids
  rcases avoids with (before | after) | ⟨⟨even, every⟩, between⟩
  · omega
  · omega
  · have same : (n - r.first) % 2 = 0 := by
      rcases even with single | double
      · omega
      · rwa [double] at within
    rw [every] at stepped
    omega

/-- What a run puts is told from all that has another upper form. Only single characters have one in ASCII. -/
theorem upperRuns_apart : ∀ r ∈ upperRuns,
    0 ≤ r.first + r.shift ∧ upperRuns.all r.avoids = true ∧
      (upperExpansions.all fun entry => r.avoids ⟨entry.1, entry.1, 1, 0⟩) = true ∧
      (128 ≤ r.first + r.shift ∨ r.first = r.last ∧ upperForm (r.apply r.first) = [r.apply r.first]) := by
  decide +kernel

theorem upperExpansions_upper :
    ∀ entry ∈ upperExpansions, ∀ n ∈ entry.2, upperForm (Char.ofNat n) = [Char.ofNat n] := by
  decide +kernel

theorem caseForm_of_beyond {runs : List CaseRun} {expansions : List (Nat × List Nat)} {c : Char}
    (single : ∀ entry ∈ expansions, entry.1 ≠ c.toNat) (uncovered : ∀ s ∈ runs, ¬s.covers c.toNat = true) :
    caseForm runs expansions c = [c] := by
  have unlisted : expansions.lookup c.toNat = none :=
    List.lookup_eq_none_iff.mpr fun entry h => bne_iff_ne.mpr (single entry h).symm
  rw [caseForm, unlisted, List.find?_eq_none.mpr uncovered]

/-- What a run puts for a character stays as it is. -/
theorem upperForm_apply {r : CaseRun} {n : Nat} (member : r ∈ upperRuns) (covers : r.covers n = true) :
    upperForm (r.apply n) = [r.apply n] := by
  obtain ⟨least, most, -⟩ := CaseRun.covers_iff.mp covers
  obtain ⟨positive, apartRuns, apartExpansions, ends⟩ := upperRuns_apart r member
  have avoids {s : CaseRun} (h : r.avoids s = true) := CaseRun.not_covers_of_avoids positive h covers
  rcases ends with beyond | ⟨single, ascii⟩
  · rw [CaseRun.apply]
    by_cases valid : (n + r.shift).toNat.isValidChar
    · have code : (Char.ofNat (n + r.shift).toNat).toNat = (n + r.shift).toNat := by
        rw [Char.ofNat, dif_pos valid]
        rfl
      rw [upperForm, if_neg (by omega)]
      refine caseForm_of_beyond ?_ ?_
      · intro entry listed same
        refine avoids (List.all_eq_true.mp apartExpansions entry listed) (CaseRun.covers_iff.mpr ?_)
        rw [code] at same
        exact ⟨Nat.le_of_eq same, Nat.le_of_eq same.symm, Nat.mod_one _⟩
      · intro s listed
        rw [code]
        exact avoids (List.all_eq_true.mp apartRuns s listed)
    · rw [Char.ofNat, dif_neg valid]
      rfl
  · obtain rfl : n = r.first := by omega
    exact ascii

theorem upperForm_of_mem {c d : Char} (h : d ∈ upperForm c) : upperForm d = [d] := by
  by_cases ascii : c.toNat < 128
  · have all : ∀ n : Fin 128, upperForm (Char.ofNat n).toUpper = [(Char.ofNat n).toUpper] := by decide +kernel
    rw [upperForm, if_pos ascii] at h
    rw [List.mem_singleton.mp h]
    exact forall_ascii (p := fun c => upperForm c.toUpper = [c.toUpper]) all ascii
  have form : upperForm c = caseForm upperRuns upperExpansions c := if_neg ascii
  rw [form, caseForm] at h
  rw [caseForm] at form
  split at h
  · next expansion listed =>
    obtain ⟨before, after, entries, -⟩ := List.lookup_eq_some_iff.mp listed
    obtain ⟨n, hn, rfl⟩ := List.mem_map.mp h
    exact upperExpansions_upper (c.toNat, expansion) (entries ▸ List.mem_append_right _ List.mem_cons_self) n hn
  · next unlisted =>
    split at h
    · next run found =>
      have covered := List.find?_some found
      rw [List.mem_singleton.mp h]
      exact upperForm_apply (List.mem_of_find?_eq_some found) covered
    · next uncovered =>
      obtain rfl := List.mem_singleton.mp h
      rw [form, unlisted, uncovered]

/-- The text is in upper case. -/
def Raised (s : List Char) : Prop := ∀ c ∈ s, upperForm c = [c]

instance (s : List Char) : Decidable (Raised s) := List.decidableBAll _ s

theorem raised_upper (s : List Char) : Raised (upper s) := by
  intro d h
  obtain ⟨c, -, h⟩ := List.mem_flatMap.mp h
  exact upperForm_of_mem h

theorem Raised.upper_eq {s : List Char} (h : Raised s) : upper s = s := by
  induction s with
  | nil => rfl
  | cons c s ih =>
    rw [upper_cons, h c List.mem_cons_self, ih fun d hd => h d (List.mem_cons_of_mem c hd)]
    rfl

@[simp] theorem upper_upper (s : List Char) : upper (upper s) = upper s := (raised_upper s).upper_eq

theorem toLower_of_beyond {c : Char} (beyond : 128 ≤ c.toNat) : c.toLower = c := by
  have : ¬(c.val ≥ 'A'.val ∧ c.val ≤ 'Z'.val) := by
    rintro ⟨-, below⟩
    have : c.toNat ≤ 90 := UInt32.le_iff_toNat_le.mp below
    omega
  exact dif_neg this

theorem toLower_ascii {c : Char} (h : c.toNat < 128) : c.toLower.toNat < 128 := by
  have all : ∀ n : Fin 128, (Char.ofNat n).toLower.toNat < 128 := by decide
  exact forall_ascii (p := fun c => c.toLower.toNat < 128) all h

/-- Characters that differ in ASCII case at most have one upper form. -/
theorem upperForm_toLower (c : Char) : upperForm c.toLower = upperForm c := by
  by_cases ascii : c.toNat < 128
  · rw [upperForm, upperForm, if_pos ascii, if_pos (toLower_ascii ascii), toUpper_toLower_ascii ascii]
  · rw [toLower_of_beyond (by omega)]

theorem upper_map_toLower (s : List Char) : upper (s.map Char.toLower) = upper s := by
  induction s with
  | nil => rfl
  | cons c s ih => rw [List.map_cons, upper_cons, upper_cons, upperForm_toLower, ih]

theorem upper_eq_of_sameAsciiLetters {s t : List Char} (h : sameAsciiLetters s t = true) : upper s = upper t := by
  rw [← upper_map_toLower, beq_iff_eq.mp h, upper_map_toLower]

end FirebirdSql.Text
