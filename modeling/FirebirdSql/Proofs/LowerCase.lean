import FirebirdSql.Proofs.UpperCase

/-!
Lower case and back. A text comes back from lower case exactly if each of its characters does. Those that have another upper
form do not, and neither do a few that are in upper case but share their lower form with others, or have one of two characters.
-/

namespace FirebirdSql.Text

/-! The lower form of a character -/

theorem lowerForm_cases (c : Char) : (c.toNat < 128 ∧ lowerForm c = [c.toLower]) ∨ lowerForm c = [c] ∨
    (∃ r ∈ lowerRuns, r.covers c.toNat = true ∧ lowerForm c = [r.apply c.toNat]) ∨ c = '\u0130' := by
  have dotted : ∀ entry ∈ lowerExpansions, entry.1 = 0x130 := by decide
  by_cases ascii : c.toNat < 128
  · exact .inl ⟨ascii, if_pos ascii⟩
  have form : lowerForm c = caseForm lowerRuns lowerExpansions c := if_neg ascii
  rw [form, caseForm]
  split
  · next expansion listed =>
    obtain ⟨before, after, entries, -⟩ := List.lookup_eq_some_iff.mp listed
    have code : c.toNat = 0x130 := dotted (c.toNat, expansion) (entries ▸ List.mem_append_right _ List.mem_cons_self)
    have same : Char.ofNat c.toNat = '\u0130' := congrArg Char.ofNat code
    exact .inr (.inr (.inr ((Char.ofNat_toNat c).symm.trans same)))
  · split
    · next run found =>
      have covered := List.find?_some found
      exact .inr (.inr (.inl ⟨run, List.mem_of_find?_eq_some found, covered, rfl⟩))
    · exact .inr (.inl rfl)

theorem exists_lowerForm (c : Char) : (∃ d, lowerForm c = [d]) ∨ c = '\u0130' := by
  rcases lowerForm_cases c with ⟨-, form⟩ | form | ⟨r, -, -, form⟩ | dotted
  · exact .inl ⟨_, form⟩
  · exact .inl ⟨_, form⟩
  · exact .inl ⟨_, form⟩
  · exact .inr dotted

theorem eq_quote_of_mem_lowerForm {c : Char} (h : '"' ∈ lowerForm c) : c = '"' := by
  have quote : '"'.toNat = 34 := rfl
  rcases lowerForm_cases c with ⟨ascii, form⟩ | form | ⟨r, member, covers, form⟩ | rfl
  · have all : ∀ n : Fin 128, '"' ∈ [(Char.ofNat n).toLower] → Char.ofNat n = '"' := by decide
    exact forall_ascii (p := fun c => '"' ∈ [c.toLower] → c = '"') all ascii (form ▸ h)
  · rw [form] at h
    exact (List.mem_singleton.mp h).symm
  · have beyond : ∀ run ∈ lowerRuns, (65 : Int) ≤ run.first + run.shift := by decide +kernel
    have far := beyond r member
    obtain ⟨least, -⟩ := CaseRun.covers_iff.mp covers
    rw [form] at h
    have code : (c.toNat + r.shift).toNat = '"'.toNat := toNat_of_ofNat_eq (by decide) (List.mem_singleton.mp h).symm
    omega
  · exact absurd h (by decide +kernel)

/-- Lower case adds no quotes. -/
theorem quote_notMem_lower {s : List Char} (h : '"' ∉ s) : '"' ∉ lower s := by
  have after (before s : List Char) (h : '"' ∉ s) : '"' ∉ lowerAfter before s := by
    induction s generalizing before with
    | nil => exact List.not_mem_nil
    | cons c s ih =>
      have here : '"' ∉ lowerForm c := fun quote => List.ne_of_not_mem_cons h (eq_quote_of_mem_lowerForm quote).symm
      rw [lowerAfter, List.mem_append, not_or]
      refine ⟨?_, ih _ (List.not_mem_of_not_mem_cons h)⟩
      split
      · split <;> decide
      · exact here
  exact after [] s h

/-! Characters that come back -/

/-- What a character becomes in lower case and then in upper case. -/
def returned (c : Char) : List Char := upper (lowerForm c)

theorem returned_of_lowerForm {c d : Char} (h : lowerForm c = [d]) : returned c = upperForm d := by
  rw [returned, h, upper_cons, upper_nil, List.append_nil]

theorem returned_dotted : returned '\u0130' = ['I', '\u0307'] := by decide +kernel

/-- In ASCII it is what has no other upper form. -/
theorem returned_ascii {c : Char} (ascii : c.toNat < 128) : returned c = upperForm c := by
  rw [returned_of_lowerForm (if_pos ascii), upperForm_toLower]

theorem returned_ne_nil (c : Char) : returned c ≠ [] := by
  rcases exists_lowerForm c with ⟨d, form⟩ | rfl
  · rw [returned_of_lowerForm form]
    exact upperForm_ne_nil d
  · rw [returned_dotted]
    exact List.cons_ne_nil _ _

/-- An upper form of several characters is listed. -/
theorem upperForm_cases (d : Char) : (∃ c, upperForm d = [c]) ∨
    ∃ entry ∈ upperExpansions, d = Char.ofNat entry.1 ∧ upperForm d = entry.2.map Char.ofNat := by
  by_cases ascii : d.toNat < 128
  · exact .inl ⟨d.toUpper, if_pos ascii⟩
  have form : upperForm d = caseForm upperRuns upperExpansions d := if_neg ascii
  rw [form, caseForm]
  split
  · next expansion listed =>
    obtain ⟨before, after, entries, -⟩ := List.lookup_eq_some_iff.mp listed
    refine .inr ⟨(d.toNat, expansion), entries ▸ List.mem_append_right _ List.mem_cons_self, ?_, rfl⟩
    exact (Char.ofNat_toNat d).symm
  · split
    · exact .inl ⟨_, rfl⟩
    · exact .inl ⟨_, rfl⟩

/-- What comes back with the character itself at its head is no more than the character. -/
theorem eq_nil_of_returned {c : Char} {rest : List Char} (h : returned c = c :: rest) : rest = [] := by
  have apart : ∀ entry ∈ upperExpansions, ∀ head ∈ entry.2.head?, lowerForm (Char.ofNat head) ≠ [Char.ofNat entry.1] := by
    decide +kernel
  rcases exists_lowerForm c with ⟨d, lowered⟩ | rfl
  · rw [returned_of_lowerForm lowered] at h
    rcases upperForm_cases d with ⟨c', form⟩ | ⟨entry, listed, rfl, form⟩
    · rw [form] at h
      exact (List.cons.inj h).2.symm
    · rw [form] at h
      obtain ⟨head, others, shape, rfl, -⟩ := List.map_eq_cons_iff.mp h
      exact absurd lowered (apart entry listed head (by simp [shape]))
  · rw [returned_dotted] at h
    exact absurd (List.cons.inj h).1 (by decide)

/-! Texts that come back -/

/-- Each character of the text comes back from lower case. -/
def Restored (s : List Char) : Prop := ∀ c ∈ s, returned c = [c]

instance (s : List Char) : Decidable (Restored s) := List.decidableBAll _ s

theorem Restored.raised {s : List Char} (h : Restored s) : Raised s := by
  intro c hc
  have self : c ∈ returned c := by simp [h c hc]
  exact raised_upper _ c self

theorem restored_iff_of_ascii {s : List Char} (ascii : ∀ c ∈ s, c.toNat < 128) : Restored s ↔ Raised s :=
  forall₂_congr fun c hc => by rw [returned_ascii (ascii c hc)]

/-- Characters in upper case that do not come back. -/
example : ['\u0130', '\u03f4', '\u1e9e', '\u2126', '\u212a', '\u212b'].all (fun c =>
    upperForm c == [c] && returned c != [c]) = true := by decide +kernel

/-- The final form of a sigma has the same upper form as the other. -/
theorem upper_lowerAfter (before s : List Char) : upper (lowerAfter before s) = s.flatMap returned := by
  have sigma : upper ['ς'] = returned 'Σ' ∧ upper ['σ'] = returned 'Σ' := by decide +kernel
  induction s generalizing before with
  | nil => rfl
  | cons c s ih =>
    rw [lowerAfter, upper_append, ih, List.flatMap_cons]
    congr 1
    by_cases final : c = 'Σ'
    · rw [if_pos final, final, apply_ite upper, sigma.1, sigma.2, ite_self]
    · rw [if_neg final]
      rfl

theorem upper_lower (s : List Char) : upper (lower s) = s.flatMap returned := upper_lowerAfter [] s

/-- Where a text comes back as it was up to some place, its characters up to there do. -/
theorem restored_take {s : List Char} {k : Nat} (h : (s.flatMap returned).take k = s.take k) : Restored (s.take k) := by
  induction s generalizing k with
  | nil => simp [Restored]
  | cons c s ih =>
    cases k with
    | zero => simp [Restored]
    | succ k =>
      cases form : returned c with
      | nil => exact absurd form (returned_ne_nil c)
      | cons d rest =>
        rw [List.flatMap_cons, form, List.cons_append, List.take_succ_cons, List.take_succ_cons, List.cons.injEq] at h
        obtain ⟨rfl, tail⟩ := h
        obtain rfl := eq_nil_of_returned form
        rw [List.take_succ_cons]
        exact List.forall_mem_cons.mpr ⟨form, ih tail⟩

theorem upper_lower_eq_iff {s : List Char} : upper (lower s) = s ↔ Restored s := by
  rw [upper_lower]
  constructor
  · intro same
    have whole := restored_take (s := s) (k := s.length) (by rw [same])
    rwa [List.take_length] at whole
  · intro restored
    induction s with
    | nil => rfl
    | cons c s ih =>
      obtain ⟨here, others⟩ := List.forall_mem_cons.mp restored
      rw [List.flatMap_cons, here, ih others]
      rfl

end FirebirdSql.Text
