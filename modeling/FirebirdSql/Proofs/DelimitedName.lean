import FirebirdSql.Catalog.Cache
import FirebirdSql.Proofs.StoredName

/-!
Delimited names: they stand between double quotes and are taken as they are. Upper case neither adds quotes to a name
nor takes them away, so names that agree in upper case are delimited together. Each spelling of such a name is a name
of its own.
-/

namespace FirebirdSql

namespace Text

theorem toNat_of_ofNat_eq {n : Nat} {c : Char} (hc : c.toNat ≠ 0) (h : Char.ofNat n = c) : n = c.toNat := by
  subst h
  by_cases valid : n.isValidChar
  · rw [Char.ofNat, dif_pos valid]
    rfl
  · rw [Char.ofNat, dif_neg valid] at hc
    exact absurd rfl hc

/-- The signs before the letters become of nothing else in upper case. -/
theorem eq_of_mem_upperForm {c d : Char} (least : d.toNat ≠ 0) (most : d.toNat < 'A'.toNat) (h : d ∈ upperForm c) :
    c = d := by
  have sign : d.toNat < 65 := most
  unfold upperForm at h
  split at h
  · next ascii =>
    have all : ∀ n : Fin 128, (Char.ofNat n).toUpper.toNat < 65 → Char.ofNat n = (Char.ofNat n).toUpper := by decide
    obtain rfl := List.mem_singleton.mp h
    exact forall_ascii (p := fun c => c.toUpper.toNat < 65 → c = c.toUpper) all ascii sign
  unfold caseForm at h
  split at h
  · next form found =>
    have letters : ∀ entry ∈ upperExpansions, ∀ n ∈ entry.2, 65 ≤ n := by decide +kernel
    obtain ⟨before, after, entries, -⟩ := List.lookup_eq_some_iff.mp found
    obtain ⟨n, hn, hd⟩ := List.mem_map.mp h
    obtain rfl : n = d.toNat := toNat_of_ofNat_eq least hd
    exact absurd (letters (c.toNat, form) (entries ▸ List.mem_append_right _ List.mem_cons_self) _ hn) (by omega)
  split at h
  · next run found =>
    have beyond : ∀ run ∈ upperRuns, (65 : Int) ≤ run.first + run.shift := by decide +kernel
    have far := beyond run (List.mem_of_find?_eq_some found)
    have covered := List.find?_some found
    simp only [CaseRun.covers, Bool.and_eq_true, decide_eq_true_eq] at covered
    have hd : (c.toNat + run.shift).toNat = d.toNat := toNat_of_ofNat_eq least (List.mem_singleton.mp h).symm
    omega
  · exact (List.mem_singleton.mp h).symm

theorem eq_quote_of_mem_upperForm {c : Char} (h : '"' ∈ upperForm c) : c = '"' :=
  eq_of_mem_upperForm (by decide) (by decide) h

theorem head_of_upper {c : Char} {s t : List Char} (h : upper (c :: s) = '"' :: t) : c = '"' := by
  rw [upper_cons] at h
  cases form : upperForm c with
  | nil => exact absurd form (upperForm_ne_nil c)
  | cons d ds =>
    rw [form, List.cons_append, List.cons.injEq] at h
    exact eq_quote_of_mem_upperForm (form ▸ h.1 ▸ List.mem_cons_self)

theorem last_of_upper {c : Char} {s t : List Char} (h : upper (s ++ [c]) = t ++ ['"']) : c = '"' := by
  rw [upper_append, upper_cons, upper_nil, List.append_nil] at h
  rcases List.eq_nil_or_concat (upperForm c) with none | ⟨ds, d, form⟩
  · exact absurd none (upperForm_ne_nil c)
  · rw [form, List.concat_eq_append, ← List.append_assoc] at h
    obtain rfl : d = '"' := by simpa using (List.append_inj' h rfl).2
    exact eq_quote_of_mem_upperForm (form ▸ by simp)

end Text

namespace Identifier

theorem isDelimited_iff {name : List Char} : isDelimited name = true ↔ ∃ body, name = delimit body := by
  constructor
  · intro h
    simp only [isDelimited, Bool.and_eq_true, decide_eq_true_eq, beq_iff_eq] at h
    obtain ⟨⟨long, head⟩, last⟩ := h
    cases name with
    | nil => cases head
    | cons c rest =>
      obtain rfl : c = '"' := Option.some.inj head
      have nonempty : rest ≠ [] := by
        rintro rfl
        exact absurd long (by decide)
      rw [List.getLast?_cons_of_ne_nil nonempty] at last
      obtain ⟨body, rfl⟩ := List.getLast?_eq_some_iff.mp last
      exact ⟨body, rfl⟩
  · rintro ⟨body, rfl⟩
    have last : (delimit body).getLast? = some '"' := List.getLast?_concat (l := '"' :: body)
    simp only [isDelimited, Bool.and_eq_true, decide_eq_true_eq, beq_iff_eq]
    exact ⟨⟨by simp [delimit], rfl⟩, last⟩

@[simp] theorem undelimit_delimit (body : List Char) : undelimit (delimit body) = body := by
  simp [undelimit, delimit]

theorem isDelimited_upper (name : List Char) : isDelimited (Text.upper name) = isDelimited name := by
  rw [Bool.eq_iff_iff, isDelimited_iff, isDelimited_iff]
  constructor
  · rintro ⟨body, h⟩
    cases name with
    | nil => cases h
    | cons c rest =>
      obtain rfl := Text.head_of_upper h
      rcases List.eq_nil_or_concat rest with rfl | ⟨inner, d, rfl⟩
      · have := congrArg List.length h
        simp [Text.upperForm, delimit] at this
      · rw [List.concat_eq_append, ← List.cons_append] at h
        obtain rfl := Text.last_of_upper (t := '"' :: body) h
        exact ⟨inner, by rw [List.concat_eq_append]; rfl⟩
  · rintro ⟨body, rfl⟩
    exact ⟨Text.upper body, by simp [delimit, Text.upperForm]⟩

variable (e : Engine) {s t : String}

/-- Names that share a place in the cache are names of one table, unless they are delimited differently. -/
theorem catalogName_eq_iff_of_key (h : Catalog.Cache.key s = Catalog.Cache.key t) :
    catalogName e s = catalogName e t ↔ (isDelimited s.toList = true → s = t) := by
  have upper : Text.upper s.toList = Text.upper t.toList := String.ofList_injective h
  have together : isDelimited s.toList = isDelimited t.toList := by
    rw [← isDelimited_upper, upper, isDelimited_upper]
  cases delimited : isDelimited s.toList with
  | false =>
    have same : catalogName e s = catalogName e t := by
      rw [catalogName, catalogName, quoteChars, quoteChars, ← together, delimited, upper]
      rfl
    simpa using same
  | true =>
    obtain ⟨body, hs⟩ := isDelimited_iff.mp delimited
    obtain ⟨body', ht⟩ := isDelimited_iff.mp (together ▸ delimited)
    rw [catalogName, catalogName, quoteChars, quoteChars, ← together, delimited, if_pos rfl, if_pos rfl, hs, ht,
      undelimit_delimit, undelimit_delimit]
    constructor
    · intro same _
      rw [← String.toList_inj, hs, ht, String.ofList_injective same]
    · intro same
      rw [← String.toList_inj, String.toList_ofList, String.toList_ofList, ← undelimit_delimit body, ← hs, same rfl, ht,
        undelimit_delimit]

end Identifier

end FirebirdSql
