import FirebirdSql.Proofs.PlainName
import FirebirdSql.Statement

/-!
Simple names and the form in which the catalog stores them. A stored name is read back in lower case, and that is again
a spelling of the same identifier.
-/

namespace FirebirdSql

namespace Text

/-- An ASCII character that stands in a name as it is: neither a quote nor a blank. -/
def Visible (c : Char) : Prop := c.toNat < 128 ∧ c ≠ '"' ∧ isBlank c = false

instance : DecidablePred Visible := fun _ => inferInstanceAs (Decidable (_ ∧ _))

theorem visible_of_all {s : List Char} (h : s.all (decide <| Visible ·) = true) : ∀ c ∈ s, Visible c :=
  fun c hc => of_decide_eq_true (List.all_eq_true.mp h c hc)

theorem forall_ascii {p : Char → Prop} [DecidablePred p] (h : ∀ n : Fin 128, p (Char.ofNat n)) {c : Char}
    (hc : c.toNat < 128) : p c := by
  have := h ⟨c.toNat, hc⟩
  rwa [Char.ofNat_toNat] at this

theorem ascii_of_isAlphanum {c : Char} (h : c.isAlphanum = true) : c.toNat < 128 := by
  have below (last : Char) (h : c ≤ last) (ascii : last.toNat < 128) : c.toNat < 128 := Nat.lt_of_le_of_lt h ascii
  rcases Bool.or_eq_true_iff.mp h with alpha | digit
  · rcases Bool.or_eq_true_iff.mp alpha with upper | lower
    · exact below 'Z' (of_decide_eq_true upper).2 (by decide)
    · exact below 'z' (of_decide_eq_true (Bool.and_eq_true_iff.mp lower).2) (by decide)
  · exact below '9' (of_decide_eq_true (Bool.and_eq_true_iff.mp digit).2) (by decide)

theorem Visible.toUpper {c : Char} (h : Visible c) : Visible c.toUpper ∧ c.toUpper.toUpper = c.toUpper := by
  have all : ∀ n : Fin 128, Visible (Char.ofNat n) →
      Visible (Char.ofNat n).toUpper ∧ (Char.ofNat n).toUpper.toUpper = (Char.ofNat n).toUpper := by decide +kernel
  exact forall_ascii (p := fun c => Visible c → Visible c.toUpper ∧ c.toUpper.toUpper = c.toUpper) all h.1 h

theorem Visible.toLower {c : Char} (h : Visible c) : Visible c.toLower ∧ c.toLower.toLower = c.toLower := by
  have all : ∀ n : Fin 128, Visible (Char.ofNat n) →
      Visible (Char.ofNat n).toLower ∧ (Char.ofNat n).toLower.toLower = (Char.ofNat n).toLower := by decide +kernel
  exact forall_ascii (p := fun c => Visible c → Visible c.toLower ∧ c.toLower.toLower = c.toLower) all h.1 h

theorem visible_hexDigit {n : Nat} (h : n < 16) : Visible (hexDigit n) := by
  have all : ∀ k : Fin 16, Visible (hexDigit k) := by decide
  exact all ⟨n, h⟩

theorem forall_hexOfBytes {p : Char → Prop} (hex : ∀ n < 16, p (hexDigit n)) (bs : List UInt8) :
    ∀ c ∈ hexOfBytes bs, p c := by
  intro c hc
  obtain ⟨b, -, hc⟩ := List.mem_flatMap.mp hc
  have hb : b.toNat < 256 := b.toNat_lt
  simp only [hexByte, List.mem_cons, List.not_mem_nil, or_false] at hc
  rcases hc with rfl | rfl
  · exact hex _ (by omega)
  · exact hex _ (by omega)

theorem upperForm_ne_nil (c : Char) : upperForm c ≠ [] := by
  unfold upperForm
  split
  · exact List.cons_ne_nil _ _
  unfold caseForm
  split
  · next form found =>
    have some : ∀ entry ∈ upperExpansions, entry.2 ≠ [] := by decide +kernel
    obtain ⟨before, after, entries, -⟩ := List.lookup_eq_some_iff.mp found
    rw [Ne, List.map_eq_nil_iff]
    exact some (c.toNat, form) (entries ▸ List.mem_append_right _ List.mem_cons_self)
  split <;> exact List.cons_ne_nil _ _

theorem lower_ascii {s : List Char} (h : ∀ c ∈ s, c.toNat < 128) : lower s = s.map Char.toLower := by
  have after (before s : List Char) (h : ∀ c ∈ s, c.toNat < 128) : lowerAfter before s = s.map Char.toLower := by
    induction s generalizing before with
    | nil => rfl
    | cons c s ih =>
      have hc : c.toNat < 128 := h c List.mem_cons_self
      have hs : c ≠ 'Σ' := by
        rintro rfl
        exact absurd hc (by decide)
      rw [lowerAfter, if_neg hs, lowerForm, if_pos hc, ih _ fun d hd => h d (List.mem_cons_of_mem c hd)]
      rfl
  exact after [] s h

theorem trim_of_visible {s : List Char} (h : ∀ c ∈ s, Visible c) : trim s = s := by
  have start (s : List Char) (h : ∀ c ∈ s, Visible c) : s.dropWhile isBlank = s := by
    cases s with
    | nil => rfl
    | cons c s => exact trimStart_of_head (h c List.mem_cons_self).2.2
  unfold trim trimEnd trimStart
  rw [start s h, start s.reverse fun c hc => h c (List.mem_reverse.mp hc), List.reverse_reverse]

end Text

namespace Identifier

open Text (Visible)

/-- Takes one quote for two. -/
def undouble : List Char → List Char
  | '"' :: '"' :: rest => '"' :: undouble rest
  | c :: rest => c :: undouble rest
  | [] => []

/-- The name that the engine stores for an identifier. -/
def stored (i : Identifier) : String := .ofList (undouble (undelimit i.text.toList))

theorem undouble_cons {c : Char} (h : c ≠ '"') (s : List Char) : undouble (c :: s) = c :: undouble s := by
  rw [undouble]
  intro _ hc
  exact absurd hc h

theorem undouble_of_visible {s : List Char} (h : ∀ c ∈ s, Visible c) : undouble s = s := by
  induction s with
  | nil => rfl
  | cons c s ih =>
    rw [undouble_cons (h c List.mem_cons_self).2.1, ih fun d hd => h d (List.mem_cons_of_mem c hd)]

theorem undouble_replaceChar (s : List Char) : undouble (Text.replaceChar '"' ['"', '"'] s) = s := by
  induction s with
  | nil => rfl
  | cons c s ih =>
    unfold Text.replaceChar at ih ⊢
    rw [List.flatMap_cons]
    by_cases hc : c = '"'
    · subst hc
      exact congrArg _ ih
    · rw [if_neg hc, List.singleton_append, undouble_cons hc, ih]

theorem stored_ofStored (name : String) : (ofStored name).stored = name := by
  simp [ofStored, stored, undelimit, delimit, undouble_replaceChar]

/-- The name has characters, all of them visible ones. -/
def Simple (name : String) : Prop := name.toList ≠ [] ∧ ∀ c ∈ name.toList, Visible c

instance (name : String) : Decidable (Simple name) := @instDecidableAnd _ _ _ (List.decidableBAll Visible name.toList)

theorem Simple.plain {name : String} (h : Simple name) : Plain name := fun c hc => ⟨(h.2 c hc).1, (h.2 c hc).2.1⟩

/-- A simple name in the form in which it is stored. -/
structure Canonical (e : Engine) (name : String) : Prop where
  simple : Simple name
  upper : name.toList.map Char.toUpper = name.toList
  short : name.toList.length ≤ e.identifierLimit

instance (e : Engine) (name : String) : Decidable (Canonical e name) :=
  decidable_of_iff (Simple name ∧ name.toList.map Char.toUpper = name.toList ∧ name.toList.length ≤ e.identifierLimit)
    ⟨fun h => ⟨h.1, h.2.1, h.2.2⟩, fun h => ⟨h.simple, h.upper, h.short⟩⟩

variable {e : Engine} {name : String}

theorem forall_cut {p : Char → Prop} (hex : ∀ n < 16, p (Text.hexDigit n)) (limit : Nat) {s : List Char}
    (h : ∀ c ∈ s, p c) : ∀ c ∈ cut limit s, p c := by
  unfold cut
  split
  · exact h
  · intro c hc
    rcases List.mem_append.mp hc with hc | hc
    · exact h c (List.mem_of_mem_take hc)
    · exact Text.forall_hexOfBytes hex _ c (List.mem_of_mem_take hc)

theorem visible_cut (limit : Nat) {s : List Char} (h : ∀ c ∈ s, Visible c) : ∀ c ∈ cut limit s, Visible c :=
  forall_cut (fun _ => Text.visible_hexDigit) limit h

theorem length_cut {limit : Nat} (h : cutDigestLength ≤ limit) (s : List Char) : (cut limit s).length ≤ limit := by
  unfold cut
  split
  · assumption
  · simp only [List.length_append, List.length_take, Digest.ofNames]
    omega

theorem cut_ne_nil {limit : Nat} (h : cutDigestLength < limit) {s : List Char} (hs : s ≠ []) : cut limit s ≠ [] := by
  unfold cut
  split
  · exact hs
  · intro hn
    have := List.append_eq_nil_iff.mp hn
    rcases List.take_eq_nil_iff.mp this.1 with h' | h'
    · omega
    · exact hs h'

theorem upper_of_visible {s : List Char} (h : ∀ c ∈ s, Visible c) : Text.upper s = s.map Char.toUpper :=
  Text.upper_ascii fun c hc => (h c hc).1

theorem visible_map_toUpper {s : List Char} (h : ∀ c ∈ s, Visible c) : ∀ c ∈ s.map Char.toUpper, Visible c := by
  intro c hc
  obtain ⟨d, hd, rfl⟩ := List.mem_map.mp hc
  exact (h d hd).toUpper.1

theorem map_toUpper_twice {s : List Char} (h : ∀ c ∈ s, Visible c) :
    (s.map Char.toUpper).map Char.toUpper = s.map Char.toUpper := by
  rw [List.map_map]
  exact List.map_congr_left fun c hc => (h c hc).toUpper.2

namespace Simple

theorem catalogName_toList (h : Simple name) :
    (catalogName e name).toList = (cut e.identifierLimit (name.toList.map Char.toUpper)).map Char.toUpper := by
  have hv := visible_map_toUpper h.2
  rw [catalogName, String.toList_ofList, quoteChars, if_neg (by rw [h.plain.not_delimited]; exact Bool.false_ne_true),
    upper_of_visible h.2, upper_of_visible (visible_cut _ hv)]
  simp [undelimit, delimit]

theorem canonical (h : Simple name) : Canonical e (catalogName e name) := by
  have hl := e.identifierLimit_ge
  have hv := visible_cut e.identifierLimit (visible_map_toUpper h.2)
  refine ⟨⟨?_, ?_⟩, ?_, ?_⟩
  · rw [h.catalogName_toList, Ne, List.map_eq_nil_iff]
    exact cut_ne_nil (by simp only [cutDigestLength]; omega) (by simpa using h.1)
  · rw [h.catalogName_toList]
    exact visible_map_toUpper hv
  · rw [h.catalogName_toList]
    exact map_toUpper_twice hv
  · rw [h.catalogName_toList, List.length_map]
    exact length_cut (by simp only [cutDigestLength]; omega) _

theorem catalogName_of_short (h : Simple name) (hs : name.toList.length ≤ e.identifierLimit) :
    (catalogName e name).toList = name.toList.map Char.toUpper := by
  rw [h.catalogName_toList, cut, if_pos (by simpa using hs), map_toUpper_twice h.2]

theorem stored_quote (h : Simple name) : (quote e name).stored = catalogName e name := by
  have hc := (h.canonical (e := e)).simple.2
  rw [catalogName, String.toList_ofList] at hc
  rw [stored, quote, String.toList_ofList, undouble_of_visible hc, catalogName]

end Simple

theorem forall_joinWith {p : Char → Prop} {sep : List Char} (between : ∀ c ∈ sep, p c) {parts : List (List Char)}
    (h : ∀ part ∈ parts, ∀ c ∈ part, p c) : ∀ c ∈ Text.joinWith sep parts, p c := by
  induction parts with
  | nil => simp [Text.joinWith]
  | cons part parts ih =>
    cases parts with
    | nil => exact h part List.mem_cons_self
    | cons next parts =>
      intro c hc
      simp only [Text.joinWith, List.mem_append] at hc
      rcases hc with (hc | hc) | hc
      · exact h part List.mem_cons_self c hc
      · exact between c hc
      · exact ih (fun part hm => h part (List.mem_cons_of_mem _ hm)) c hc

/-- What holds of the characters of the table, the columns and the suffix, and lasts in upper case, holds of a derived
name. -/
theorem forall_derivedChars {p : Char → Prop} (hex : ∀ n < 16, p (Text.hexDigit n)) (underscore : p '_') (head : p 'D')
    (upper : ∀ c, p c → ∀ d ∈ Text.upperForm c, p d) (limit : Nat) {table suffix : List Char}
    {columns : List (List Char)} (ht : ∀ c ∈ table, p c) (hc : ∀ column ∈ columns, ∀ c ∈ column, p c)
    (hs : ∀ c ∈ suffix, p c) : ∀ c ∈ derivedChars limit table columns suffix, p c := by
  have hcolumns := forall_joinWith (List.forall_mem_singleton.mpr underscore) hc
  have htail : ∀ c ∈ Digest.ofNames (table :: columns) derivedDigestLength ++ suffix, p c := by
    intro c hm
    rcases List.mem_append.mp hm with hm | hm
    · exact Text.forall_hexOfBytes hex _ c (List.mem_of_mem_take hm)
    · exact hs c hm
  have parts {s t : List Char} (h : ∀ c ∈ s, p c) (h' : ∀ c ∈ t, p c) : ∀ c ∈ s ++ '_' :: t, p c := by
    intro c hm
    rcases List.mem_append.mp hm with hm | hm
    · exact h c hm
    · rcases List.mem_cons.mp hm with rfl | hm
      · exact underscore
      · exact h' c hm
  have mended {s : List Char} (h : ∀ c ∈ s, p c) : ∀ c ∈ mendHead limit s, p c := by
    cases s with
    | nil => exact h
    | cons c s =>
      unfold mendHead
      dsimp only
      split
      · intro d hd
        rcases List.mem_cons.mp hd with rfl | hd
        · exact head
        · exact h d (List.mem_of_mem_take hd)
      · exact h
  have raised {s : List Char} (h : ∀ c ∈ s, p c) : ∀ c ∈ Text.upper s, p c := by
    intro d hd
    obtain ⟨c, hc, hd⟩ := List.mem_flatMap.mp hd
    exact upper c (h c hc) d hd
  rw [derivedChars]
  refine raised (mended ?_)
  split
  · refine parts (parts (fun c hm => ?_) fun c hm => ?_) htail
    · exact ht c (List.mem_of_mem_take hm)
    · exact hcolumns c (List.mem_of_mem_take hm)
  · exact parts (parts ht hcolumns) htail

theorem derivedChars_ne_nil (limit : Nat) (table : List Char) (columns : List (List Char)) (suffix : List Char) :
    derivedChars limit table columns suffix ≠ [] := by
  have mended {s : List Char} (hs : s ≠ []) : mendHead limit s ≠ [] := by
    cases s with
    | nil => exact absurd rfl hs
    | cons c s =>
      unfold mendHead
      dsimp only
      split <;> exact List.cons_ne_nil _ _
  have raised {s : List Char} (hs : s ≠ []) : Text.upper s ≠ [] := by
    cases s with
    | nil => exact absurd rfl hs
    | cons c s =>
      rw [Text.upper_cons]
      exact List.append_ne_nil_of_left_ne_nil (Text.upperForm_ne_nil c) _
  refine raised (mended ?_)
  split <;> simp

theorem simple_derivedName {table suffix : String} {columns : List String} (ht : Simple table)
    (hc : ∀ column ∈ columns, Simple column) (hs : ∀ c ∈ suffix.toList, Visible c) :
    Simple (derivedName e table columns suffix) := by
  have raised (c : Char) (h : Visible c) : ∀ d ∈ Text.upperForm c, Visible d := by
    rw [Text.upperForm, if_pos h.1]
    exact List.forall_mem_singleton.mpr h.toUpper.1
  have columnsVisible : ∀ column ∈ columns.map String.toList, ∀ c ∈ column, Visible c := by
    intro part hm
    obtain ⟨column, hmem, rfl⟩ := List.mem_map.mp hm
    exact (hc column hmem).2
  rw [Simple, derivedName, String.toList_ofList]
  refine ⟨derivedChars_ne_nil _ _ _ _, ?_⟩
  exact forall_derivedChars (fun _ => Text.visible_hexDigit) (by decide) (by decide) raised _ ht.2 columnsVisible hs

namespace Canonical

theorem lowercase_toList (h : Canonical e name) : (Text.lowercase name).toList = name.toList.map Char.toLower := by
  rw [Text.lowercase, String.toList_ofList, Text.lower_ascii fun c hc => (h.simple.2 c hc).1]

theorem toUpper_toLower (h : Canonical e name) : (name.toList.map Char.toLower).map Char.toUpper = name.toList := by
  rw [Text.map_toUpper_toLower fun c hc => (h.simple.2 c hc).1, h.upper]

theorem simple_lowercase (h : Canonical e name) : Simple (Text.lowercase name) := by
  refine ⟨?_, ?_⟩
  · rw [h.lowercase_toList, Ne, List.map_eq_nil_iff]
    exact h.simple.1
  · rw [h.lowercase_toList]
    intro c hc
    obtain ⟨d, hd, rfl⟩ := List.mem_map.mp hc
    exact (h.simple.2 d hd).toLower.1

/-- The name that is read back stands for the same identifier. -/
theorem catalogName_lowercase (h : Canonical e name) : catalogName e (Text.lowercase name) = name := by
  have hs : (Text.lowercase name).toList.length ≤ e.identifierLimit := by
    rw [h.lowercase_toList, List.length_map]
    exact h.short
  have := h.simple_lowercase.catalogName_of_short hs
  rw [h.lowercase_toList, h.toUpper_toLower] at this
  exact String.toList_injective this

theorem stored_quote_lowercase (h : Canonical e name) : (quote e (Text.lowercase name)).stored = name := by
  rw [h.simple_lowercase.stored_quote, h.catalogName_lowercase]

theorem lowercase_injective {other : String} (h : Canonical e name) (ho : Canonical e other)
    (he : Text.lowercase name = Text.lowercase other) : name = other := by
  rw [← h.catalogName_lowercase, he, ho.catalogName_lowercase]

theorem trimmed (h : Canonical e name) : Text.trimmed name = name := by
  rw [Text.trimmed, Text.trim_of_visible h.simple.2, String.ofList_toList]

theorem ne_empty (h : Canonical e name) : name ≠ "" := by
  rintro rfl
  exact h.simple.1 rfl

/-- A column that is read back is found by its name within the limit. -/
theorem sameAsciiLetters_iff {column : String} (h : Canonical e name) (hc : Simple column)
    (hs : column.toList.length ≤ e.identifierLimit) :
    Text.sameAsciiLetters (Text.lowercase name).toList column.toList = true ↔ name = catalogName e column := by
  have twice : (name.toList.map Char.toLower).map Char.toLower = name.toList.map Char.toLower := by
    rw [List.map_map]
    exact List.map_congr_left fun c hc => (h.simple.2 c hc).toLower.2
  rw [Text.sameAsciiLetters, beq_iff_eq, h.lowercase_toList, twice]
  constructor
  · intro he
    refine String.toList_injective ?_
    rw [hc.catalogName_of_short hs, ← h.toUpper_toLower, he,
      Text.map_toUpper_toLower fun c hm => (hc.2 c hm).1]
  · rintro rfl
    rw [hc.catalogName_of_short hs, List.map_map]
    exact List.map_congr_left fun c hm => Text.toLower_toUpper_ascii (hc.2 c hm).1

end Canonical

end Identifier

end FirebirdSql
