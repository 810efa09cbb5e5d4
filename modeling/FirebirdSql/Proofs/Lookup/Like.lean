import FirebirdSql.Lookup
import FirebirdSql.Proofs.StoredName
import Mathlib.Data.List.Basic

/-!
What `LIKE` accepts. The pattern that is bound for a text has the wildcards of the text escaped, so it accepts just the
texts that have the text at the start, at the end or anywhere, as the lookup says.
-/

namespace FirebirdSql

/-- The characters of a pattern that do not stand for themselves. The backslash escapes the next character. -/
def isWildcard (c : Char) : Bool := c == '%' || c == '_' || c == '\\'

/-- A pattern accepts a text. -/
inductive Like : List Char → List Char → Prop where
  | empty : Like [] []
  | any (skipped : List Char) : Like p t → Like ('%' :: p) (skipped ++ t)
  | one (c : Char) : Like p t → Like ('_' :: p) (c :: t)
  | escaped (c : Char) : Like p t → Like ('\\' :: c :: p) (c :: t)
  | plain : isWildcard c = false → Like p t → Like (c :: p) (c :: t)

namespace Like

variable {c : Char} {p s t : List Char}

theorem nil_iff : Like [] t ↔ t = [] := by
  constructor
  · rintro ⟨⟩
    rfl
  · rintro rfl
    exact .empty

theorem any_iff : Like ('%' :: p) t ↔ ∃ skipped rest, t = skipped ++ rest ∧ Like p rest := by
  constructor
  · intro h
    cases h with
    | any skipped h => exact ⟨skipped, _, rfl, h⟩
    | plain wild _ => exact absurd wild (by decide)
  · rintro ⟨skipped, rest, rfl, h⟩
    exact .any skipped h

theorem escaped_iff : Like ('\\' :: c :: p) t ↔ ∃ rest, t = c :: rest ∧ Like p rest := by
  constructor
  · intro h
    cases h with
    | escaped _ h => exact ⟨_, rfl, h⟩
    | plain wild _ => exact absurd wild (by decide)
  · rintro ⟨rest, rfl, h⟩
    exact .escaped c h

theorem plain_iff (hc : isWildcard c = false) : Like (c :: p) t ↔ ∃ rest, t = c :: rest ∧ Like p rest := by
  constructor
  · intro h
    cases h with
    | any | one | escaped => exact absurd hc (by decide)
    | plain _ h => exact ⟨_, rfl, h⟩
  · rintro ⟨rest, rfl, h⟩
    exact .plain hc h

theorem percent (t : List Char) : Like ['%'] t := any_iff.mpr ⟨t, [], (List.append_nil t).symm, .empty⟩

end Like

namespace Lookup

/-- A character as it stands in a pattern for itself. -/
def escapedChar (c : Char) : List Char := if isWildcard c then ['\\', c] else [c]

/-- The three replacements, one after another, come to one pass over the characters: what an earlier one has put is not
escaped again. -/
theorem escapeWildcards_eq_flatMap (s : List Char) : escapeWildcards s = s.flatMap escapedChar := by
  unfold escapeWildcards Text.replaceChar
  rw [List.flatMap_assoc, List.flatMap_assoc]
  refine List.flatMap_congr fun c _ => ?_
  unfold escapedChar isWildcard
  by_cases backslash : c = '\\'
  · subst backslash
    rfl
  by_cases percent : c = '%'
  · subst percent
    rfl
  by_cases underscore : c = '_'
  · subst underscore
    rfl
  · simp [backslash, percent, underscore]

/-- A pattern that starts with an escaped text accepts what starts with the text and goes on as the rest of the pattern
says. -/
theorem like_escapeWildcards_append {s p t : List Char} :
    Like (escapeWildcards s ++ p) t ↔ ∃ rest, t = s ++ rest ∧ Like p rest := by
  rw [escapeWildcards_eq_flatMap]
  induction s generalizing t with
  | nil => simp
  | cons c s ih =>
    have first : Like (escapedChar c ++ (s.flatMap escapedChar ++ p)) t ↔
        ∃ rest, t = c :: rest ∧ Like (s.flatMap escapedChar ++ p) rest := by
      unfold escapedChar
      split
      · exact Like.escaped_iff
      · next plain => exact Like.plain_iff (Bool.not_eq_true _ ▸ plain)
    rw [List.flatMap_cons, List.append_assoc, first]
    constructor
    · rintro ⟨_, rfl, h⟩
      obtain ⟨rest, rfl, accepted⟩ := ih.mp h
      exact ⟨rest, rfl, accepted⟩
    · rintro ⟨rest, rfl, h⟩
      exact ⟨s ++ rest, rfl, ih.mpr ⟨rest, rfl, h⟩⟩

/-- Where a text has to stand in another one. -/
def Anchor.Selects : Anchor → List Char → List Char → Prop
  | .anywhere, s, t => s <:+: t
  | .start, s, t => s <+: t
  | .finish, s, t => s <:+ t

instance (anchor : Anchor) (s t : List Char) : Decidable (anchor.Selects s t) :=
  match anchor with
  | .anywhere => inferInstanceAs (Decidable (s <:+: t))
  | .start => inferInstanceAs (Decidable (s <+: t))
  | .finish => inferInstanceAs (Decidable (s <:+ t))

theorem like_surround_iff (anchor : Anchor) {s t : List Char} :
    Like (anchor.surround (escapeWildcards s)) t ↔ anchor.Selects s t := by
  have alone {s t : List Char} : Like (escapeWildcards s) t ↔ t = s := by
    have h := like_escapeWildcards_append (s := s) (p := []) (t := t)
    simpa only [List.append_nil, Like.nil_iff, exists_eq_right] using h
  have followed {s t : List Char} : Like (escapeWildcards s ++ ['%']) t ↔ ∃ rest, t = s ++ rest := by
    simp only [like_escapeWildcards_append, Like.percent, and_true]
  cases anchor with
  | anywhere =>
    simp only [Anchor.surround, List.cons_append, Like.any_iff, followed]
    constructor
    · rintro ⟨before, _, rfl, after, rfl⟩
      exact ⟨before, after, List.append_assoc ..⟩
    · rintro ⟨before, after, rfl⟩
      exact ⟨before, s ++ after, List.append_assoc .., after, rfl⟩
  | start =>
    simp only [Anchor.surround, followed]
    exact ⟨fun ⟨after, h⟩ => ⟨after, h.symm⟩, fun ⟨after, h⟩ => ⟨after, h.symm⟩⟩
  | finish =>
    simp only [Anchor.surround, Like.any_iff, alone]
    constructor
    · rintro ⟨before, _, rfl, rfl⟩
      exact ⟨before, rfl⟩
    · rintro ⟨before, rfl⟩
      exact ⟨before, s, rfl, rfl⟩

/-! Upper case -/

/-- A side of the comparison as the lookup's template takes it. -/
def compared (l : Lookup) (up : Char → Char) (s : List Char) : List Char := if l.ignoresCase then s.map up else s

/-- Wildcards stay as they are, and nothing else becomes one. -/
def SparesWildcards (up : Char → Char) : Prop := ∀ c w, isWildcard w = true → (up c = w ↔ c = w)

variable {up : Char → Char}

theorem SparesWildcards.isWildcard (h : SparesWildcards up) (c : Char) : isWildcard (up c) = isWildcard c := by
  rw [Bool.eq_iff_iff]
  constructor
  · intro wild
    have same : c = up c := (h c (up c) wild).mp rfl
    rwa [same]
  · intro wild
    rwa [(h c c wild).mpr rfl]

theorem SparesWildcards.map_escapeWildcards (h : SparesWildcards up) (s : List Char) :
    (escapeWildcards s).map up = escapeWildcards (s.map up) := by
  have backslash : up '\\' = '\\' := (h '\\' '\\' rfl).mpr rfl
  rw [escapeWildcards_eq_flatMap, escapeWildcards_eq_flatMap, List.map_flatMap, List.flatMap_map]
  refine List.flatMap_congr fun c _ => ?_
  unfold escapedChar
  rw [h.isWildcard c, apply_ite (List.map up), List.map_cons, backslash]
  rfl

theorem map_surround (percent : up '%' = '%') (anchor : Anchor) (s : List Char) :
    (anchor.surround s).map up = anchor.surround (s.map up) := by
  cases anchor <;> simp [Anchor.surround, percent]

theorem compared_surround (percent : up '%' = '%') (l : Lookup) (anchor : Anchor) (s : List Char) :
    l.compared up (anchor.surround s) = anchor.surround (l.compared up s) := by
  unfold compared
  split
  · exact map_surround percent anchor s
  · rfl

theorem compared_escapeWildcards (h : SparesWildcards up) (l : Lookup) (s : List Char) :
    l.compared up (escapeWildcards s) = escapeWildcards (l.compared up s) := by
  unfold compared
  split
  · exact h.map_escapeWildcards s
  · rfl

theorem bound_text {l : Lookup} {anchor : Anchor} (h : l.anchor? = some anchor) (s : String) :
    l.bound (.text s) = .text (.ofList (anchor.surround (escapeWildcards s.toList))) := by
  simp only [bound, h]

/-- A pattern lookup of a text compares the column with one bound pattern. It accepts just the texts that have the
text where the lookup says; so it does where the condition compares both sides in upper case. -/
theorem condition_accepts_iff {l : Lookup} {anchor : Anchor} (h : l.anchor? = some anchor) (column : Fragment)
    (s : String) :
    ∃ pattern : String,
      l.condition column (.value (.text s)) =
        l.castColumn column ++ ⟨" LIKE " ++ (if l.ignoresCase then "UPPER(?)" else "?") ++ " ESCAPE '\\'", [.text pattern]⟩ ∧
      ∀ t : String, (Like pattern.toList t.toList ↔ anchor.Selects s.toList t.toList) ∧
        ∀ up, SparesWildcards up →
          (Like (l.compared up pattern.toList) (l.compared up t.toList) ↔
            anchor.Selects (l.compared up s.toList) (l.compared up t.toList)) := by
  refine ⟨.ofList (anchor.surround (escapeWildcards s.toList)), ?_, fun t => ⟨?_, fun up spares => ?_⟩⟩
  · have operator : " " ++ l.operator =
        " LIKE " ++ (if l.ignoresCase then "UPPER(?)" else "?") ++ " ESCAPE '\\'" := by
      cases l <;> cases h <;> rfl
    rw [condition, bound_text h, ← operator]
    exact congrArg₂ Fragment.mk (String.append_assoc ..) (congrArg (· ++ _) (List.append_nil _))
  · rw [String.toList_ofList]
    exact like_surround_iff anchor
  · rw [String.toList_ofList, compared_surround ((spares '%' '%' rfl).mpr rfl), compared_escapeWildcards spares]
    exact like_surround_iff anchor

theorem spares_toUpper : SparesWildcards Char.toUpper := by
  intro c w wild
  have known : w = '%' ∨ w = '_' ∨ w = '\\' := by simpa [isWildcard, or_assoc] using wild
  by_cases ascii : c.toNat < 128
  · rcases known with rfl | rfl | rfl
    · exact Text.forall_ascii (p := fun c => c.toUpper = '%' ↔ c = '%') (by decide +kernel) ascii
    · exact Text.forall_ascii (p := fun c => c.toUpper = '_' ↔ c = '_') (by decide +kernel) ascii
    · exact Text.forall_ascii (p := fun c => c.toUpper = '\\' ↔ c = '\\') (by decide +kernel) ascii
  · have same : c.toUpper = c := by
      refine dif_neg fun lower => ascii ?_
      have bound : c.val.toNat ≤ 122 := lower.2
      exact Nat.lt_of_le_of_lt bound (by decide)
    rw [same]

/-- A discount is found as it is written, and nothing that only looks like a pattern for it. -/
theorem condition_accepts_discount :
    Lookup.icontains.anchor? = some .anywhere ∧ SparesWildcards Char.toUpper ∧
      ∃ pattern : String,
        (Lookup.icontains.condition (.sql "\"TITLE\"") (.value (.text "50%_off"))).params = [.text pattern] ∧
          Like (pattern.toList.map Char.toUpper) ("Now 50%_OFF!".toList.map Char.toUpper) ∧
          ¬Like (pattern.toList.map Char.toUpper) ("Now 50 or 51 off!".toList.map Char.toUpper) := by
  refine ⟨rfl, spares_toUpper, ?_⟩
  obtain ⟨pattern, condition, accepts⟩ :=
    condition_accepts_iff (l := .icontains) rfl (.sql "\"TITLE\"") "50%_off"
  refine ⟨pattern, congrArg Fragment.params condition, ?_, ?_⟩
  · exact ((accepts "Now 50%_OFF!").2 _ spares_toUpper).mpr (by decide +kernel)
  · exact fun found => absurd (((accepts "Now 50 or 51 off!").2 _ spares_toUpper).mp found) (by decide +kernel)

end Lookup

end FirebirdSql
