import FirebirdSql.Text.CaseTable

/-!
Upper and lower case of whole texts. A character may grow (`ß` becomes `SS`), and a final `Σ` has a lower form of
its own. Below 128 the mapping is the ASCII one.
-/

namespace FirebirdSql.Text

def inRanges (ranges : List (Nat × Nat)) (n : Nat) : Bool :=
  ranges.any fun r => decide (r.1 ≤ n) && decide (n ≤ r.2)

/-- The case form of a character beyond ASCII, from the tables of that case. -/
def caseForm (runs : List CaseRun) (expansions : List (Nat × List Nat)) (c : Char) : List Char :=
  match expansions.lookup c.toNat with
  | some form => form.map Char.ofNat
  | none =>
    match runs.find? (·.covers c.toNat) with
    | some run => [run.apply c.toNat]
    | none => [c]

def upperForm (c : Char) : List Char :=
  if c.toNat < 128 then [c.toUpper] else caseForm upperRuns upperExpansions c

def lowerForm (c : Char) : List Char :=
  if c.toNat < 128 then [c.toLower] else caseForm lowerRuns lowerExpansions c

def upper (s : List Char) : List Char := s.flatMap upperForm

/-- Whether a cased character comes first, once the ignorable ones are passed over. -/
def casedAhead (s : List Char) : Bool :=
  match s.dropWhile fun c => inRanges caseIgnorableRanges c.toNat with
  | [] => false
  | c :: _ => inRanges casedRanges c.toNat

/-- Lowers `s`, whose characters come after those of `before` in reverse. -/
def lowerAfter (before : List Char) : List Char → List Char
  | [] => []
  | c :: rest =>
    (if c = 'Σ' then
      if casedAhead before && !casedAhead rest then ['ς'] else ['σ']
    else lowerForm c) ++ lowerAfter (c :: before) rest

def lower (s : List Char) : List Char := lowerAfter [] s

/-- `upper` on strings. -/
def uppercase (s : String) : String := .ofList (upper s.toList)

/-- `lower` on strings. -/
def lowercase (s : String) : String := .ofList (lower s.toList)

/-- Equality up to the case of the ASCII letters. -/
def sameAsciiLetters (s t : List Char) : Bool := s.map Char.toLower == t.map Char.toLower

@[simp] theorem upper_nil : upper [] = [] := rfl

@[simp] theorem upper_cons (c : Char) (s : List Char) : upper (c :: s) = upperForm c ++ upper s := by
  simp [upper]

@[simp] theorem upper_append (s t : List Char) : upper (s ++ t) = upper s ++ upper t := by
  simp [upper]

theorem upper_ascii {s : List Char} (h : ∀ c ∈ s, c.toNat < 128) : upper s = s.map Char.toUpper := by
  induction s with
  | nil => rfl
  | cons c s ih =>
    have hc : c.toNat < 128 := h c (by simp)
    rw [upper_cons, ih fun d hd => h d (List.mem_cons_of_mem c hd), upperForm, if_pos hc]
    rfl

end FirebirdSql.Text
