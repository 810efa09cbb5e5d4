/-!
Blanks: the characters of the Unicode property `White_Space`. Trimming and splitting into words go by them.
-/

namespace FirebirdSql.Text

def isBlank (c : Char) : Bool :=
  let n := c.toNat
  (decide (9 ≤ n) && decide (n ≤ 13)) || n == 0x20 || n == 0x85 || n == 0xA0 || n == 0x1680 ||
    (decide (0x2000 ≤ n) && decide (n ≤ 0x200A)) || n == 0x2028 || n == 0x2029 || n == 0x202F ||
    n == 0x205F || n == 0x3000

def trimStart (s : List Char) : List Char := s.dropWhile isBlank

def trimEnd (s : List Char) : List Char := (s.reverse.dropWhile isBlank).reverse

def trim (s : List Char) : List Char := trimEnd (trimStart s)

/-- Splits off the first word: the characters up to the first blank. -/
def wordsFrom (word : List Char) : List Char → List (List Char)
  | [] => if word.isEmpty then [] else [word.reverse]
  | c :: rest =>
    if isBlank c then
      if word.isEmpty then wordsFrom [] rest else word.reverse :: wordsFrom [] rest
    else wordsFrom (c :: word) rest

/-- The maximal runs of characters that are not blank. -/
def words (s : List Char) : List (List Char) := wordsFrom [] s

/-- `trim` on strings. -/
def trimmed (s : String) : String := .ofList (trim s.toList)

theorem isBlank_of_isWhitespace {c : Char} (h : c.isWhitespace = true) : isBlank c = true := by
  simp only [Char.isWhitespace, Bool.or_eq_true, decide_eq_true_eq] at h
  rcases h with ((rfl | rfl) | rfl) | rfl <;> decide

theorem toLower_of_isBlank {c : Char} (h : isBlank c = true) : c.toLower = c := by
  refine dif_neg fun (letter : 65 ≤ c.toNat ∧ c.toNat ≤ 90) => ?_
  simp only [isBlank, Bool.or_eq_true, Bool.and_eq_true, decide_eq_true_eq, beq_iff_eq] at h
  omega

theorem trimStart_of_head {c : Char} {s : List Char} (h : isBlank c = false) :
    trimStart (c :: s) = c :: s := by
  simp [trimStart, h]

theorem trimEnd_append_blanks (s : List Char) {blanks : List Char} (h : ∀ c ∈ blanks, isBlank c = true) :
    trimEnd (s ++ blanks) = trimEnd s := by
  have reversed : ∀ c ∈ blanks.reverse, isBlank c = true := fun c hc => h c (List.mem_reverse.mp hc)
  rw [trimEnd, List.reverse_append, List.dropWhile_append_of_pos reversed, trimEnd]

theorem trim_append_blanks (s : List Char) {blanks : List Char} (h : ∀ c ∈ blanks, isBlank c = true) :
    trim (s ++ blanks) = trim s := by
  induction s with
  | nil =>
    rw [trim, trimStart, List.nil_append, ← List.append_nil blanks, List.dropWhile_append_of_pos h]
    rfl
  | cons c s ih =>
    by_cases blank : isBlank c = true
    · have passed (t : List Char) : trim (c :: t) = trim t := by
        rw [trim, trimStart, List.dropWhile_cons_of_pos blank]
        rfl
      rw [List.cons_append, passed, passed, ih]
    · have start (t : List Char) : trim (c :: t) = trimEnd (c :: t) := by
        rw [trim, trimStart_of_head (by simpa using blank)]
      rw [List.cons_append, start, start, ← List.cons_append, trimEnd_append_blanks _ h]

end FirebirdSql.Text
