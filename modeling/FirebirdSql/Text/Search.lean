/-!
Finding and replacing parts of texts.
-/

namespace FirebirdSql.Text

/-- What follows `pat`, if `s` starts with it. -/
def dropHead? : (pat s : List Char) → Option (List Char)
  | [], s => some s
  | _ :: _, [] => none
  | p :: pat, c :: s => if p = c then dropHead? pat s else none

def startsWith (pat s : List Char) : Bool := (dropHead? pat s).isSome

/-- The parts before and after the first occurrence of `pat`. -/
def splitFirst? (pat : List Char) : List Char → Option (List Char × List Char)
  | [] => (dropHead? pat []).map ([], ·)
  | c :: rest =>
    match dropHead? pat (c :: rest) with
    | some after => some ([], after)
    | none => (splitFirst? pat rest).map fun (before, after) => (c :: before, after)

/-- Whether `pat` occurs in `s`. -/
def occurs (pat s : List Char) : Bool := (splitFirst? pat s).isSome

/-- Puts `form` for every `c`. -/
def replaceChar (c : Char) (form : List Char) (s : List Char) : List Char :=
  s.flatMap fun d => if d = c then form else [d]

/-- The parts between the occurrences of `c`. -/
def splitAt (c : Char) : List Char → List (List Char)
  | [] => [[]]
  | d :: rest =>
    if d = c then [] :: splitAt c rest
    else match splitAt c rest with
      | [] => [[d]]
      | part :: parts => (d :: part) :: parts

def joinWith (sep : List Char) : List (List Char) → List Char
  | [] => []
  | [part] => part
  | part :: parts => part ++ sep ++ joinWith sep parts

/-- `joinWith` on strings. -/
def joined (sep : String) (parts : List String) : String :=
  .ofList (joinWith sep.toList (parts.map String.toList))

theorem dropHead?_eq_some_iff {pat s rest : List Char} :
    dropHead? pat s = some rest ↔ s = pat ++ rest := by
  induction pat generalizing s with
  | nil => simp [dropHead?]
  | cons p pat ih =>
    cases s with
    | nil => simp [dropHead?]
    | cons c s =>
      by_cases h : p = c
      · simp [dropHead?, h, ih]
      · simp [dropHead?, h, Ne.symm h]

theorem splitAt_ne_nil (c : Char) (s : List Char) : splitAt c s ≠ [] := by
  cases s with
  | nil => simp [splitAt]
  | cons d s =>
    unfold splitAt
    split
    · simp
    · split <;> simp

theorem splitAt_append {c : Char} {s : List Char} (h : c ∉ s) (rest : List Char) :
    splitAt c (s ++ c :: rest) = s :: splitAt c rest := by
  induction s with
  | nil => exact if_pos rfl
  | cons d s ih =>
    have other := List.ne_of_not_mem_cons h
    have notMem := List.not_mem_of_not_mem_cons h
    rw [List.cons_append, splitAt, if_neg (Ne.symm other), ih notMem]

theorem splitAt_of_notMem {c : Char} {s : List Char} (h : c ∉ s) : splitAt c s = [s] := by
  induction s with
  | nil => rfl
  | cons d s ih =>
    have other := List.ne_of_not_mem_cons h
    have notMem := List.not_mem_of_not_mem_cons h
    rw [splitAt, if_neg (Ne.symm other), ih notMem]

/-- A character of a text is the mark, or it is in one of the parts between the marks. -/
theorem eq_or_mem_splitAt {c d : Char} {s : List Char} (h : d ∈ s) : d = c ∨ ∃ part ∈ splitAt c s, d ∈ part := by
  induction s with
  | nil => exact absurd h List.not_mem_nil
  | cons e s ih =>
    unfold splitAt
    rcases List.mem_cons.mp h with rfl | h
    · split
      · exact .inl ‹_›
      · split
        · exact .inr ⟨_, List.mem_cons_self, List.mem_cons_self⟩
        · exact .inr ⟨_, List.mem_cons_self, List.mem_cons_self⟩
    · rcases ih h with same | ⟨part, within, here⟩
      · exact .inl same
      · right
        split
        · exact ⟨part, List.mem_cons_of_mem _ within, here⟩
        · split
          · next none => exact absurd none (splitAt_ne_nil c s)
          · next first others parts =>
            rw [parts] at within
            rcases List.mem_cons.mp within with rfl | later
            · exact ⟨_, List.mem_cons_self, List.mem_cons_of_mem _ here⟩
            · exact ⟨part, List.mem_cons_of_mem _ later, here⟩

theorem joinWith_cons (sep part : List Char) (parts : List (List Char)) :
    joinWith sep (part :: parts) = part ++ parts.flatMap (sep ++ ·) := by
  induction parts generalizing part with
  | nil => exact (List.append_nil part).symm
  | cons next parts ih =>
    change part ++ sep ++ joinWith sep (next :: parts) = _
    rw [ih next, List.flatMap_cons, List.append_assoc, List.append_assoc]

/-- What is joined is split again where no part has the mark in it. -/
theorem splitAt_joinWith {c : Char} {parts : List (List Char)} (some : parts ≠ []) (apart : ∀ part ∈ parts, c ∉ part) :
    splitAt c (joinWith [c] parts) = parts := by
  induction parts with
  | nil => exact absurd rfl some
  | cons part parts ih =>
    obtain ⟨here, others⟩ := List.forall_mem_cons.mp apart
    cases parts with
    | nil => exact splitAt_of_notMem here
    | cons next parts =>
      rw [joinWith, List.append_assoc, List.singleton_append, splitAt_append here, ih (List.cons_ne_nil _ _) others]
      exact fun none => List.cons_ne_nil _ _ none

end FirebirdSql.Text
