import FirebirdSql.Text.Search

/-!
Texts between quotes of one character, where a quote inside is written twice. A closing quote is one that no other quote
follows, so what is between the quotes can be read back whatever it is, and so can what comes after it.
-/

namespace FirebirdSql.Text

/-- Reads on inside of quotes: the text up to the closing quote, where two quotes stand for one, and what comes after. -/
def readQuoted (quote : Char) : List Char → Option (List Char × List Char)
  | [] => none
  | c :: rest =>
    if c = quote then
      match rest with
      | [] => some ([], [])
      | d :: more =>
        if d = quote then (readQuoted quote more).map fun (s, after) => (quote :: s, after) else some ([], d :: more)
    else (readQuoted quote rest).map fun (s, after) => (c :: s, after)

theorem replaceChar_cons (c : Char) (form : List Char) (d : Char) (s : List Char) :
    replaceChar c form (d :: s) = (if d = c then form else [d]) ++ replaceChar c form s := List.flatMap_cons

variable {quote : Char} {t s after : List Char}

theorem readQuoted_twice (more : List Char) : readQuoted quote (quote :: quote :: more) =
    (readQuoted quote more).map fun (s, after) => (quote :: s, after) :=
  (readQuoted.eq_def ..).trans ((if_pos rfl).trans (if_pos rfl))

theorem readQuoted_other {c : Char} (other : c ≠ quote) (rest : List Char) : readQuoted quote (c :: rest) =
    (readQuoted quote rest).map fun (s, after) => (c :: s, after) :=
  (readQuoted.eq_def ..).trans (if_neg other)

/-- What is written in quotes is read back, if no further quote follows the closing one. -/
theorem readQuoted_replaceChar (s : List Char) (ends : after.head? ≠ some quote) :
    readQuoted quote (replaceChar quote [quote, quote] s ++ quote :: after) = some (s, after) := by
  induction s with
  | nil =>
    cases after with
    | nil => exact if_pos rfl
    | cons d after =>
      have other : d ≠ quote := fun same => ends (congrArg some same)
      exact (if_pos rfl).trans (if_neg other)
  | cons c s ih =>
    rw [replaceChar_cons]
    split
    · next same =>
      rw [List.append_assoc, same]
      exact (readQuoted_twice _).trans (congrArg _ ih)
    · next other =>
      rw [List.append_assoc]
      exact (readQuoted_other other _).trans (congrArg _ ih)

/-- Nothing else is read as the text than what is written so. -/
theorem eq_of_readQuoted (h : readQuoted quote t = some (s, after)) :
    t = replaceChar quote [quote, quote] s ++ quote :: after ∧ after.head? ≠ some quote := by
  fun_induction readQuoted quote t generalizing s with
  | case1 => cases h
  | case2 =>
    cases h
    exact ⟨rfl, nofun⟩
  | case3 more ih =>
    obtain ⟨⟨s, _⟩, read, ⟨⟩⟩ := Option.map_eq_some_iff.mp h
    obtain ⟨written, ends⟩ := ih read
    refine ⟨?_, ends⟩
    rw [replaceChar_cons, if_pos rfl, written]
    rfl
  | case4 d more other =>
    cases h
    exact ⟨rfl, fun same => other (Option.some.inj same)⟩
  | case5 c rest other ih =>
    obtain ⟨⟨s, _⟩, read, ⟨⟩⟩ := Option.map_eq_some_iff.mp h
    obtain ⟨written, ends⟩ := ih read
    refine ⟨?_, ends⟩
    rw [replaceChar_cons, if_neg other, written]
    rfl

theorem readQuoted_eq_some_iff : readQuoted quote t = some (s, after) ↔
    t = replaceChar quote [quote, quote] s ++ quote :: after ∧ after.head? ≠ some quote :=
  ⟨eq_of_readQuoted, fun ⟨written, ends⟩ => written ▸ readQuoted_replaceChar s ends⟩

end FirebirdSql.Text
