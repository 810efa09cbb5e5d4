import Mathlib.Data.List.Chain
import FirebirdSql.Proofs.LiteralReading
import FirebirdSql.Proofs.PlainName
import FirebirdSql.Proofs.Select.Casting

/-!
Which items are cast. The words of an item are read without its literals, so that words between which nothing but
literals stands are read as one, and a double quote counts as that of a name wherever it stands. Apart from that, an item
is cast exactly if it binds values and names no column.
-/

namespace FirebirdSql

namespace SelectItem

def WordChar (c : Char) : Prop := c.isAlphanum = true ∨ c = '_' ∨ c = '$'

instance : DecidablePred WordChar := fun _ => inferInstanceAs (Decidable (_ ∨ _))

/-- Characters that words are made of, one at least. -/
def Spelled (w : List Char) : Prop := w ≠ [] ∧ ∀ c ∈ w, WordChar c

instance : DecidablePred Spelled := fun w => @instDecidableAnd _ _ _ (List.decidableBAll WordChar w)

/-- A character that stands for itself: of no word, and no quote. A blank is one, and so is a placeholder. -/
def Single (c : Char) : Prop := c ≠ '\'' ∧ c ≠ '"' ∧ ¬WordChar c

instance : DecidablePred Single := fun _ => inferInstanceAs (Decidable (_ ∧ _))

/-- A part of an expression. -/
inductive Token where
  /-- A text between single quotes. -/
  | literal (s : List Char)
  /-- A name between double quotes. -/
  | name (s : List Char)
  | word (w : List Char) (spelled : Spelled w := by decide)
  | single (c : Char) (proper : Single c := by decide)

namespace Token

def chars : Token → List Char
  | .literal s => Literal.quoteText s
  | .name s => '"' :: Text.replaceChar '"' ['"', '"'] s ++ ['"']
  | .word w _ => w
  | .single c _ => [c]

def isWord (t : Token) : Bool := t matches .word ..

def isName (t : Token) : Bool := t matches .name _

def written (tokens : List Token) : List Char := tokens.flatMap chars

/-- No word follows another without something in between. -/
def Apart (tokens : List Token) : Prop := tokens.IsChain fun t u => ¬(t.isWord ∧ u.isWord)

end Token

def IsNumber (w : List Char) : Prop := ∀ c ∈ w, c.isDigit = true

/-- The words that name no column. -/
def keywords : List String := ["CASE", "WHEN", "THEN", "ELSE", "END", "NULL", "AND", "OR", "NOT"]

/-- One of the words that name no column, in any case. -/
def IsKeyword (w : List Char) : Prop := ∃ k ∈ keywords, Text.sameAsciiLetters w k.toList = true

def NamesNone (w : List Char) : Prop := IsNumber w ∨ IsKeyword w

instance : DecidablePred IsNumber := fun w => List.decidableBAll _ w

instance : DecidablePred IsKeyword := fun _ => List.decidableBEx _ keywords

instance : DecidablePred NamesNone := fun _ => inferInstanceAs (Decidable (_ ∨ _))

theorem isWordChar_iff {c : Char} : isWordChar c = true ↔ WordChar c := by
  rw [isWordChar, Bool.or_eq_true, Bool.or_eq_true, beq_iff_eq, beq_iff_eq, or_assoc]
  rfl

theorem WordChar.ascii {c : Char} (h : WordChar c) : c.toNat < 128 := by
  rcases h with letter | rfl | rfl
  · exact Text.ascii_of_isAlphanum letter
  · decide
  · decide

/-! What a scan reads -/

theorem wordsFrom_quoted (word s rest : List Char) :
    wordsFrom true word (Text.replaceChar '\'' ['\'', '\''] s ++ '\'' :: rest) = wordsFrom false word rest := by
  induction s with
  | nil => rfl
  | cons c s ih =>
    rw [Text.replaceChar_cons]
    split
    · exact ih
    · next other =>
      rw [List.append_assoc, List.singleton_append, wordsFrom, if_neg other, if_pos rfl]
      exact ih

/-- A literal does not end the word before it. -/
theorem wordsFrom_literal (word s rest : List Char) :
    wordsFrom false word (Literal.quoteText s ++ rest) = wordsFrom false word rest := by
  rw [Literal.quoteText_append]
  exact wordsFrom_quoted word s rest

theorem wordsFrom_word {w : List Char} (spelled : ∀ c ∈ w, WordChar c) (word rest : List Char) :
    wordsFrom false word (w ++ rest) = wordsFrom false (w.reverse ++ word) rest := by
  induction w generalizing word with
  | nil => rfl
  | cons c w ih =>
    obtain ⟨letter, spelled⟩ := List.forall_mem_cons.mp spelled
    have other : c ≠ '\'' := by
      rintro rfl
      exact absurd letter (by decide)
    rw [List.cons_append, wordsFrom, if_neg other, if_neg Bool.false_ne_true, if_pos (isWordChar_iff.mpr letter), ih spelled,
      List.reverse_cons, List.append_assoc, List.singleton_append]

/-- What has been collected, if it is anything. -/
def collected {α : Type} (part : List α) : List (List α) := if part.isEmpty then [] else [part]

theorem wordsFrom_single {c : Char} (proper : Single c) (word rest : List Char) :
    wordsFrom false word (c :: rest) = collected word.reverse ++ wordsFrom false [] rest := by
  have none : ¬isWordChar c = true := fun letter => proper.2.2 (isWordChar_iff.mp letter)
  rw [wordsFrom, if_neg proper.1, if_neg Bool.false_ne_true, if_neg none]
  cases word with
  | nil => rfl
  | cons d word => simp [collected]

namespace Token

def word? : Token → Option (List Char)
  | .word w _ => some w
  | _ => none

def words (tokens : List Token) : List (List Char) := tokens.filterMap word?

/-- The words in groups: those between which nothing but literals stands are in one. -/
def groupsFrom (group : List (List Char)) : List Token → List (List (List Char))
  | [] => collected group
  | .literal _ :: rest => groupsFrom group rest
  | .word w _ :: rest => groupsFrom (group ++ [w]) rest
  | .name _ :: rest | .single _ _ :: rest => collected group ++ groupsFrom [] rest

def groups (tokens : List Token) : List (List (List Char)) := groupsFrom [] tokens

theorem spelled_of_mem_words {tokens : List Token} {w : List Char} (h : w ∈ words tokens) : Spelled w := by
  obtain ⟨t, -, found⟩ := List.mem_filterMap.mp h
  cases t with
  | word w spelled => exact Option.some.inj found ▸ spelled
  | _ => cases found

theorem flatten_collected {α : Type} (part : List α) : (collected part).flatten = part := by
  cases part <;> simp [collected]

theorem flatten_groupsFrom (group : List (List Char)) (tokens : List Token) :
    (groupsFrom group tokens).flatten = group ++ words tokens := by
  induction tokens generalizing group with
  | nil => exact (flatten_collected group).trans (List.append_nil _).symm
  | cons t tokens ih =>
    cases t with
    | literal s => exact ih group
    | word w spelled => exact (ih (group ++ [w])).trans (List.append_assoc ..)
    | name s | single c proper =>
      rw [groupsFrom, List.flatten_append, flatten_collected, ih]
      rfl

/-- The groups are made of the words. -/
theorem mem_words_iff {tokens : List Token} {w : List Char} : w ∈ words tokens ↔ ∃ g ∈ groups tokens, w ∈ g := by
  rw [← List.mem_flatten, groups, flatten_groupsFrom, List.nil_append]

theorem map_flatten_collected {group : List (List Char)} (spelled : ∀ w ∈ group, Spelled w) :
    (collected group).map List.flatten = collected group.flatten := by
  cases group with
  | nil => rfl
  | cons w group =>
    have some : w ≠ [] := (spelled w List.mem_cons_self).1
    simp [collected, some]

/-- A scan reads the words of a group as one. -/
theorem wordsFrom_written {tokens : List Token} (unnamed : ∀ t ∈ tokens, t.isName = false) {group : List (List Char)}
    (spelled : ∀ w ∈ group, Spelled w) :
    wordsFrom false group.flatten.reverse (written tokens) = (groupsFrom group tokens).map List.flatten := by
  induction tokens generalizing group with
  | nil =>
    rw [groupsFrom, map_flatten_collected spelled]
    simp [written, wordsFrom, collected]
  | cons t tokens ih =>
    obtain ⟨head, others⟩ := List.forall_mem_cons.mp unnamed
    rw [written, List.flatMap_cons]
    cases t with
    | literal s => exact (wordsFrom_literal ..).trans (ih others spelled)
    | name s => cases head
    | word w spelled' =>
      have longer : (group ++ [w]).flatten.reverse = w.reverse ++ group.flatten.reverse := by simp
      rw [chars, wordsFrom_word spelled'.2, ← longer]
      refine ih others fun v hv => ?_
      rcases List.mem_append.mp hv with earlier | last
      · exact spelled v earlier
      · exact List.mem_singleton.mp last ▸ spelled'
    | single c proper =>
      rw [chars, List.singleton_append, wordsFrom_single proper, List.reverse_reverse, groupsFrom, List.map_append,
        map_flatten_collected spelled]
      have none : ∀ w ∈ ([] : List (List Char)), Spelled w := nofun
      exact congrArg _ (ih others none)

theorem quote_mem_chars {t : Token} : '"' ∈ t.chars ↔ t.isName = true ∨ ∃ s, t = .literal s ∧ '"' ∈ s := by
  cases t with
  | literal s =>
    have inside : '"' ∈ Text.replaceChar '\'' ['\'', '\''] s ↔ '"' ∈ s := by
      refine List.mem_flatMap.trans ⟨?_, fun h => ⟨'"', h, by decide⟩⟩
      rintro ⟨c, hc, form⟩
      split at form
      · exact absurd form (by decide)
      · exact List.mem_singleton.mp form ▸ hc
    simp [chars, Literal.quoteText, isName, inside]
  | name s => simp [chars, isName]
  | word w spelled =>
    have none : '"' ∉ w := fun h => absurd (spelled.2 _ h) (by decide)
    simp [chars, isName, none]
  | single c proper => simp [chars, isName, proper.2.1.symm]

end Token

/-! Words that name no column -/

theorem columnFreeWords_eq : columnFreeWords = keywords.map String.toList := rfl

theorem isColumnFreeWord_iff {w : List Char} (spelled : ∀ c ∈ w, WordChar c) :
    isColumnFreeWord w = true ↔ NamesNone w := by
  have ascii : ∀ c ∈ w, c.toNat < 128 := fun c hc => (spelled c hc).ascii
  have upper : ∀ k ∈ keywords, (k.toList.map Char.toLower).map Char.toUpper = k.toList := by decide
  have same (k : String) (hk : k ∈ keywords) : w.map Char.toUpper = k.toList ↔ Text.sameAsciiLetters w k.toList = true := by
    rw [Text.sameAsciiLetters, beq_iff_eq]
    constructor
    · intro raised
      rw [← raised, List.map_map]
      exact (List.map_congr_left fun c hc => Text.toLower_toUpper_ascii (ascii c hc)).symm
    · intro lowered
      rw [← Text.map_toUpper_toLower ascii, lowered, upper k hk]
  have listed : columnFreeWords.contains (w.map Char.toUpper) = true ↔ IsKeyword w := by
    rw [List.contains_iff_mem, columnFreeWords_eq, List.mem_map]
    refine exists_congr fun k => and_congr_right fun hk => ?_
    rw [← same k hk, eq_comm]
  rw [isColumnFreeWord, Bool.or_eq_true, List.all_eq_true, listed]
  rfl

theorem isDigit_toLower {c : Char} (h : c.isDigit = true) : c.toLower.isDigit = true := by
  have ascii : c.toNat < 128 := WordChar.ascii (.inl (by rw [Char.isAlphanum, h, Bool.or_true]))
  have all : ∀ n : Fin 128, (Char.ofNat n).isDigit = true → (Char.ofNat n).toLower.isDigit = true := by decide
  exact Text.forall_ascii (p := fun c => c.isDigit = true → c.toLower.isDigit = true) all ascii h

/-- No keyword begins with another, or with a digit. -/
theorem keyword_of_prefix {v w : List Char} (nonempty : v ≠ []) (names : NamesNone v) (keyword : IsKeyword (v ++ w)) :
    w = [] := by
  obtain ⟨k, hk, letters⟩ := keyword
  rw [Text.sameAsciiLetters, beq_iff_eq, List.map_append] at letters
  rcases names with number | ⟨k', hk', letters'⟩
  · obtain ⟨c, v, rfl⟩ := List.exists_cons_of_ne_nil nonempty
    have letter : ∀ k ∈ keywords, (k.toList.map Char.toLower).any Char.isDigit = false := by decide
    have first : c.toLower ∈ k.toList.map Char.toLower := letters ▸ List.mem_append_left _ List.mem_cons_self
    exact absurd (isDigit_toLower (number c List.mem_cons_self)) (List.any_eq_false.mp (letter k hk) c.toLower first)
  · rw [Text.sameAsciiLetters, beq_iff_eq] at letters'
    have apart : ∀ k ∈ keywords, ∀ k' ∈ keywords,
        k'.toList.map Char.toLower <+: k.toList.map Char.toLower → k' = k := by decide
    have same := apart k hk k' hk' ⟨w.map Char.toLower, by rw [← letters', letters]⟩
    rw [same, ← letters] at letters'
    simpa using letters'

/-- Words that name no column do so read as one only if there is a single one of them, or if all are numbers. -/
theorem namesNone_flatten_iff {g : List (List Char)} (spelled : ∀ w ∈ g, Spelled w) (free : ∀ w ∈ g, NamesNone w) :
    NamesNone g.flatten ↔ g.length < 2 ∨ ∀ w ∈ g, IsNumber w := by
  have numbers : IsNumber g.flatten ↔ ∀ w ∈ g, IsNumber w := by
    unfold IsNumber
    exact List.forall_mem_flatten
  constructor
  · rintro (number | keyword)
    · exact .inr (numbers.mp number)
    · left
      match g with
      | [] => exact Nat.two_pos
      | [_] => exact Nat.one_lt_two
      | v :: w :: g =>
        have rest : (w :: g).flatten = [] :=
          keyword_of_prefix (spelled v List.mem_cons_self).1 (free v List.mem_cons_self) keyword
        have none : w = [] := (List.append_eq_nil_iff.mp rest).1
        exact absurd none (spelled w (List.mem_cons_of_mem _ List.mem_cons_self)).1
  · rintro (short | number)
    · match g with
      | [] => exact .inl nofun
      | [w] => simpa using free w List.mem_cons_self
      | v :: w :: g => exact absurd short (by simp)
    · exact .inl (numbers.mpr number)

/-! Which items are cast -/

open Token

/-- No token is a name, and every word is a number or a keyword. -/
structure NamesNoColumn (tokens : List Token) : Prop where
  unnamed : ∀ t ∈ tokens, t.isName = false
  free : ∀ w ∈ words tokens, NamesNone w

/-- The item names no column, but seems to: a double quote stands in a literal, or nothing but literals stands between
words that are not all numbers. -/
structure Overlooked (tokens : List Token) : Prop where
  columnFree : NamesNoColumn tokens
  seeming : (∃ s, .literal s ∈ tokens ∧ '"' ∈ s) ∨ ∃ g ∈ groups tokens, 2 ≤ g.length ∧ ∃ w ∈ g, ¬IsNumber w

/-- The item names a column by a word, but does not seem to: nothing but literals stands between the word and others that
make a keyword with it. -/
structure Mistaken (tokens : List Token) : Prop where
  unnamed : ∀ t ∈ tokens, t.isName = false
  unquoted : ∀ s, .literal s ∈ tokens → '"' ∉ s
  named : ∃ w ∈ words tokens, ¬NamesNone w
  joined : ∀ g ∈ groups tokens, NamesNone g.flatten

variable {tokens : List Token} {params : List Value}

theorem spelled_of_mem_groups {g : List (List Char)} (hg : g ∈ groups tokens) : ∀ w ∈ g, Spelled w :=
  fun _ hw => spelled_of_mem_words (mem_words_iff.mpr ⟨g, hg, hw⟩)

theorem all_isColumnFreeWord_iff (unnamed : ∀ t ∈ tokens, t.isName = false) :
    (SelectItem.wordsFrom false [] (written tokens)).all isColumnFreeWord = true ↔
      ∀ g ∈ groups tokens, NamesNone g.flatten := by
  have read : SelectItem.wordsFrom false [] (written tokens) = (groups tokens).map List.flatten :=
    wordsFrom_written unnamed (nofun : ∀ w ∈ ([] : List (List Char)), Spelled w)
  rw [read, List.all_eq_true, List.forall_mem_map]
  refine forall₂_congr fun g hg => isColumnFreeWord_iff fun c hc => ?_
  obtain ⟨w, hw, hc⟩ := List.mem_flatten.mp hc
  exact (spelled_of_mem_groups hg w hw).2 c hc

theorem quote_mem_written : '"' ∈ written tokens ↔
    (∃ t ∈ tokens, t.isName = true) ∨ ∃ s, .literal s ∈ tokens ∧ '"' ∈ s := by
  rw [written, List.mem_flatMap]
  constructor
  · rintro ⟨t, ht, quote⟩
    rcases quote_mem_chars.mp quote with named | ⟨s, rfl, hs⟩
    · exact .inl ⟨t, ht, named⟩
    · exact .inr ⟨s, ht, hs⟩
  · rintro (⟨t, ht, named⟩ | ⟨s, hs, quote⟩)
    · exact ⟨t, ht, quote_mem_chars.mpr (.inl named)⟩
    · exact ⟨.literal s, hs, quote_mem_chars.mpr (.inr ⟨s, rfl, quote⟩)⟩

theorem isColumnFree_iff : isColumnFree ⟨.ofList (written tokens), params⟩ = true ↔
    params ≠ [] ∧ (∀ t ∈ tokens, t.isName = false) ∧ (∀ s, .literal s ∈ tokens → '"' ∉ s) ∧
      ∀ g ∈ groups tokens, NamesNone g.flatten := by
  have bound : (!params.isEmpty) = true ↔ params ≠ [] := by cases params <;> simp
  have quotes : (!(written tokens).contains '"') = true ↔
      (∀ t ∈ tokens, t.isName = false) ∧ ∀ s, .literal s ∈ tokens → '"' ∉ s := by
    rw [Bool.not_eq_true', ← Bool.not_eq_true, List.contains_iff_mem, quote_mem_written]
    simp
  rw [isColumnFree, String.toList_ofList, Bool.and_eq_true, Bool.and_eq_true, bound, quotes, and_assoc, and_assoc]
  refine and_congr_right fun _ => and_congr_right fun unnamed => and_congr_right fun _ => ?_
  exact all_isColumnFreeWord_iff unnamed

/-- The words of an item that names no column seem to name none either, unless literals join some that are not all
numbers. -/
theorem NamesNoColumn.joined_iff (h : NamesNoColumn tokens) : (∀ g ∈ groups tokens, NamesNone g.flatten) ↔
    ¬∃ g ∈ groups tokens, 2 ≤ g.length ∧ ∃ w ∈ g, ¬IsNumber w := by
  have each (g) (hg : g ∈ groups tokens) :=
    namesNone_flatten_iff (spelled_of_mem_groups hg) fun w hw => h.free w (mem_words_iff.mpr ⟨g, hg, hw⟩)
  simp only [not_exists, not_and, not_not]
  refine forall₂_congr fun g hg => (each g hg).trans ?_
  rw [or_iff_not_imp_left, not_lt]

/-- An item that names no column is cast unless it is overlooked. -/
theorem NamesNoColumn.cast_iff (h : NamesNoColumn tokens) :
    ((∀ s, .literal s ∈ tokens → '"' ∉ s) ∧ ∀ g ∈ groups tokens, NamesNone g.flatten) ↔ ¬Overlooked tokens := by
  rw [h.joined_iff]
  constructor
  · rintro ⟨unquoted, apart⟩ ⟨-, ⟨s, hs, quote⟩ | joined⟩
    · exact unquoted s hs quote
    · exact apart joined
  · intro seen
    exact ⟨fun s hs quote => seen ⟨h, .inl ⟨s, hs, quote⟩⟩, fun joined => seen ⟨h, .inr joined⟩⟩

/-- An item is cast exactly if it binds values, no double quote stands in it, and what is read of each group of its words
names no column. That is whether it binds values and names no column, unless it is overlooked or mistaken. -/
theorem isCast_namesNoColumn_iff (e : Engine) (tokens : List Token) (params : List Value) (label : Option String) :
    let item : SelectItem := ⟨⟨.ofList (written tokens), params⟩, label⟩
    (IsCast e item ↔ params ≠ [] ∧ (∀ t ∈ tokens, t.isName = false) ∧ (∀ s, .literal s ∈ tokens → '"' ∉ s) ∧
        ∀ g ∈ groups tokens, NamesNone g.flatten) ∧
      ((IsCast e item ↔ params ≠ [] ∧ NamesNoColumn tokens) ↔ params = [] ∨ ¬(Overlooked tokens ∨ Mistaken tokens)) := by
  intro item
  have cast : IsCast e item ↔ _ := isCast_iff.trans isColumnFree_iff
  refine ⟨cast, ?_⟩
  rw [cast]
  by_cases bound : params = []
  · exact iff_of_true (iff_of_false (fun h => h.1 bound) (fun h => h.1 bound)) (.inl bound)
  rw [and_iff_right bound, and_iff_right bound, or_iff_right bound]
  by_cases free : NamesNoColumn tokens
  · have rightly : ¬Mistaken tokens := by
      rintro ⟨-, -, ⟨w, hw, named⟩, -⟩
      exact named (free.free w hw)
    rw [or_iff_left rightly, ← free.cast_iff, and_iff_right free.unnamed]
    exact iff_true_right free
  · have seen : ¬Overlooked tokens := fun h => free h.columnFree
    rw [or_iff_right seen]
    refine (iff_false_right free).trans (not_congr ⟨?_, fun h => ⟨h.unnamed, h.unquoted, h.joined⟩⟩)
    rintro ⟨unnamed, unquoted, joined⟩
    have named : ∃ w ∈ words tokens, ¬NamesNone w := by
      by_contra none
      refine free ⟨unnamed, fun w hw => ?_⟩
      by_contra names
      exact none ⟨w, hw, names⟩
    exact ⟨unnamed, unquoted, named, joined⟩

/-- A double quote in a literal is taken for that of a name, so that the value is not cast. -/
theorem isCast_misses_quote :
    let e : Engine := ⟨⟨3, 0, 0, 0⟩⟩
    let tokens : List Token := [.word "CASE".toList, .single ' ', .single '?', .single ' ', .word "WHEN".toList,
      .single ' ', .literal ['"'], .single ' ', .word "THEN".toList, .single ' ', .word ['1'], .single ' ',
      .word "END".toList]
    String.ofList (written tokens) = "CASE ? WHEN '\"' THEN 1 END" ∧ Apart tokens ∧ NamesNoColumn tokens ∧
      ¬IsCast e ⟨⟨"CASE ? WHEN '\"' THEN 1 END", [.text "x"]⟩, none⟩ := by
  intro e tokens
  refine ⟨by decide, by unfold Apart; decide, ⟨by decide, by decide⟩, ?_⟩
  rw [isCast_iff]
  decide

end SelectItem

end FirebirdSql
