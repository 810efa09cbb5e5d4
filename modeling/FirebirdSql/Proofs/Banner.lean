import FirebirdSql.Engine
import FirebirdSql.Proofs.StoredName

/-!
A banner that is written for a version is read as that version, whatever blanks stand between its words. If it has the
numbers of a build and of a product, the build is read as long as both begin alike, and else the product.
-/

namespace FirebirdSql

namespace Text

/-! The words of a text -/

/-- A word has characters, none of them blank. -/
def IsRun (word : List Char) : Prop := word ≠ [] ∧ ∀ c ∈ word, isBlank c = false

/-- The text is made of these words, with blanks between them and maybe around them. -/
inductive Spaced : List (List Char) → List Char → Prop where
  | gap (gap : List Char) : gap.all isBlank = true → Spaced [] gap
  | word {run rest : List Char} {others : List (List Char)} (gap : List Char) : gap.all isBlank = true →
      rest.head?.all isBlank = true → Spaced others rest → Spaced (run :: others) (gap ++ (run ++ rest))

theorem wordsFrom_gap {gap : List Char} (h : gap.all isBlank = true) (rest : List Char) :
    wordsFrom [] (gap ++ rest) = wordsFrom [] rest := by
  induction gap with
  | nil => rfl
  | cons c gap ih =>
    obtain ⟨blank, others⟩ := Bool.and_eq_true_iff.mp h
    rw [List.cons_append, wordsFrom, if_pos blank]
    exact ih others

/-- What is read of a word, last character first, is kept until it is over. -/
theorem wordsFrom_run {word : List Char} (h : ∀ c ∈ word, isBlank c = false) (read rest : List Char) :
    wordsFrom read (word ++ rest) = wordsFrom (word.reverse ++ read) rest := by
  induction word generalizing read with
  | nil => rfl
  | cons c word ih =>
    obtain ⟨visible, others⟩ := List.forall_mem_cons.mp h
    rw [List.cons_append, wordsFrom, if_neg (by simp [visible]), ih others, List.reverse_cons, List.append_assoc]
    rfl

theorem wordsFrom_end {read rest : List Char} (some : read ≠ []) (ends : rest.head?.all isBlank = true) :
    wordsFrom read rest = read.reverse :: wordsFrom [] rest := by
  have nonempty : ¬read.isEmpty = true := by simpa using some
  cases rest with
  | nil =>
    rw [wordsFrom, if_neg nonempty]
    rfl
  | cons c rest =>
    have blank : isBlank c = true := ends
    rw [wordsFrom, wordsFrom, if_pos blank, if_pos blank, if_neg nonempty]
    rfl

theorem words_of_spaced {ws : List (List Char)} {s : List Char} (h : Spaced ws s) (runs : ∀ word ∈ ws, IsRun word) :
    words s = ws := by
  unfold words
  induction h with
  | gap gap blank =>
    have passed := wordsFrom_gap blank []
    rw [List.append_nil] at passed
    exact passed
  | @word run rest others gap blank ends _ ih =>
    obtain ⟨isRun, others⟩ := List.forall_mem_cons.mp runs
    have some : run.reverse ++ [] ≠ [] := by simpa using isRun.1
    rw [wordsFrom_gap blank, wordsFrom_run isRun.2, wordsFrom_end some ends, ih others, List.append_nil,
      List.reverse_reverse]

/-! Numerals and marks -/

/-- A numeral is read back within its bounds; it has no sign. -/
theorem readUpTo?_digits {n greatest : Nat} (h : n ≤ greatest) : readUpTo? greatest (digits n) = some n := by
  have plain : '+' ∉ digits n := notMem_of_readNat? (readNat?_digits n) rfl
  unfold readUpTo?
  split
  · next rest same => exact absurd (same ▸ List.mem_cons_self) plain
  · rw [readNat?_digits, Option.filter_some, if_pos (by simpa using h)]

theorem isBlank_of_mem_digits {n : Nat} {c : Char} (h : c ∈ digits n) : isBlank c = false := by
  rw [Bool.eq_false_iff]
  intro blank
  refine notMem_of_readNat? (readNat?_digits n) (if_neg fun (numeral : 48 ≤ c.toNat ∧ c.toNat ≤ 57) => ?_) h
  simp only [isBlank, Bool.or_eq_true, Bool.and_eq_true, decide_eq_true_eq, beq_iff_eq] at blank
  omega

/-- A pattern does not occur without its first character. -/
theorem splitFirst?_of_notMem {p : Char} {pat s : List Char} (h : p ∉ s) : splitFirst? (p :: pat) s = none := by
  induction s with
  | nil => rfl
  | cons c s ih =>
    have other := List.ne_of_not_mem_cons h
    have rest := ih (List.not_mem_of_not_mem_cons h)
    have head : dropHead? (p :: pat) (c :: s) = none := if_neg other
    rw [splitFirst?, head, rest]
    rfl

/-- What comes before two different characters is found by them, if they do not occur in it one after the other. -/
theorem splitFirst?_pair {p q : Char} (apart : p ≠ q) {before : List Char} (h : occurs [p, q] before = false)
    (after : List Char) : splitFirst? [p, q] (before ++ p :: q :: after) = some (before, after) := by
  induction before with
  | nil =>
    have head : dropHead? [p, q] (p :: q :: after) = some after := dropHead?_eq_some_iff.mpr rfl
    rw [List.nil_append, splitFirst?, head]
  | cons c before ih =>
    have head : dropHead? [p, q] (c :: (before ++ p :: q :: after)) = none := by
      rw [← Option.not_isSome_iff_eq_none, Option.isSome_iff_exists]
      rintro ⟨rest, found⟩
      obtain ⟨rfl, tail⟩ := List.cons.inj (dropHead?_eq_some_iff.mp found)
      cases before with
      | nil => exact apart (List.cons.inj tail).1
      | cons d before =>
        obtain ⟨rfl, -⟩ := List.cons.inj tail
        have here : dropHead? [c, d] (c :: d :: before) = some before := dropHead?_eq_some_iff.mpr rfl
        rw [occurs, splitFirst?, here] at h
        exact absurd h (by simp)
    have none : occurs [p, q] before = false := by
      have absent : dropHead? [p, q] (c :: before) = none := by
        cases first : dropHead? [p, q] (c :: before) with
        | none => rfl
        | some rest =>
          rw [occurs, splitFirst?, first] at h
          exact absurd h (by simp)
      rw [occurs, splitFirst?, absent, Option.isSome_map] at h
      exact h
    rw [List.cons_append, splitFirst?, head, ih none]
    rfl

/-- The ASCII letters of a text may change their case, but nothing else is added to it. -/
theorem notMem_of_sameAsciiLetters {c : Char} {s t : List Char} (h : sameAsciiLetters s t = true)
    (absent : c.toLower ∉ t.map Char.toLower) : c ∉ s := by
  intro here
  rw [← beq_iff_eq.mp h] at absent
  exact absent (List.mem_map_of_mem here)

end Text

namespace Version

/-- The numbers of the version are those of the engine's words. -/
structure Fits (v : Version) : Prop where
  major : v.major ≤ greatestNumber
  minor : v.minor ≤ greatestNumber
  patch : v.patch ≤ greatestNumber
  build : v.build ≤ greatestNumber

/-- Numbers with points between them. -/
def pointed (numbers : List Nat) : List Char := Text.joinWith ['.'] (numbers.map Text.digits)

theorem text_toList (v : Version) : v.text.toList = pointed [v.major, v.minor, v.patch, v.build] := by
  simp [text, pointed, Text.joined, Text.natText]

/-- What holds of digits and points holds of numbers with points between them. -/
theorem forall_pointed {p : Char → Prop} (point : p '.') (numeral : ∀ n, ∀ c ∈ Text.digits n, p c) (numbers : List Nat) :
    ∀ c ∈ pointed numbers, p c := by
  refine Identifier.forall_joinWith (List.forall_mem_singleton.mpr point) fun part h => ?_
  obtain ⟨n, -, rfl⟩ := List.mem_map.mp h
  exact numeral n

theorem pointed_ne_nil {numbers : List Nat} (some : numbers ≠ []) : pointed numbers ≠ [] := by
  cases numbers with
  | nil => exact absurd rfl some
  | cons n numbers =>
    have first : Text.digits n ≠ [] := Text.digits_ne_nil n
    cases numbers with
    | nil => exact first
    | cons m numbers => simp [pointed, Text.joinWith]

theorem isRun_pointed {numbers : List Nat} (some : numbers ≠ []) : Text.IsRun (pointed numbers) := by
  have point : Text.isBlank '.' = false := rfl
  exact ⟨pointed_ne_nil some, forall_pointed point (fun _ _ => Text.isBlank_of_mem_digits) numbers⟩

theorem dash_notMem_pointed (numbers : List Nat) : '-' ∉ pointed numbers := by
  have dash (n : Nat) : '-' ∉ Text.digits n := Text.notMem_of_readNat? (Text.readNat?_digits n) rfl
  intro here
  have other : ∀ n, ∀ c ∈ Text.digits n, c ≠ '-' := fun n c hc same => dash n (same ▸ hc)
  exact forall_pointed (by decide) other numbers '-' here rfl

/-- Up to four numbers are read back within their bounds. -/
theorem read_pointed {numbers : List Nat} (some : numbers ≠ []) (few : numbers.length ≤ 4)
    (fit : ∀ n ∈ numbers, n ≤ greatestNumber) :
    ((Text.splitAt '.' (pointed numbers)).take 4).mapM (Text.readUpTo? greatestNumber) = .some numbers := by
  have parts : Text.splitAt '.' (pointed numbers) = numbers.map Text.digits := by
    refine Text.splitAt_joinWith (by simpa using some) fun part h => ?_
    obtain ⟨n, -, rfl⟩ := List.mem_map.mp h
    exact Text.notMem_of_readNat? (Text.readNat?_digits n) rfl
  rw [parts, List.take_of_length_le (by simpa using few)]
  clear some few parts
  induction numbers with
  | nil => rfl
  | cons n numbers ih =>
    obtain ⟨here, others⟩ := List.forall_mem_cons.mp fit
    rw [List.map_cons, List.mapM_cons, Text.readUpTo?_digits here, ih others]
    rfl

theorem Fits.ofNumbers?_text {v : Version} (h : v.Fits) : ofNumbers? v.text.toList = some v := by
  rw [text_toList, ofNumbers?, read_pointed (List.cons_ne_nil _ _) (by simp) (by simp [h.major, h.minor, h.patch, h.build])]
  rfl

theorem ofNumbers?_pair {x y : Nat} (hx : x ≤ greatestNumber) (hy : y ≤ greatestNumber) :
    ofNumbers? (pointed [x, y]) = some ⟨x, y, 0, 0⟩ := by
  rw [ofNumbers?, read_pointed (List.cons_ne_nil _ _) (by simp) (by simp [hx, hy])]
  rfl

/-- The product's name in any case of its letters. -/
def IsProductName (name : List Char) : Prop := Text.sameAsciiLetters name "firebird".toList = true

instance (name : List Char) : Decidable (IsProductName name) := inferInstanceAs (Decidable (_ = true))

/-- The word of a banner that has the numbers of the build, after the platform and the build mark. -/
def buildWord (platform : List Char) (v : Version) : List Char := platform ++ '-' :: 'V' :: v.text.toList

/-- What may come before the build mark: it has no blanks, and not the mark itself. -/
structure IsPlatform (platform : List Char) : Prop where
  unbroken : platform.all (!Text.isBlank ·) = true
  unmarked : Text.occurs ['-', 'V'] platform = false

variable {v : Version} {name platform numbers : List Char} {x y : Nat}

theorem IsPlatform.isRun_buildWord (h : IsPlatform platform) (v : Version) : Text.IsRun (buildWord platform v) := by
  have visible := (isRun_pointed (List.cons_ne_nil v.major [v.minor, v.patch, v.build])).2
  rw [← text_toList] at visible
  refine ⟨List.append_ne_nil_of_right_ne_nil _ (List.cons_ne_nil _ _), fun c hc => ?_⟩
  simp only [buildWord, List.mem_append, List.mem_cons] at hc
  rcases hc with hc | rfl | rfl | hc
  · have unbroken := List.all_eq_true.mp h.unbroken c hc
    rwa [Bool.not_eq_true'] at unbroken
  · rfl
  · rfl
  · exact visible c hc

theorem IsProductName.isRun (h : IsProductName name) : Text.IsRun name := by
  constructor
  · rintro rfl
    exact absurd h (by decide)
  · intro c hc
    rw [Bool.eq_false_iff]
    intro blank
    refine Text.notMem_of_sameAsciiLetters h ?_ hc
    rw [Text.toLower_of_isBlank blank]
    intro letter
    have visible : ("firebird".toList.map Char.toLower).all (!Text.isBlank ·) = true := by decide
    have here := List.all_eq_true.mp visible c letter
    rw [blank] at here
    exact Bool.false_ne_true here

theorem IsProductName.dash_notMem (h : IsProductName name) : '-' ∉ name :=
  Text.notMem_of_sameAsciiLetters h (by decide)

/-- Without a dash there is no build mark. -/
theorem build?_of_dash_notMem {words : List (List Char)} (h : ∀ word ∈ words, '-' ∉ word) : build? words = none := by
  have unmarked : words.findSome? (Text.splitFirst? ['-', 'V']) = none :=
    List.findSome?_eq_none_iff.mpr fun word hw => Text.splitFirst?_of_notMem (h word hw)
  rw [build?, unmarked]
  rfl

theorem build?_buildWord (hp : IsPlatform platform) (hv : v.Fits) (rest : List (List Char)) :
    build? (buildWord platform v :: rest) = some v := by
  have marked : (buildWord platform v :: rest).findSome? (Text.splitFirst? ['-', 'V']) = some (platform, v.text.toList) := by
    rw [List.findSome?_cons, buildWord, Text.splitFirst?_pair (by decide) hp.unmarked]
  rw [build?, marked, Option.bind_eq_bind, Option.bind_some]
  exact hv.ofNumbers?_text

theorem product?_of_name (hn : IsProductName name) {product : Version} (numbered : ofNumbers? numbers = some product)
    (rest : List (List Char)) : product? (name :: numbers :: rest) = some product := by
  have next : afterProduct? (name :: numbers :: rest) = some numbers := if_pos hn
  rw [product?, next, Option.bind_some, numbered, Option.some_or]

/-- The word with the build mark is not the name of the product. -/
theorem product?_buildWord (platform : List Char) (v : Version) (rest : List (List Char)) (some : rest ≠ []) :
    product? (buildWord platform v :: rest) = product? rest := by
  have dash : '-' ∈ buildWord platform v := List.mem_append_right _ List.mem_cons_self
  have other : ¬IsProductName (buildWord platform v) := fun named => named.dash_notMem dash
  have next : afterProduct? (buildWord platform v :: rest) = afterProduct? rest := if_neg other
  rw [product?, product?, next, List.getLast?_cons_of_ne_nil some]

/-- The text of a version after the product's name is read as the version. A banner with the numbers of a build and of a
product is read as the build if both begin alike, and as the product otherwise. Either way blanks may stand anywhere
between and around the words, and the product's name may be in any case. -/
theorem ofBanner_written (hv : v.Fits) (hn : IsProductName name) :
    (∀ banner : String, Text.Spaced [name, v.text.toList] banner.toList → ofBanner banner = .ok v) ∧
      ∀ platform x y, IsPlatform platform → x ≤ greatestNumber → y ≤ greatestNumber → ∀ banner : String,
        Text.Spaced [buildWord platform v, name, pointed [x, y]] banner.toList →
          ofBanner banner = .ok (if v.major = x ∧ v.minor = y then v else ⟨x, y, 0, 0⟩) := by
  constructor
  · intro banner spaced
    have runs : ∀ word ∈ [name, v.text.toList], Text.IsRun word := by
      simp [hn.isRun, text_toList, isRun_pointed]
    have unmarked : build? [name, v.text.toList] = none := by
      refine build?_of_dash_notMem (List.forall_mem_cons.mpr ⟨hn.dash_notMem, ?_⟩)
      rw [List.forall_mem_singleton, text_toList]
      exact dash_notMem_pointed _
    rw [ofBanner, Text.words_of_spaced spaced runs, unmarked, product?_of_name hn hv.ofNumbers?_text]
  · intro platform x y hp hx hy banner spaced
    have runs : ∀ word ∈ [buildWord platform v, name, pointed [x, y]], Text.IsRun word := by
      simp [hn.isRun, hp.isRun_buildWord, isRun_pointed]
    have product : product? [buildWord platform v, name, pointed [x, y]] = some ⟨x, y, 0, 0⟩ := by
      rw [product?_buildWord platform v _ (List.cons_ne_nil _ _)]
      exact product?_of_name hn (ofNumbers?_pair hx hy) []
    rw [ofBanner, Text.words_of_spaced spaced runs, build?_buildWord hp hv, product]
    dsimp only
    by_cases same : v.major = x ∧ v.minor = y
    · rw [if_pos same, if_neg (by simp [same])]
    · rw [if_neg same, if_pos (by omega)]

/-- An old build of the engine in a banner that is not written with single blanks, and the text of its version. -/
theorem ofBanner_written_interbase :
    ofBanner "WI-V6.3.5.4926\t fIREBIRD\u00a01.5 " = .ok ⟨1, 5, 0, 0⟩ ∧
      ofBanner " fIREBIRD  6.3.5.4926" = .ok ⟨6, 3, 5, 4926⟩ := by
  have fits : Fits ⟨6, 3, 5, 4926⟩ := ⟨by decide, by decide, by decide, by decide⟩
  have named : IsProductName "fIREBIRD".toList := by decide
  have isPlatform : IsPlatform "WI".toList := ⟨by decide, by decide⟩
  have text : (text ⟨6, 3, 5, 4926⟩).toList = "6.3.5.4926".toList := by decide +kernel
  have product : pointed [1, 5] = "1.5".toList := by decide +kernel
  obtain ⟨alone, banner⟩ := ofBanner_written fits named
  constructor
  · refine banner _ 1 5 isPlatform (by decide) (by decide) _ ?_
    rw [buildWord, text, product]
    refine .word [] ?_ ?_ (.word ['\t', ' '] ?_ ?_ (.word ['\u00a0'] ?_ ?_ (.gap [' '] ?_))) <;> decide
  · refine alone _ ?_
    rw [text]
    refine .word [' '] ?_ ?_ (.word [' ', ' '] ?_ ?_ (.gap [] ?_)) <;> decide

end Version

end FirebirdSql
