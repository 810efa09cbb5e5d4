import FirebirdSql.Proofs.NameList
import FirebirdSql.Proofs.SequenceName
import FirebirdSql.Proofs.Utf8

/-!
Names that are derived from a table and columns. They are identifiers of the engine as they stand, with the whole digest in
them. The digest is that of all the letters one after another, so names that are cut, or whose parts begin with underscores,
may agree for different columns.
-/

namespace FirebirdSql

namespace Text

theorem length_upperForm_le (c : Char) : (upperForm c).length ≤ 3 := by
  unfold upperForm
  split
  · exact Nat.le_add_left 1 2
  unfold caseForm
  split
  · next form found =>
    have short : ∀ entry ∈ upperExpansions, entry.2.length ≤ 3 := by decide +kernel
    obtain ⟨before, after, entries, -⟩ := List.lookup_eq_some_iff.mp found
    rw [List.length_map]
    exact short (c.toNat, form) (entries ▸ List.mem_append_right _ List.mem_cons_self)
  split <;> exact Nat.le_add_left 1 2

end Text

namespace Digest

variable {parts others : List (List Char)} {length : Nat}

theorem length_sha256 (bs : List UInt8) : (sha256 bs).length = 32 := by
  simp [sha256, Chain.words, bytesOfNat]

theorem length_hexOfBytes (bs : List UInt8) : (Text.hexOfBytes bs).length = 2 * bs.length := by
  induction bs with
  | nil => rfl
  | cons b bs ih =>
    have parts : Text.hexOfBytes (b :: bs) = Text.hexByte b ++ Text.hexOfBytes bs := List.flatMap_cons
    rw [parts, List.length_append, ih, List.length_cons, Text.hexByte]
    simp only [List.length_cons, List.length_nil]
    omega

theorem length_ofNames (h : length ≤ 64) : (ofNames parts length).length = length := by
  rw [ofNames, List.length_take, length_hexOfBytes, length_sha256]
  exact Nat.min_eq_left h

theorem forall_ofNames {p : Char → Prop} (hex : ∀ n < 16, p (Text.hexDigit n)) :
    ∀ c ∈ ofNames parts length, p c :=
  fun c hc => Text.forall_hexOfBytes hex _ c (List.mem_of_mem_take hc)

theorem length_upper_ofNames (h : length ≤ 64) : (Text.upper (ofNames parts length)).length = length := by
  have hex : ∀ n < 16, (Text.upperForm (Text.hexDigit n)).length = 1 := by decide +kernel
  rw [Text.length_upper (forall_ofNames hex), length_ofNames h]

theorem underscore_notMem_upper_ofNames : '_' ∉ Text.upper (ofNames parts length) := by
  have hex : ∀ n < 16, '_' ∉ Text.upperForm (Text.hexDigit n) := by decide +kernel
  intro h
  obtain ⟨c, hc, h⟩ := List.mem_flatMap.mp h
  exact forall_ofNames (p := fun c => '_' ∉ Text.upperForm c) hex c hc h

/-- Digests that agree in upper case agree as they are. -/
theorem upper_ofNames_inj (same : Text.upper (ofNames parts length) = Text.upper (ofNames others length)) :
    ofNames parts length = ofNames others length := by
  have hex : ∀ n < 16, (Text.upperForm (Text.hexDigit n)).map Char.toLower = [Text.hexDigit n] := by decide +kernel
  have lowered (names : List (List Char)) :
      (Text.upper (ofNames names length)).map Char.toLower = ofNames names length := by
    rw [Text.upper, List.map_flatMap]
    exact (List.flatMap_congr (forall_ofNames hex)).trans (List.flatMap_singleton' _)
  rw [← lowered parts, same, lowered others]

/-- The digests of two lists of names agree only if the names come to the same bytes. -/
def Distinguishes (length : Nat) (parts others : List (List Char)) : Prop :=
  ofNames parts length = ofNames others length → parts.flatMap Text.Utf8.encode = others.flatMap Text.Utf8.encode

instance : Decidable (Distinguishes length parts others) := inferInstanceAs (Decidable (_ → _))

theorem encode_flatten (parts : List (List Char)) : Text.Utf8.encode parts.flatten = parts.flatMap Text.Utf8.encode := by
  induction parts with
  | nil => rfl
  | cons part parts ih =>
    rw [List.flatten_cons, List.flatMap_cons, ← ih]
    exact List.flatMap_append

theorem ofNames_congr (same : parts.flatten = others.flatten) : ofNames parts length = ofNames others length := by
  rw [ofNames, ofNames, ← encode_flatten, same, encode_flatten]

theorem Distinguishes.flatten_eq (h : Distinguishes length parts others)
    (same : ofNames parts length = ofNames others length) : parts.flatten = others.flatten := by
  have bytes := h same
  rw [← encode_flatten, ← encode_flatten] at bytes
  exact Text.Utf8.encode_injective bytes

end Digest

namespace Identifier

/-! What derived names are made of -/

/-- What stands for the table and the columns: all of both, or what fits of either. -/
def stem (limit : Nat) (table : List Char) (columns : List (List Char)) (suffix : List Char) : List Char :=
  let tail := Digest.ofNames (table :: columns) derivedDigestLength ++ suffix
  let columns := Text.joinWith ['_'] columns
  let share := (limit - (Text.Utf8.encode tail).length) / 2 - 1
  if limit < (table ++ '_' :: columns ++ '_' :: tail).length then table.take share ++ '_' :: columns.take share
  else table ++ '_' :: columns

/-- Whether a name may not begin so. -/
def Barred (c : Char) : Prop := c = '_' ∨ c.isDigit = true

instance : DecidablePred Barred := fun _ => inferInstanceAs (Decidable (_ ∨ _))

/-- The stem with a letter in front of what it may not begin with. -/
def opening : List Char → List Char
  | c :: s => if Barred c then 'D' :: c :: s else c :: s
  | [] => []

variable {limit : Nat} {table suffix rest : List Char} {columns : List (List Char)} {c : Char}

theorem mendHead_barred (h : Barred c) (rest : List Char) :
    mendHead limit (c :: rest) = 'D' :: (c :: rest).take (limit - 1) := if_pos h

theorem mendHead_free (h : ¬Barred c) (rest : List Char) : mendHead limit (c :: rest) = c :: rest := if_neg h

theorem stem_ne_nil : stem limit table columns suffix ≠ [] := by
  unfold stem
  dsimp only
  split <;> simp

/-- The stem leaves room for the digest, and for the suffix as well unless there is room for it in no name. -/
theorem length_stem (table : List Char) (columns : List (List Char)) (suffix : List Char) :
    (10 + suffix.length ≤ limit →
      (stem limit table columns suffix).length + 1 + derivedDigestLength + suffix.length ≤ limit) ∧
    (limit < 10 + suffix.length → stem limit table columns suffix = ['_']) := by
  have digest : (Digest.ofNames (table :: columns) derivedDigestLength).length = derivedDigestLength :=
    Digest.length_ofNames (by decide)
  have bytes := Text.Utf8.length_le_encode (Digest.ofNames (table :: columns) derivedDigestLength ++ suffix)
  unfold stem
  dsimp only
  generalize (Text.Utf8.encode (Digest.ofNames (table :: columns) derivedDigestLength ++ suffix)).length = count at bytes
  rw [List.length_append, digest] at bytes
  have eight : derivedDigestLength = 8 := rfl
  constructor
  · intro room
    split
    · simp only [List.length_append, List.length_cons, List.length_take]
      omega
    · next fits =>
      simp only [List.length_append, List.length_cons, digest] at fits ⊢
      omega
  · intro narrow
    have none : (limit - count) / 2 - 1 = 0 := by omega
    have long : limit < (table ++ '_' :: Text.joinWith ['_'] columns ++
        '_' :: (Digest.ofNames (table :: columns) derivedDigestLength ++ suffix)).length := by
      simp only [List.length_append, List.length_cons, digest]
      omega
    rw [if_pos long, none]
    rfl

theorem opening_barred (h : Barred c) (s : List Char) : opening (c :: s) = 'D' :: c :: s := if_pos h

theorem opening_free (h : ¬Barred c) (s : List Char) : opening (c :: s) = c :: s := if_neg h

theorem length_opening_le (s : List Char) : (opening s).length ≤ s.length + 1 := by
  cases s with
  | nil => exact Nat.zero_le _
  | cons c s =>
    by_cases barred : Barred c
    · exact (congrArg List.length (opening_barred barred s)).le
    · rw [opening_free barred]
      omega

/-- As much of the suffix as there is room for. -/
def keptSuffix (limit : Nat) (opening suffix : List Char) : List Char :=
  suffix.take (limit - (opening.length + 1 + derivedDigestLength))

/-- The opening leaves room for the digest. -/
theorem length_opening_digest (table : List Char) (columns : List (List Char)) (enough : 31 ≤ limit) (some : suffix ≠ []) :
    (opening (stem limit table columns suffix)).length + 1 + derivedDigestLength ≤ limit := by
  have positive := List.length_pos_of_ne_nil some
  have long := length_opening_le (stem limit table columns suffix)
  obtain ⟨roomy, narrow⟩ := length_stem table columns suffix
  by_cases room : 10 + suffix.length ≤ limit
  · have := roomy room
    omega
  · rw [narrow (by omega)]
    change 2 + 1 + 8 ≤ limit
    omega

/-- Where there is room for the suffix, its last character at most is lost. -/
theorem keptSuffix_eq (table : List Char) (columns : List (List Char)) (room : 10 + suffix.length ≤ limit) :
    keptSuffix limit (opening (stem limit table columns suffix)) suffix = suffix ∨
      keptSuffix limit (opening (stem limit table columns suffix)) suffix = suffix.dropLast := by
  have fits := (length_stem table columns suffix).1 room
  have long := length_opening_le (stem limit table columns suffix)
  unfold keptSuffix
  generalize (opening (stem limit table columns suffix)).length = count at long
  by_cases all : suffix.length ≤ limit - (count + 1 + derivedDigestLength)
  · exact .inl (List.take_of_length_le all)
  · have last : limit - (count + 1 + derivedDigestLength) = suffix.length - 1 := by omega
    exact .inr (by rw [last, List.dropLast_eq_take])

/-- With its head mended a name is cut to the limit again. -/
theorem mendHead_eq_take {s : List Char} (fits : (∃ c t, s = c :: t ∧ Barred c) ∨ (s ++ rest).length ≤ limit) (some : s ≠ [])
    (enough : 0 < limit) : mendHead limit (s ++ rest) = (opening s ++ rest).take limit := by
  obtain ⟨c, s, rfl⟩ := List.exists_cons_of_ne_nil some
  by_cases barred : Barred c
  · obtain ⟨limit, rfl⟩ := Nat.exists_eq_succ_of_ne_zero enough.ne'
    rw [List.cons_append, mendHead_barred barred, opening_barred barred]
    rfl
  · have short : ((c :: s) ++ rest).length ≤ limit := by
      rcases fits with ⟨d, t, start, other⟩ | short
      · exact absurd ((List.cons.inj start).1 ▸ other) barred
      · exact short
    rw [opening_free barred, List.take_of_length_le short, List.cons_append, mendHead_free barred]

/-- Before a whole digest, a name is cut in its suffix. -/
theorem take_append_digest {s digest : List Char} (width : digest.length = derivedDigestLength)
    (fits : s.length + 1 + derivedDigestLength ≤ limit) :
    (s ++ '_' :: (digest ++ suffix)).take limit = s ++ '_' :: (digest ++ keptSuffix limit s suffix) := by
  have length : (s ++ '_' :: digest).length = s.length + 1 + derivedDigestLength := by
    rw [List.length_append, List.length_cons, width]
    omega
  rw [← List.cons_append, ← List.append_assoc, List.take_append, List.take_of_length_le (by omega), length, keptSuffix,
    List.append_assoc, List.cons_append]

/-- A stem after which not all fits is an underscore. -/
theorem stem_barred_or_fits (limit : Nat) (table : List Char) (columns : List (List Char)) (suffix : List Char) :
    (∃ c t, stem limit table columns suffix = c :: t ∧ Barred c) ∨
      (stem limit table columns suffix ++
        '_' :: (Digest.ofNames (table :: columns) derivedDigestLength ++ suffix)).length ≤ limit := by
  have digest : (Digest.ofNames (table :: columns) derivedDigestLength).length = derivedDigestLength :=
    Digest.length_ofNames (by decide)
  obtain ⟨roomy, narrow⟩ := length_stem table columns suffix
  by_cases room : 10 + suffix.length ≤ limit
  · right
    have := roomy room
    simp only [List.length_append, List.length_cons, digest]
    omega
  · exact .inl ⟨'_', [], narrow (by omega), .inl rfl⟩

/-- A derived name has the whole digest in it, between the opening and what is left of the suffix. -/
theorem derivedChars_eq (enough : 31 ≤ limit) (some : suffix ≠ []) :
    derivedChars limit table columns suffix = Text.upper (opening (stem limit table columns suffix)) ++
      '_' :: (Text.upper (Digest.ofNames (table :: columns) derivedDigestLength) ++
        Text.upper (keptSuffix limit (opening (stem limit table columns suffix)) suffix)) := by
  have whole : derivedChars limit table columns suffix = Text.upper (mendHead limit
      (stem limit table columns suffix ++ '_' :: (Digest.ofNames (table :: columns) derivedDigestLength ++ suffix))) := by
    unfold derivedChars stem
    dsimp only
    split <;> rfl
  have digest : (Digest.ofNames (table :: columns) derivedDigestLength).length = derivedDigestLength :=
    Digest.length_ofNames (by decide)
  have fits := stem_barred_or_fits limit table columns suffix
  have room := length_opening_digest table columns enough some
  rw [whole, mendHead_eq_take fits stem_ne_nil (by omega), take_append_digest digest room, Text.upper_append,
    Text.upper_cons, Text.upper_append]
  rfl

/-! Which names agree -/

/-- From behind, a longer ending would put the underscore among the digits. -/
theorem digits_aligned {before before' digits digits' ending more : List Char} (width : digits.length = digits'.length)
    (free : '_' ∉ digits') (some : more ≠ []) (short : more.length ≤ digits'.length) :
    before ++ '_' :: (digits ++ ending) ≠ before' ++ '_' :: (digits' ++ (ending ++ more)) := by
  intro same
  have positive := List.length_pos_of_ne_nil some
  have parts : before' ++ '_' :: (digits' ++ (ending ++ more)) =
      (before' ++ '_' :: digits'.take (more.length - 1)) ++ (digits'.drop (more.length - 1) ++ (ending ++ more)) := by
    rw [List.append_assoc, List.cons_append, ← List.append_assoc (digits'.take _), List.take_append_drop]
  have tails := (List.append_inj' (same.trans parts) (by simp; omega)).2
  have nonempty : digits'.drop (more.length - 1) ≠ [] := by
    rw [Ne, List.drop_eq_nil_iff]
    omega
  obtain ⟨c, rest, start⟩ := List.exists_cons_of_ne_nil nonempty
  rw [start, List.cons_append, List.cons.injEq] at tails
  have underscore : '_' ∈ digits'.drop (more.length - 1) := by
    rw [start, tails.1]
    exact List.mem_cons_self
  exact free (List.mem_of_mem_drop underscore)

/-- What comes before the digits and the digits themselves are seen in a name, if what it keeps of the suffix is all of it or
all but its last character. -/
theorem digits_inj {before before' digits digits' suffix kept kept' : List Char} (width : digits.length = 8)
    (width' : digits'.length = 8) (free : '_' ∉ digits) (free' : '_' ∉ digits')
    (hk : kept = suffix ∨ kept = suffix.dropLast) (hk' : kept' = suffix ∨ kept' = suffix.dropLast)
    (same : before ++ '_' :: (digits ++ Text.upper kept) = before' ++ '_' :: (digits' ++ Text.upper kept')) :
    before = before' ∧ digits = digits' := by
  have together (ending : List Char)
      (same : before ++ '_' :: (digits ++ ending) = before' ++ '_' :: (digits' ++ ending)) :
      before = before' ∧ digits = digits' := by
    obtain ⟨front, back⟩ := List.append_inj' same (by simp [width, width'])
    exact ⟨front, List.append_cancel_right (List.cons.inj back).2⟩
  rcases List.eq_nil_or_concat suffix with rfl | ⟨start, last, rfl⟩
  · have none : kept = [] ∧ kept' = [] := ⟨hk.elim id id, hk'.elim id id⟩
    rw [none.1, none.2] at same
    exact together _ same
  · rw [List.concat_eq_append, List.dropLast_concat] at hk hk'
    have raised : Text.upper (start ++ [last]) = Text.upper start ++ Text.upperForm last := by
      rw [Text.upper_append, Text.upper_cons, Text.upper_nil, List.append_nil]
    have some := Text.upperForm_ne_nil last
    have short := Text.length_upperForm_le last
    rcases hk with rfl | rfl <;> rcases hk' with rfl | rfl
    · exact together _ same
    · rw [raised] at same
      exact absurd same.symm (digits_aligned (by omega) free some (by omega))
    · rw [raised] at same
      exact absurd same (digits_aligned (by omega) free' some (by omega))
    · exact together _ same

theorem forall_stem {p : Char → Prop} (underscore : p '_') (ht : ∀ c ∈ table, p c)
    (hc : ∀ column ∈ columns, ∀ c ∈ column, p c) : ∀ c ∈ stem limit table columns suffix, p c := by
  have joined := forall_joinWith (List.forall_mem_singleton.mpr underscore) hc
  have between {s t : List Char} (h : ∀ c ∈ s, p c) (h' : ∀ c ∈ t, p c) : ∀ c ∈ s ++ '_' :: t, p c :=
    List.forall_mem_append.mpr ⟨h, List.forall_mem_cons.mpr ⟨underscore, h'⟩⟩
  unfold stem
  dsimp only
  split
  · exact between (fun c hm => ht c (List.mem_of_mem_take hm)) fun c hm => joined c (List.mem_of_mem_take hm)
  · exact between ht joined

theorem forall_opening {p : Char → Prop} (letter : p 'D') {s : List Char} (h : ∀ c ∈ s, p c) : ∀ c ∈ opening s, p c := by
  cases s with
  | nil => exact h
  | cons c s =>
    by_cases barred : Barred c
    · rw [opening_barred barred]
      exact List.forall_mem_cons.mpr ⟨letter, h⟩
    · rw [opening_free barred]
      exact h

/-- Names in upper case that are told apart by their digests are derived alike just if their letters and their openings are
the same. -/
theorem derivedChars_eq_iff {other : List Char} {others : List (List Char)} (enough : 31 ≤ limit) (some : suffix ≠ [])
    (ht : Text.Raised table) (hc : ∀ column ∈ columns, Text.Raised column) (ht' : Text.Raised other)
    (hc' : ∀ column ∈ others, Text.Raised column)
    (told : Digest.Distinguishes derivedDigestLength (table :: columns) (other :: others)) :
    derivedChars limit table columns suffix = derivedChars limit other others suffix ↔
      (table :: columns).flatten = (other :: others).flatten ∧
        opening (stem limit table columns suffix) = opening (stem limit other others suffix) := by
  have lasts {table : List Char} {columns : List (List Char)} (ht : Text.Raised table)
      (hc : ∀ column ∈ columns, Text.Raised column) : Text.Raised (opening (stem limit table columns suffix)) :=
    forall_opening (p := fun c => Text.upperForm c = [c]) rfl (forall_stem rfl ht hc)
  rw [derivedChars_eq enough some, derivedChars_eq enough some, (lasts ht hc).upper_eq, (lasts ht' hc').upper_eq]
  constructor
  · intro same
    have kept : ∃ s : List Char,
        (keptSuffix limit (opening (stem limit table columns suffix)) suffix = s ∨
          keptSuffix limit (opening (stem limit table columns suffix)) suffix = s.dropLast) ∧
        (keptSuffix limit (opening (stem limit other others suffix)) suffix = s ∨
          keptSuffix limit (opening (stem limit other others suffix)) suffix = s.dropLast) := by
      by_cases room : 10 + suffix.length ≤ limit
      · exact ⟨suffix, keptSuffix_eq _ _ room, keptSuffix_eq _ _ room⟩
      · have narrow : limit < 10 + suffix.length := by omega
        rw [(length_stem ..).2 narrow, (length_stem ..).2 narrow]
        exact ⟨_, .inl rfl, .inl rfl⟩
    obtain ⟨s, hk, hk'⟩ := kept
    obtain ⟨openings, digits⟩ := digits_inj (Digest.length_upper_ofNames (by decide))
      (Digest.length_upper_ofNames (by decide))
      Digest.underscore_notMem_upper_ofNames Digest.underscore_notMem_upper_ofNames hk hk' same
    exact ⟨told.flatten_eq (Digest.upper_ofNames_inj digits), openings⟩
  · rintro ⟨letters, openings⟩
    rw [openings, Digest.ofNames_congr letters]

/-! Names that are not cut -/

theorem underscore_joinWith (part : List Char) (parts : List (List Char)) :
    '_' :: Text.joinWith ['_'] (part :: parts) = (part :: parts).flatMap ('_' :: ·) := by
  rw [Text.joinWith_cons]
  rfl

theorem length_flatMap_underscore (parts : List (List Char)) :
    (parts.flatMap ('_' :: ·)).length = parts.flatten.length + parts.length := by
  induction parts with
  | nil => rfl
  | cons part parts ih =>
    rw [List.flatMap_cons, List.flatten_cons, List.length_append, List.length_append, ih, List.length_cons,
      List.length_cons]
    omega

/-- The letters of a text with underscores tell how many parts there are. -/
theorem length_eq_of_underscored {first first' : List Char} {parts parts' : List (List Char)}
    (spelled : first ++ parts.flatMap ('_' :: ·) = first' ++ parts'.flatMap ('_' :: ·))
    (letters : first ++ parts.flatten = first' ++ parts'.flatten) : parts.length = parts'.length := by
  have long := congrArg List.length spelled
  have same := congrArg List.length letters
  rw [List.length_append, List.length_append, length_flatMap_underscore, length_flatMap_underscore] at long
  rw [List.length_append, List.length_append] at same
  omega

theorem count_flatMap_underscore (parts : List (List Char)) :
    (parts.flatMap ('_' :: ·)).count 'D' = parts.flatten.count 'D' := by
  induction parts with
  | nil => rfl
  | cons part parts ih =>
    have other : ('_' :: part).count 'D' = part.count 'D' := List.count_cons_of_ne (by decide)
    rw [List.flatMap_cons, List.flatten_cons, List.count_append, List.count_append, ih, other]

theorem head?_flatten_ne {parts : List (List Char)} (h : ∀ part ∈ parts, part.head? ≠ some '_') :
    parts.flatten.head? ≠ some '_' := by
  induction parts with
  | nil => exact nofun
  | cons part parts ih =>
    obtain ⟨first, others⟩ := List.forall_mem_cons.mp h
    cases part with
    | nil => exact ih others
    | cons c part => exact first

/-- A longer part would go on with the underscore that comes next, which is no letter that comes next. -/
theorem eq_nil_of_underscore {more after after' next next' : List Char} (spelled : '_' :: after = more ++ after')
    (letters : next = more ++ next') (head : next.head? ≠ some '_') : more = [] := by
  cases more with
  | nil => rfl
  | cons c more =>
    obtain rfl := (List.cons.inj spelled).1
    rw [letters] at head
    exact absurd rfl head

/-- Parts that do not begin with an underscore are told apart by where the underscores between them stand, if their letters
are known. -/
theorem underscored_inj {first first' : List Char} {parts parts' : List (List Char)}
    (free : ∀ part ∈ parts, part.head? ≠ some '_') (free' : ∀ part ∈ parts', part.head? ≠ some '_')
    (spelled : first ++ parts.flatMap ('_' :: ·) = first' ++ parts'.flatMap ('_' :: ·))
    (letters : first ++ parts.flatten = first' ++ parts'.flatten) : first = first' ∧ parts = parts' := by
  have sizes := length_eq_of_underscored spelled letters
  induction parts generalizing first first' parts' with
  | nil =>
    obtain rfl := List.length_eq_zero_iff.mp sizes.symm
    exact ⟨List.append_cancel_right letters, rfl⟩
  | cons part parts ih =>
    cases parts' with
    | nil => cases sizes
    | cons part' parts' =>
      rw [List.flatMap_cons, List.flatMap_cons, List.cons_append, List.cons_append] at spelled
      have same : first = first' := by
        rcases List.append_eq_append_iff.mp spelled with ⟨more, longer, after⟩ | ⟨more, longer, after⟩
        · rw [longer, List.append_assoc] at letters
          rw [longer, eq_nil_of_underscore after (List.append_cancel_left letters) (head?_flatten_ne free), List.append_nil]
        · rw [longer, List.append_assoc] at letters
          rw [longer, eq_nil_of_underscore after (List.append_cancel_left letters).symm (head?_flatten_ne free'),
            List.append_nil]
      subst same
      obtain ⟨rfl, rfl⟩ := ih (List.forall_mem_cons.mp free).2 (List.forall_mem_cons.mp free').2
        (List.cons.inj (List.append_cancel_left spelled)).2 (List.append_cancel_left letters) (Nat.succ.inj sizes)
      exact ⟨rfl, rfl⟩

/-- A letter that was put in front is seen where the number of such letters is known. -/
theorem opening_inj {s t : List Char} (count : s.count 'D' = t.count 'D') (same : opening s = opening t) : s = t := by
  have cases (s : List Char) : opening s = s ∨ opening s = 'D' :: s := by
    cases s with
    | nil => exact .inl rfl
    | cons c s => exact (em (Barred c)).elim (fun h => .inr (opening_barred h s)) fun h => .inl (opening_free h s)
  have counts := congrArg (List.count 'D') same
  rcases cases s with hs | hs <;> rcases cases t with ht | ht
  · rwa [hs, ht] at same
  · rw [hs, ht, List.count_cons_self] at counts
    omega
  · rw [hs, ht, List.count_cons_self] at counts
    omega
  · rw [hs, ht] at same
    exact (List.cons.inj same).2

/-- All of the table, the columns, the digest and the suffix fit. -/
def Fits (limit : Nat) (table : List Char) (columns : List (List Char)) (suffix : List Char) : Prop :=
  table.length + (Text.joinWith ['_'] columns).length + suffix.length + 10 ≤ limit

instance : Decidable (Fits limit table columns suffix) := inferInstanceAs (Decidable (_ ≤ _))

theorem Fits.stem_eq (h : Fits limit table columns suffix) :
    stem limit table columns suffix = table ++ '_' :: Text.joinWith ['_'] columns := by
  have digest : (Digest.ofNames (table :: columns) derivedDigestLength).length = 8 := Digest.length_ofNames (by decide)
  have short : ¬limit < (table ++ '_' :: Text.joinWith ['_'] columns ++
      '_' :: (Digest.ofNames (table :: columns) derivedDigestLength ++ suffix)).length := by
    unfold Fits at h
    simp only [List.length_append, List.length_cons, digest]
    omega
  exact if_neg short

/-- Where all fits, openings and letters determine the table and the columns, unless a column begins with an underscore. -/
theorem Fits.opening_inj {other : List Char} {others : List (List Char)} (h : Fits limit table columns suffix)
    (h' : Fits limit other others suffix) (nonempty : columns ≠ []) (nonempty' : others ≠ [])
    (free : ∀ column ∈ columns, column.head? ≠ some '_') (free' : ∀ column ∈ others, column.head? ≠ some '_')
    (letters : (table :: columns).flatten = (other :: others).flatten)
    (openings : opening (stem limit table columns suffix) = opening (stem limit other others suffix)) :
    table = other ∧ columns = others := by
  obtain ⟨column, columns, rfl⟩ := List.exists_cons_of_ne_nil nonempty
  obtain ⟨column', others, rfl⟩ := List.exists_cons_of_ne_nil nonempty'
  rw [h.stem_eq, h'.stem_eq, underscore_joinWith, underscore_joinWith] at openings
  have count : (table ++ (column :: columns).flatMap ('_' :: ·)).count 'D' =
      (other ++ (column' :: others).flatMap ('_' :: ·)).count 'D' := by
    rw [List.count_append, List.count_append, count_flatMap_underscore, count_flatMap_underscore, ← List.count_append,
      ← List.count_append]
    exact congrArg (List.count 'D') letters
  exact underscored_inj free free' (Identifier.opening_inj count openings) letters

/-! Names of a table and columns -/

/-- The names that a derived name is made of. -/
def parts (table : String) (columns : List String) : List (List Char) := table.toList :: columns.map String.toList

/-- What the name of an index or constraint shows of the table and the columns. -/
def shown (e : Engine) (table : String) (columns : List String) (suffix : String) : List Char :=
  opening (stem e.identifierLimit table.toList (columns.map String.toList) suffix.toList)

/-- Names in upper case that their digests tell apart are derived alike just if they have the same letters and show the same.
Where all is shown, so that nothing is cut, that is only so for a column that begins with an underscore. -/
theorem derivedName_eq_iff (e : Engine) (table other : String) (columns others : List String) {suffix : String}
    (some : suffix ≠ "")
    (raised : ∀ part ∈ parts table columns, Text.Raised part) (raised' : ∀ part ∈ parts other others, Text.Raised part)
    (told : Digest.Distinguishes derivedDigestLength (parts table columns) (parts other others)) :
    (derivedName e table columns suffix = derivedName e other others suffix ↔
      (parts table columns).flatten = (parts other others).flatten ∧
        shown e table columns suffix = shown e other others suffix) ∧
    (Fits e.identifierLimit table.toList (columns.map String.toList) suffix.toList →
      Fits e.identifierLimit other.toList (others.map String.toList) suffix.toList → columns ≠ [] → others ≠ [] →
      (∀ column ∈ columns ++ others, column.toList.head? ≠ .some '_') →
      derivedName e table columns suffix = derivedName e other others suffix → table = other ∧ columns = others) := by
  obtain ⟨ht, hc⟩ := List.forall_mem_cons.mp raised
  obtain ⟨ht', hc'⟩ := List.forall_mem_cons.mp raised'
  have nonempty : suffix.toList ≠ [] := fun none => some (String.toList_injective none)
  have alike : derivedName e table columns suffix = derivedName e other others suffix ↔
      (parts table columns).flatten = (parts other others).flatten ∧
        shown e table columns suffix = shown e other others suffix :=
    String.ofList_inj.trans (derivedChars_eq_iff e.identifierLimit_ge nonempty ht hc ht' hc' told)
  refine ⟨alike, fun fits fits' several several' free same => ?_⟩
  obtain ⟨letters, openings⟩ := alike.mp same
  obtain ⟨free, free'⟩ := List.forall_mem_append.mp free
  obtain ⟨tables, columns⟩ := fits.opening_inj fits' (mt List.map_eq_nil_iff.mp several) (mt List.map_eq_nil_iff.mp several')
    (List.forall_mem_map.mpr free) (List.forall_mem_map.mpr free') letters openings
  exact ⟨String.toList_injective tables, List.map_injective_iff.mpr (fun _ _ => String.toList_injective) columns⟩

/-- Columns in another order have other letters, and columns that are divided elsewhere are seen to be. -/
theorem derivedName_ne_loans :
    let e : Engine := ⟨⟨2, 5, 9, 0⟩⟩
    derivedName e "LOAN" ["BOOK", "DUE"] "_idx" ≠ derivedName e "LOAN" ["DUE", "BOOK"] "_idx" ∧
      derivedName e "LOAN" ["NOW", "HERE"] "_idx" ≠ derivedName e "LOAN" ["NO", "WHERE"] "_idx" := by
  intro e
  refine ⟨fun same => ?_, fun same => ?_⟩
  · have alike := (derivedName_eq_iff e "LOAN" "LOAN" ["BOOK", "DUE"] ["DUE", "BOOK"] (by decide) (by decide +kernel)
      (by decide +kernel) (by decide +kernel)).1.mp same
    exact absurd alike.1 (by decide)
  · have divided := (derivedName_eq_iff e "LOAN" "LOAN" ["NOW", "HERE"] ["NO", "WHERE"] (by decide) (by decide +kernel)
      (by decide +kernel) (by decide +kernel)).2 (by decide +kernel)
      (by decide +kernel) (by decide) (by decide) (by decide) same
    exact absurd divided.2 (by decide)

/-- Columns that have the same letters get one name if they are cut before they differ, or if one begins with an
underscore. -/
theorem derivedName_confuses_columns :
    let e : Engine := ⟨⟨2, 5, 9, 0⟩⟩
    let nowHere := parts "INVENTORY_LOCATION" ["ITEM_IS_NOW", "HERE"]
    let noWhere := parts "INVENTORY_LOCATION" ["ITEM_IS_NO", "WHERE"]
    (∀ part ∈ nowHere ++ noWhere, Text.Raised part) ∧ Digest.Distinguishes derivedDigestLength nowHere noWhere ∧
      nowHere ≠ noWhere ∧
      derivedName e "INVENTORY_LOCATION" ["ITEM_IS_NOW", "HERE"] "_idx" = "INVENTOR_ITEM_IS__E9E9D957_IDX" ∧
      derivedName e "INVENTORY_LOCATION" ["ITEM_IS_NO", "WHERE"] "_idx" = "INVENTOR_ITEM_IS__E9E9D957_IDX" ∧
      derivedName e "A_" ["B"] "_idx" = derivedName e "A" ["_B"] "_idx" := by
  decide +kernel

/-- What the names of indexes and constraints end in. -/
def suffixes : List String := ["_fk", "_uniq", "_idx", "_pk", "_check"]

theorem suffixes_plain : ∀ suffix ∈ suffixes,
    2 ≤ suffix.toList.length ∧ suffix.toList.length ≤ 6 ∧ ∀ c ∈ suffix.toList, c.toNat < 128 ∧ c ≠ '"' := by
  have all : ∀ suffix ∈ suffixes, 2 ≤ suffix.toList.length ∧ suffix.toList.length ≤ 6 ∧
      suffix.toList.all (fun c => decide (c.toNat < 128 ∧ c ≠ '"')) = true := by
    decide
  intro suffix listed
  obtain ⟨least, most, plain⟩ := all suffix listed
  exact ⟨least, most, fun c hc => of_decide_eq_true (List.all_eq_true.mp plain c hc)⟩

/-- The name is an identifier of the engine as it stands, and the digest is seen in it. -/
structure Usable (e : Engine) (digest : List Char) (name : String) : Prop where
  short : name.length ≤ e.identifierLimit
  head : ∃ c rest, name.toList = c :: rest ∧ ¬Barred c
  digest : digest <:+: name.toList
  quoted : quote e name = ofCatalogName name

section Usable

variable {e : Engine} {table suffix : String} {columns : List String}

/-- A letter in front takes the place of what may not stand there, also in upper case. -/
theorem head_upper_opening {s : List Char} (ascii : ∀ c ∈ s, c.toNat < 128) (some : s ≠ []) :
    ∃ c rest, Text.upper (opening s) = c :: rest ∧ ¬Barred c := by
  have all : ∀ n : Fin 128, ¬Barred (Char.ofNat n) → ¬Barred (Char.ofNat n).toUpper := by decide
  obtain ⟨c, s, rfl⟩ := List.exists_cons_of_ne_nil some
  by_cases barred : Barred c
  · rw [opening_barred barred]
    exact ⟨'D', _, rfl, by decide⟩
  · have code := ascii c List.mem_cons_self
    have single : Text.upperForm c = [c.toUpper] := if_pos code
    rw [opening_free barred, Text.upper_cons, single]
    exact ⟨c.toUpper, _, rfl, Text.forall_ascii (p := fun c => ¬Barred c → ¬Barred c.toUpper) all code barred⟩

theorem length_upper_opening {s : List Char} (ascii : ∀ c ∈ s, c.toNat < 128) :
    (Text.upper (opening s)).length = (opening s).length := by
  rw [Text.upper_ascii (forall_opening (p := fun c => c.toNat < 128) (by decide) ascii), List.length_map]

theorem quote_of_raised {name : String} (raised : Text.Raised name.toList) (short : name.toList.length ≤ e.identifierLimit)
    (plain : isDelimited name.toList = false) : quote e name = ofCatalogName name := by
  rw [quote, quoteChars, plain, raised.upper_eq, cut, if_pos short, raised.upper_eq]
  rfl

theorem not_isDelimited_append {start finish : List Char} (some : finish ≠ []) (free : '"' ∉ finish) :
    isDelimited (start ++ finish) = false := by
  have last : (start ++ finish).getLast? ≠ .some '"' := by
    rw [List.getLast?_append_of_ne_nil _ some]
    exact fun last => free (List.mem_of_getLast? last)
  rw [isDelimited, beq_false_of_ne last, Bool.and_false]

/-- What is left of a suffix ends the name with no quote, and fits. -/
theorem upper_keptSuffix (enough : 31 ≤ limit) (hs : suffix ∈ suffixes) (table : List Char) (columns : List (List Char)) :
    let front := opening (stem limit table columns suffix.toList)
    let ending := Text.upper (keptSuffix limit front suffix.toList)
    ending ≠ [] ∧ '"' ∉ ending ∧ ending.length ≤ limit - (front.length + 1 + derivedDigestLength) := by
  obtain ⟨least, most, plain⟩ := suffixes_plain suffix hs
  have room : 10 + suffix.toList.length ≤ limit := by omega
  have kept := keptSuffix_eq table columns room
  have within := List.length_take_le (limit - ((opening (stem limit table columns suffix.toList)).length + 1 +
    derivedDigestLength)) suffix.toList
  change (keptSuffix limit (opening (stem limit table columns suffix.toList)) suffix.toList).length ≤ _ at within
  intro front ending
  have part : ∀ c ∈ keptSuffix limit front suffix.toList, c.toNat < 128 ∧ c ≠ '"' :=
    fun c hc => plain c (List.mem_of_mem_take hc)
  have raised : ending = (keptSuffix limit front suffix.toList).map Char.toUpper :=
    Text.upper_ascii fun c hc => (part c hc).1
  refine ⟨?_, fun quote => (part _ (Text.mem_upper_quote.mp quote)).2 rfl, ?_⟩
  · have long : suffix.toList.length - 1 ≤ (keptSuffix limit front suffix.toList).length := by
      rcases kept with all | last
      · exact (Nat.sub_le ..).trans (congrArg List.length all).ge
      · exact ((congrArg List.length last).trans List.length_dropLast).ge
    rw [raised, Ne, List.map_eq_nil_iff, ← List.length_eq_zero_iff]
    omega
  · rwa [raised, List.length_map]

/-- Derived names are identifiers of the engine whatever ASCII names they are made of, with the eight digits in upper
case. -/
theorem derivedName_usable (e : Engine) (ht : ∀ c ∈ table.toList, c.toNat < 128)
    (hc : ∀ column ∈ columns, ∀ c ∈ column.toList, c.toNat < 128) (hs : suffix ∈ suffixes) :
    (Text.upper (Digest.ofNames (parts table columns) derivedDigestLength)).length = 8 ∧
      Usable e (Text.upper (Digest.ofNames (parts table columns) derivedDigestLength))
        (derivedName e table columns suffix) := by
  have enough := e.identifierLimit_ge
  have nonempty : suffix.toList ≠ [] := List.length_pos_iff.mp (by have := (suffixes_plain suffix hs).1; omega)
  have digits : (Text.upper (Digest.ofNames (parts table columns) derivedDigestLength)).length = 8 :=
    Digest.length_upper_ofNames (by decide)
  have ascii : ∀ c ∈ stem e.identifierLimit table.toList (columns.map String.toList) suffix.toList, c.toNat < 128 :=
    forall_stem (by decide) ht (List.forall_mem_map.mpr hc)
  obtain ⟨c, rest, start, free⟩ := head_upper_opening ascii stem_ne_nil
  obtain ⟨some, unquoted, fits⟩ := upper_keptSuffix enough hs table.toList (columns.map String.toList)
  have room := length_opening_digest table.toList (columns.map String.toList) enough nonempty
  have width := length_upper_opening ascii
  have letters : (derivedName e table columns suffix).toList = _ ++ '_' :: (Text.upper (Digest.ofNames (parts table columns)
      derivedDigestLength) ++ _) := String.toList_ofList.trans (derivedChars_eq enough nonempty)
  have raised : Text.Raised (derivedName e table columns suffix).toList := by
    rw [derivedName, String.toList_ofList, derivedChars]
    exact Text.raised_upper _
  have short : (derivedName e table columns suffix).toList.length ≤ e.identifierLimit := by
    have eight : derivedDigestLength = 8 := rfl
    rw [letters, List.length_append, List.length_cons, List.length_append, width, digits]
    omega
  refine ⟨digits, ?_, ?_, ?_, ?_⟩
  · rwa [← String.length_toList]
  · exact ⟨c, _, letters.trans (congrArg (· ++ _) start), free⟩
  · rw [letters, List.append_cons, ← List.append_assoc]
    exact List.infix_append ..
  · refine quote_of_raised raised short ?_
    rw [letters, ← List.cons_append, ← List.append_assoc]
    exact not_isDelimited_append some unquoted

/-- A name of each kind: cut, and with a letter in front that takes the place of the last one. -/
theorem derivedName_usable_loan :
    let e : Engine := ⟨⟨2, 5, 9, 0⟩⟩
    Usable e (Text.upper (Digest.ofNames (parts "2nd_loan_of" ["book_title"]) derivedDigestLength))
        (derivedName e "2nd_loan_of" ["book_title"] "_check") ∧
      Usable e (Text.upper (Digest.ofNames (parts "" []) derivedDigestLength)) (derivedName e "" [] "_fk") := by
  intro e
  have ascii {name : String} (all : name.toList.all (fun c => decide (c.toNat < 128)) = true) :
      ∀ c ∈ name.toList, c.toNat < 128 :=
    fun c hc => of_decide_eq_true (List.all_eq_true.mp all c hc)
  exact ⟨(derivedName_usable e (ascii (by decide)) (List.forall_mem_singleton.mpr (ascii (by decide))) (by decide)).2,
    (derivedName_usable e (ascii (by decide)) (List.forall_mem_nil _) (by decide)).2⟩

end Usable

end Identifier

end FirebirdSql
