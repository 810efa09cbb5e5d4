import FirebirdSql.Proofs.StoredName

/-!
The key of a hash index: what its expression comes to on a row, where the texts of the columns are joined and hashed.
Joined texts do not tell where one column ends and the next starts, so rows that differ may have one key.
-/

namespace FirebirdSql

namespace Identifier

/-- The identifier spells the name that it stores: between quotes, and each quote in it twice. -/
def SpellsStored (i : Identifier) : Prop := ofStored i.stored = i

instance (i : Identifier) : Decidable i.SpellsStored := inferInstanceAs (Decidable (_ = _))

theorem SpellsStored.text {i : Identifier} (h : i.SpellsStored) :
    i.text.toList = delimit (Text.replaceChar '"' ['"', '"'] i.stored.toList) := by
  have ht := congrArg (·.text.toList) h
  rw [ofStored, String.toList_ofList] at ht
  exact ht.symm

theorem SpellsStored.eq_of_stored {i j : Identifier} (hi : i.SpellsStored) (hj : j.SpellsStored)
    (h : i.stored = j.stored) : i = j := by rw [← hi, h, hj]

end Identifier

namespace HashKey

inductive Token where
  /-- A delimited identifier, by the name that it stores. -/
  | name (name : String)
  | symbol (c : Char)
  deriving DecidableEq, Repr

/-- Where the reading of an expression stands. A quote in a name closes it, unless another one follows. -/
inductive Place where
  | outside
  | inside (name : List Char)
  | closing (name : List Char)

def tokensFrom : Place → List Char → Option (List Token)
  | .outside, [] => some []
  | .inside _, [] => none
  | .closing name, [] => some [.name (.ofList name)]
  | .outside, c :: rest =>
    if c = '"' then tokensFrom (.inside []) rest
    else if Text.isBlank c then tokensFrom .outside rest
    else (tokensFrom .outside rest).map (.symbol c :: ·)
  | .inside name, c :: rest =>
    if c = '"' then tokensFrom (.closing name) rest else tokensFrom (.inside (name ++ [c])) rest
  | .closing name, c :: rest =>
    if c = '"' then tokensFrom (.inside (name ++ ['"'])) rest
    else if Text.isBlank c then (tokensFrom .outside rest).map (.name (.ofList name) :: ·)
    else (tokensFrom .outside rest).map (.name (.ofList name) :: .symbol c :: ·)

/-- The columns that are joined up to the closing parenthesis. -/
def operands? : List Token → Option (List String)
  | [.name name, .symbol ')'] => some [name]
  | .name name :: .symbol '|' :: .symbol '|' :: rest => (operands? rest).map (name :: ·)
  | _ => none

/-- The columns that an expression joins and hashes. -/
def columns? (source : String) : Option (List String) :=
  match tokensFrom .outside source.toList with
  | some (.symbol 'H' :: .symbol 'A' :: .symbol 'S' :: .symbol 'H' :: .symbol '(' :: rest) => operands? rest
  | _ => none

variable {κ : Type}

/-- The value of the expression on a row, which has a text in every column. -/
def eval? (hash : String → κ) (row : String → String) (source : String) : Option κ :=
  (columns? source).map fun columns => hash (.ofList (columns.flatMap fun column => (row column).toList))

/-! Reading the expression of a hash index -/

theorem tokensFrom_symbol {c : Char} (hq : c ≠ '"') (hb : Text.isBlank c = false) (rest : List Char) :
    tokensFrom .outside (c :: rest) = (tokensFrom .outside rest).map (.symbol c :: ·) := by
  rw [tokensFrom, if_neg hq, hb, if_neg Bool.false_ne_true]

theorem tokensFrom_closing (name rest : List Char) (h : rest.head? ≠ some '"') :
    tokensFrom (.closing name) rest = (tokensFrom .outside rest).map (.name (.ofList name) :: ·) := by
  cases rest with
  | nil => rfl
  | cons c rest =>
    have hc : c ≠ '"' := fun hc => h (congrArg some hc)
    rw [tokensFrom, tokensFrom, if_neg hc, if_neg hc]
    split
    · rfl
    · rw [Option.map_map]
      rfl

theorem tokensFrom_inside (before name rest : List Char) (h : rest.head? ≠ some '"') :
    tokensFrom (.inside before) (Text.replaceChar '"' ['"', '"'] name ++ '"' :: rest) =
      (tokensFrom .outside rest).map (.name (.ofList (before ++ name)) :: ·) := by
  unfold Text.replaceChar
  induction name generalizing before with
  | nil =>
    rw [List.append_nil]
    exact (if_pos rfl).trans (tokensFrom_closing before rest h)
  | cons c name ih =>
    rw [List.flatMap_cons, List.append_cons before c name, ← ih (before ++ [c])]
    by_cases hc : c = '"'
    · subst hc
      rfl
    · rw [if_neg hc]
      exact if_neg hc

theorem tokensFrom_identifier {i : Identifier} (hi : i.SpellsStored) (rest : List Char) (h : rest.head? ≠ some '"') :
    tokensFrom .outside (i.text.toList ++ rest) = (tokensFrom .outside rest).map (.name i.stored :: ·) := by
  have inside := tokensFrom_inside [] i.stored.toList rest h
  rw [List.nil_append, String.ofList_toList] at inside
  rw [hi.text, Identifier.delimit, List.cons_append, List.cons_append, List.append_assoc, tokensFrom, if_pos rfl]
  exact inside

theorem joined_read {identifiers : List Identifier} (hn : identifiers ≠ []) (hi : ∀ i ∈ identifiers, i.SpellsStored) :
    ∃ tokens, operands? tokens = some (identifiers.map (·.stored)) ∧
      tokensFrom .outside (Text.joinWith " || ".toList (identifiers.map (·.text.toList)) ++ [')']) = some tokens := by
  induction identifiers with
  | nil => exact absurd rfl hn
  | cons i identifiers ih =>
    have first := hi i List.mem_cons_self
    cases identifiers with
    | nil => exact ⟨[.name i.stored, .symbol ')'], rfl, tokensFrom_identifier first [')'] (by decide)⟩
    | cons j identifiers =>
      obtain ⟨tokens, columns, read⟩ := ih (by simp) fun k hk => hi k (List.mem_cons_of_mem i hk)
      refine ⟨.name i.stored :: .symbol '|' :: .symbol '|' :: tokens, ?_, ?_⟩
      · rw [operands?, columns]
        rfl
      · have separated (rest : List Char) : tokensFrom .outside (" || ".toList ++ rest) =
            (tokensFrom .outside rest).map fun tokens => .symbol '|' :: .symbol '|' :: tokens := by
          change tokensFrom .outside (' ' :: '|' :: '|' :: ' ' :: rest) = _
          rw [tokensFrom, if_neg (by decide), if_pos (by decide), tokensFrom_symbol (by decide) (by decide),
            tokensFrom_symbol (by decide) (by decide), tokensFrom, if_neg (by decide), if_pos (by decide), Option.map_map]
          rfl
        change tokensFrom .outside (i.text.toList ++ " || ".toList ++ Text.joinWith " || ".toList _ ++ [')']) = _
        rw [List.append_assoc, List.append_assoc, tokensFrom_identifier first _ (by simp), separated, read]
        rfl

theorem columns?_hashSource {identifiers : List Identifier} (hn : identifiers ≠ [])
    (hi : ∀ i ∈ identifiers, i.SpellsStored) :
    columns? (Statement.hashSource identifiers) = some (identifiers.map (·.stored)) := by
  obtain ⟨tokens, columns, read⟩ := joined_read hn hi
  have source : (Statement.hashSource identifiers).toList =
      'H' :: 'A' :: 'S' :: 'H' :: '(' :: (Text.joinWith " || ".toList (identifiers.map (·.text.toList)) ++ [')']) := by
    simp [Statement.hashSource, Text.joined, List.map_map, Function.comp_def]
  have head (c : Char) (hq : c ≠ '"') (hb : Text.isBlank c = false) {rest : List Char} {found : List Token}
      (h : tokensFrom .outside rest = some found) : tokensFrom .outside (c :: rest) = some (.symbol c :: found) := by
    rw [tokensFrom_symbol hq hb, h]
    rfl
  have hashed := head 'H' (by decide) (by decide) (head 'A' (by decide) (by decide) (head 'S' (by decide) (by decide)
    (head 'H' (by decide) (by decide) (head '(' (by decide) (by decide) read))))
  rw [columns?, source, hashed]
  exact columns

/-- The expression over the columns has a value on every row: the hash of their texts, joined. -/
theorem eval?_hashSource {hash : String → κ} {identifiers : List Identifier} (hn : identifiers ≠ [])
    (hi : ∀ i ∈ identifiers, i.SpellsStored) (row : String → String) :
    eval? hash row (Statement.hashSource identifiers) =
      some (hash (.ofList (identifiers.flatMap fun i => (row i.stored).toList))) := by
  rw [eval?, columns?_hashSource hn hi, Option.map_some, List.flatMap_map]

/-! Rows with one key -/

variable {identifiers : List Identifier} {row row' : String → String}

/-- The row that has so many letters in one column, and nothing in the others. -/
def lettersIn (column : String) (n : Nat) : String → String :=
  fun other => if other = column then .ofList (List.replicate n 'x') else ""

theorem flatMap_lettersIn (column : String) (n : Nat) (columns : List String) :
    columns.flatMap (fun other => (lettersIn column n other).toList) =
      List.replicate (columns.count column * n) 'x' := by
  induction columns with
  | nil => simp
  | cons other columns ih =>
    rw [List.flatMap_cons, ih, List.count_cons]
    by_cases h : other = column
    · rw [lettersIn, if_pos h, String.toList_ofList, List.replicate_append_replicate, h, beq_self_eq_true, if_pos rfl]
      congr 1
      rw [Nat.add_mul, Nat.one_mul, Nat.add_comm]
    · rw [lettersIn, if_neg h, beq_false_of_ne h, if_neg Bool.false_ne_true]
      rfl

/-- Texts that are repeated equally often are equal if what comes of it is. -/
theorem eq_of_flatten_replicate {α : Type} {n : Nat} (hn : n ≠ 0) {s t : List α}
    (h : (List.replicate n s).flatten = (List.replicate n t).flatten) : s = t := by
  have length : n * s.length = n * t.length := by
    have hl := congrArg List.length h
    simpa using hl
  obtain ⟨m, rfl⟩ := Nat.exists_eq_succ_of_ne_zero hn
  rw [List.replicate_succ, List.replicate_succ, List.flatten_cons, List.flatten_cons] at h
  exact (List.append_inj h (Nat.eq_of_mul_eq_mul_left (Nat.succ_pos m) length)).1

variable {e : Engine} {columns : List String}

def storedName (e : Engine) (column : String) : String := (Identifier.quote e column).stored

theorem eval?_columns {hash : String → κ} (hn : columns ≠ []) (hs : ∀ c ∈ columns, (Identifier.quote e c).SpellsStored)
    (row : String → String) :
    eval? hash row (e.hashSource columns) =
      some (hash (.ofList ((columns.map (storedName e)).flatMap fun name => (row name).toList))) := by
  have spells : ∀ i ∈ columns.map (Identifier.quote e), i.SpellsStored := by
    intro i hi
    obtain ⟨c, hc, rfl⟩ := List.mem_map.mp hi
    exact hs c hc
  rw [Engine.hashSource, eval?_hashSource (by simpa using hn) spells, List.flatMap_map, List.flatMap_map]
  rfl

theorem eval?_eq_iff {hash : String → κ} (hh : Function.Injective hash) (hn : columns ≠ [])
    (hs : ∀ c ∈ columns, (Identifier.quote e c).SpellsStored) (row row' : String → String) :
    eval? hash row (e.hashSource columns) = eval? hash row' (e.hashSource columns) ↔
      (columns.map (storedName e)).flatMap (fun name => (row name).toList) =
        (columns.map (storedName e)).flatMap fun name => (row' name).toList := by
  rw [eval?_columns hn hs, eval?_columns hn hs, Option.some_inj, hh.eq_iff, String.ofList_inj]

/-- Two columns can share out a text in different ways, so that rows that differ have one key. -/
theorem eval?_confuses (hash : String → κ) (hs : ∀ c ∈ columns, (Identifier.quote e c).SpellsStored) {c d : String}
    (hc : c ∈ columns) (hd : d ∈ columns) (hne : storedName e c ≠ storedName e d) :
    ∃ row row' : String → String,
      eval? hash row (e.hashSource columns) = eval? hash row' (e.hashSource columns) ∧
        row (storedName e c) ≠ row' (storedName e c) := by
  -- A column that is listed twice has its text twice in the key, so each row gets the other column's count of letters.
  let count (column : String) : Nat := (columns.map (storedName e)).count (storedName e column)
  refine ⟨lettersIn (storedName e c) (count d), lettersIn (storedName e d) (count c), ?_, fun same => ?_⟩
  · have hn := List.ne_nil_of_mem hc
    rw [eval?_columns hn hs, eval?_columns hn hs, flatMap_lettersIn, flatMap_lettersIn, Nat.mul_comm]
  · rw [lettersIn, lettersIn, if_pos rfl, if_neg hne] at same
    have empty : List.replicate (count d) 'x' = [] := String.ofList_eq_empty_iff.mp same
    have positive : 0 < count d := List.count_pos_iff.mpr (List.mem_map_of_mem hd)
    rw [List.replicate_eq_nil_iff] at empty
    omega

/-- One column, however often it is listed, tells rows apart. -/
theorem eval?_eq_iff_of_same {hash : String → κ} (hh : Function.Injective hash)
    (hs : ∀ c ∈ columns, (Identifier.quote e c).SpellsStored) {c : String} (hc : c ∈ columns)
    (h : ∀ d ∈ columns, storedName e d = storedName e c) (row row' : String → String) :
    eval? hash row (e.hashSource columns) = eval? hash row' (e.hashSource columns) ↔
      row (storedName e c) = row' (storedName e c) := by
  have hn := List.ne_nil_of_mem hc
  have same : columns.map (storedName e) = List.replicate columns.length (storedName e c) := by
    rw [List.eq_replicate_iff]
    refine ⟨List.length_map .., ?_⟩
    intro name hm
    obtain ⟨d, hd, rfl⟩ := List.mem_map.mp hm
    exact h d hd
  have joined (row : String → String) : (columns.map (storedName e)).flatMap (fun name => (row name).toList) =
      (List.replicate columns.length (row (storedName e c)).toList).flatten := by
    rw [same, List.flatMap_def, List.map_replicate]
  rw [eval?_eq_iff hh hn hs, joined, joined]
  constructor
  · exact fun texts => String.toList_injective (eq_of_flatten_replicate (by simpa using hn) texts)
  · exact fun texts => by rw [texts]

/-- Keys tell rows apart, by all their columns, just if the columns are one and the same. -/
theorem eval?_distinguishes_iff {hash : String → κ} (hh : Function.Injective hash) (hn : columns ≠ [])
    (hs : ∀ c ∈ columns, (Identifier.quote e c).SpellsStored) :
    (∀ row row' : String → String, eval? hash row (e.hashSource columns) = eval? hash row' (e.hashSource columns) ↔
        ∀ c ∈ columns, row (storedName e c) = row' (storedName e c)) ↔
      ∀ c ∈ columns, ∀ d ∈ columns, Identifier.quote e c = Identifier.quote e d := by
  constructor
  · intro h c hc d hd
    refine (hs c hc).eq_of_stored (hs d hd) (Decidable.byContradiction fun hne => ?_)
    obtain ⟨row, row', same, differ⟩ := eval?_confuses hash hs hc hd hne
    exact differ ((h row row').mp same c hc)
  · intro h row row'
    obtain ⟨c, hc⟩ := List.exists_mem_of_ne_nil columns hn
    have same : ∀ d ∈ columns, storedName e d = storedName e c := fun d hd => congrArg (·.stored) (h d hd c hc)
    rw [eval?_eq_iff_of_same hh hs hc same]
    constructor
    · intro texts d hd
      rwa [same d hd]
    · exact fun texts => texts c hc

namespace Sample

def engine : Engine := ⟨⟨3, 0, 0, 0⟩⟩

/-- The row of a title and a subtitle. -/
def book (title subtitle : String) : String → String := fun column => if column = "TITLE" then title else subtitle

end Sample

theorem eval?_distinguishes_spellings :
    (∀ c ∈ ["title", "TITLE"], (Identifier.quote Sample.engine c).SpellsStored) ∧
    ∀ row row' : String → String,
      eval? id row (Sample.engine.hashSource ["title", "TITLE"]) = eval? id row' (Sample.engine.hashSource ["title", "TITLE"]) ↔
        ∀ c ∈ ["title", "TITLE"], row (storedName Sample.engine c) = row' (storedName Sample.engine c) := by
  have spells : ∀ c ∈ ["title", "TITLE"], (Identifier.quote Sample.engine c).SpellsStored := by decide +kernel
  exact ⟨spells, (eval?_distinguishes_iff Function.injective_id (by simp) spells).mpr (by decide +kernel)⟩

/-- Two books whose titles and subtitles differ have one key. -/
theorem eval?_confuses_books :
    eval? id (Sample.book "ab" "c") (Sample.engine.hashSource ["title", "subtitle"]) = some "abc" ∧
    eval? id (Sample.book "a" "bc") (Sample.engine.hashSource ["title", "subtitle"]) = some "abc" ∧
    Sample.book "ab" "c" (storedName Sample.engine "title") ≠ Sample.book "a" "bc" (storedName Sample.engine "title") := by
  decide +kernel

end HashKey

end FirebirdSql
