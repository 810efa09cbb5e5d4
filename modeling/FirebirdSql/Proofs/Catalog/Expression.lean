import FirebirdSql.Proofs.Catalog.Sharing
import FirebirdSql.Proofs.UpperCase
import Mathlib.Data.List.Basic
import Mathlib.Logic.Function.Iterate

/-!
The forms in which an engine may keep the expression of a hash index: in other letters, with other blanks, in further
parentheses, and after the keywords of its clause. All of them have one normal form, so the index is found again.
-/

namespace FirebirdSql

namespace Text

theorem isBlank_toLower (c : Char) : isBlank c.toLower = isBlank c := by
  by_cases ascii : c.toNat < 128
  · have all : ∀ n : Fin 128, isBlank (Char.ofNat n).toLower = isBlank (Char.ofNat n) := by decide
    exact forall_ascii (p := fun c => isBlank c.toLower = isBlank c) all ascii
  · rw [toLower_of_beyond (by omega)]

/-- The case of letters does not decide which characters are blanks. -/
theorem sameAsciiLetters_filter {s t : List Char} (h : sameAsciiLetters s t = true) :
    sameAsciiLetters (s.filter (!isBlank ·)) (t.filter (!isBlank ·)) = true := by
  have lowered (s : List Char) :
      (s.filter (!isBlank ·)).map Char.toLower = (s.map Char.toLower).filter (!isBlank ·) := by
    rw [List.filter_map]
    refine congrArg _ (List.filter_congr fun c _ => ?_)
    rw [Function.comp, isBlank_toLower]
  rw [sameAsciiLetters, beq_iff_eq, lowered, lowered, beq_iff_eq.mp h]

/-- Only blanks are cut off. -/
theorem filter_trim (s : List Char) : (trim s).filter (!isBlank ·) = s.filter (!isBlank ·) := by
  have start (s : List Char) : (trimStart s).filter (!isBlank ·) = s.filter (!isBlank ·) := by
    induction s with
    | nil => rfl
    | cons c s ih =>
      cases blank : isBlank c with
      | true => simpa [trimStart, blank] using ih
      | false => rw [trimStart_of_head blank]
  rw [trim, trimEnd, List.filter_reverse, ← trimStart, start, List.filter_reverse, List.reverse_reverse, start]

end Text

namespace Catalog.Expression

/-! Parentheses around the whole -/

def wrap (s : List Char) : List Char := '(' :: s ++ [')']

/-- There are no parentheses in the text. -/
def Free (s : List Char) : Prop := ∀ c ∈ s, c ≠ '(' ∧ c ≠ ')'

instance (s : List Char) : Decidable (Free s) := List.decidableBAll _ s

theorem balancedFrom_of_free {depth : Nat} {s : List Char} (h : Free s) (t : List Char) :
    balancedFrom depth (s ++ t) = balancedFrom depth t := by
  induction s with
  | nil => rfl
  | cons c s ih =>
    obtain ⟨opens, closes⟩ := h c List.mem_cons_self
    rw [List.cons_append, balancedFrom.eq_def]
    dsimp only
    rw [if_neg opens, if_neg closes]
    exact ih fun d hd => h d (List.mem_cons_of_mem c hd)

theorem balancedFrom_append {depth : Nat} {s : List Char} (h : balancedFrom depth s = true) (more : Nat)
    (t : List Char) : balancedFrom (more + depth) (s ++ t) = balancedFrom more t := by
  induction s generalizing depth with
  | nil =>
    obtain rfl : depth = 0 := beq_iff_eq.mp h
    rfl
  | cons c s ih =>
    rw [balancedFrom.eq_def] at h
    rw [List.cons_append, balancedFrom.eq_def]
    dsimp only at h ⊢
    split at h
    · next opens =>
      rw [if_pos opens]
      exact ih h
    · next opens =>
      rw [if_neg opens]
      split at h
      · next closes =>
        rw [if_pos closes]
        cases depth with
        | zero => cases h
        | succ depth => exact ih h
      · next closes =>
        rw [if_neg closes]
        exact ih h

theorem balanced_wrap {s : List Char} (h : balanced s = true) : balanced (wrap s) = true :=
  balancedFrom_append h 1 [')']

theorem unwrap?_eq_some_iff {s t : List Char} : unwrap? s = some t ↔ s = wrap t ∧ balanced t = true := by
  constructor
  · intro h
    unfold unwrap? at h
    split at h
    · next rest =>
      split at h
      · next around =>
        obtain rfl := Option.some.inj h
        have whole := List.dropLast_append_getLast? ')' around.1
        exact ⟨congrArg ('(' :: ·) whole.symm, around.2⟩
      · cases h
    · cases h
  · rintro ⟨rfl, inside⟩
    simp [unwrap?, wrap, inside]

theorem strip_of_some {s t : List Char} (h : unwrap? s = some t) : strip s = strip t := by
  rw [strip]
  split
  · next found => rw [Option.some.inj (h.symm.trans found)]
  · next bare => cases h.symm.trans bare

theorem strip_of_none {s : List Char} (h : unwrap? s = none) : strip s = s := by
  rw [strip]
  split
  · next found => cases h.symm.trans found
  · rfl

theorem strip_wrap_iterate {s : List Char} (h : balanced s = true) (n : Nat) : strip (wrap^[n] s) = strip s := by
  have balanced (n : Nat) : balanced (wrap^[n] s) = true := by
    induction n with
    | zero => exact h
    | succ n ih =>
      rw [Function.iterate_succ_apply']
      exact balanced_wrap ih
  induction n with
  | zero => rfl
  | succ n ih =>
    rw [Function.iterate_succ_apply', strip_of_some (unwrap?_eq_some_iff.mpr ⟨rfl, balanced n⟩), ih]

/-- The parentheses come off pair by pair until none are around the whole: the rounds are as many as pairs come off. -/
theorem strip_rounds (s : List Char) : ∃ rounds, (·.bind unwrap?)^[rounds] (some s) = some (strip s) ∧
    unwrap? (strip s) = none ∧ 2 * rounds + (strip s).length = s.length := by
  induction s using strip.induct with
  | case1 s t found ih =>
    obtain ⟨rounds, reached, done, length⟩ := ih
    rw [strip_of_some found]
    refine ⟨rounds + 1, ?_, done, ?_⟩
    · rw [Function.iterate_succ_apply, Option.bind_some, found, reached]
    · rw [(unwrap?_eq_some_iff.mp found).1]
      simp only [wrap, List.length_append, List.length_cons, List.length_nil]
      omega
  | case2 s none =>
    rw [strip_of_none none]
    exact ⟨0, rfl, none, Nat.zero_add _⟩

/-! The forms of an expression -/

/-- The text in upper case without blanks. -/
def bare (s : List Char) : List Char := Text.upper (s.filter (!Text.isBlank ·))

theorem bare_append (s t : List Char) : bare (s ++ t) = bare s ++ bare t := by
  rw [bare, List.filter_append, Text.upper_append]
  rfl

theorem bare_wrap (s : List Char) : bare (wrap s) = wrap (bare s) := by
  rw [wrap, bare_append]
  rfl

theorem bare_eq_of_sameAsciiLetters {s t : List Char} (h : Text.sameAsciiLetters s t = true) : bare s = bare t :=
  Text.upper_eq_of_sameAsciiLetters (Text.sameAsciiLetters_filter h)

/-- A text that may be kept for an expression: without the keywords of its clause, or with them. The case of ASCII
letters and the blanks, also those among the keywords, are the engine's, and so are parentheses around the expression. -/
inductive Kept (source : List Char) : Bool → List Char → Prop where
  | given : Kept source false source
  | recased : Kept source keywords s → Text.sameAsciiLetters s t = true → Kept source keywords t
  | respaced : Kept source keywords s → s.filter (!Text.isBlank ·) = t.filter (!Text.isBlank ·) →
      Kept source keywords t
  | wrapped : Kept source false s → Kept source false (wrap s)
  | computed : Kept source false s → Kept source true ("COMPUTED BY".toList ++ s)

/-- The keywords and some pairs of parentheses are all that is left of what the engine did. -/
theorem Kept.bare_eq {source s : List Char} {keywords : Bool} (h : Kept source keywords s) :
    ∃ pairs, bare s = (if keywords then computedBy else []) ++ wrap^[pairs] (bare source) := by
  induction h with
  | given => exact ⟨0, rfl⟩
  | recased _ same ih =>
    rw [← bare_eq_of_sameAsciiLetters same]
    exact ih
  | respaced _ same ih =>
    rw [bare, ← same]
    exact ih
  | wrapped _ ih =>
    obtain ⟨pairs, form⟩ := ih
    exact ⟨pairs + 1, by rw [bare_wrap, form, Function.iterate_succ_apply']; rfl⟩
  | computed _ ih =>
    obtain ⟨pairs, form⟩ := ih
    refine ⟨pairs, ?_⟩
    rw [bare_append, form]
    exact congrArg (· ++ _) (by decide)

/-! The expression of a hash index -/

theorem free_bare {s : List Char} (h : Free s) : Free (bare s) := by
  intro d hd
  obtain ⟨c, hc, form⟩ := List.mem_flatMap.mp hd
  obtain ⟨opens, closes⟩ := h c (List.mem_filter.mp hc).1
  constructor
  · rintro rfl
    exact opens (Text.eq_of_mem_upperForm (by decide) (by decide) form)
  · rintro rfl
    exact closes (Text.eq_of_mem_upperForm (by decide) (by decide) form)

theorem toList_hashSource (identifiers : List Identifier) : (Statement.hashSource identifiers).toList =
    "HASH".toList ++ wrap (Text.joinWith " || ".toList (identifiers.map (·.text.toList))) := by
  simp [Statement.hashSource, Text.joined, List.map_map, Function.comp_def, wrap]

theorem bare_hashSource (identifiers : List Identifier) : bare (Statement.hashSource identifiers).toList =
    "HASH".toList ++ wrap (bare (Text.joinWith " || ".toList (identifiers.map (·.text.toList)))) := by
  rw [toList_hashSource, bare_append, bare_wrap]
  exact congrArg (· ++ _) (by decide)

theorem free_hashSource {identifiers : List Identifier} (h : ∀ i ∈ identifiers, Free i.text.toList) :
    Free (bare (Text.joinWith " || ".toList (identifiers.map (·.text.toList)))) := by
  have separator : Free " || ".toList := by decide
  refine free_bare (Identifier.forall_joinWith separator fun part hp => ?_)
  obtain ⟨i, hi, rfl⟩ := List.mem_map.mp hp
  exact h i hi

/-- The keywords come off, and what is left are pairs of parentheses around the expression. -/
theorem normalize_eq_strip {core s : List Char} (head : core.head? = some 'H') {keywords : Bool} {pairs : Nat}
    (form : bare s = (if keywords then computedBy else []) ++ wrap^[pairs] core) :
    normalize s = strip (wrap^[pairs] core) := by
  have rest : (Text.dropHead? computedBy (bare s)).getD (bare s) = wrap^[pairs] core := by
    cases keywords with
    | true =>
      rw [form, if_pos rfl, Text.dropHead?_eq_some_iff.mpr rfl]
      rfl
    | false =>
      have other : Text.dropHead? computedBy (bare s) = none := by
        rw [form]
        cases pairs with
        | zero =>
          cases core with
          | nil => cases head
          | cons c core => obtain rfl := Option.some.inj head; rfl
        | succ pairs =>
          rw [Function.iterate_succ_apply']
          rfl
      rw [other, form]
      rfl
  exact congrArg strip rest

/-- There is no parenthesis at the start. -/
theorem strip_of_head {core : List Char} (head : core.head? = some 'H') : strip core = core := by
  refine strip_of_none ?_
  cases core with
  | nil => cases head
  | cons c core => obtain rfl := Option.some.inj head; rfl

theorem normalize_of_bare {core s : List Char} (head : core.head? = some 'H') (inside : balanced core = true)
    {keywords : Bool} {pairs : Nat} (form : bare s = (if keywords then computedBy else []) ++ wrap^[pairs] core) :
    normalize s = core := by
  rw [normalize_eq_strip head form, strip_wrap_iterate inside, strip_of_head head]

theorem normalize_hashSource {identifiers : List Identifier} (h : ∀ i ∈ identifiers, Free i.text.toList) :
    ∃ inside, ∀ keywords s, Kept (Statement.hashSource identifiers).toList keywords s →
      normalize s = "HASH".toList ++ wrap inside := by
  let inside := bare (Text.joinWith " || ".toList (identifiers.map (·.text.toList)))
  have free : Free inside := free_hashSource h
  have within : balanced inside = true := (congrArg _ (List.append_nil inside).symm).trans (balancedFrom_of_free free [])
  have whole : balanced ("HASH".toList ++ wrap inside) = true :=
    (balancedFrom_of_free (by decide) _).trans (balanced_wrap within)
  refine ⟨inside, fun keywords s kept => ?_⟩
  obtain ⟨pairs, form⟩ := kept.bare_eq
  rw [bare_hashSource] at form
  exact normalize_of_bare rfl whole form

variable {identifiers : List Identifier} {s : List Char} {keywords : Bool}

/-- Whatever form the expression of a hash index is kept in, its normal form is that of the expression. -/
theorem Kept.normalize_eq (h : ∀ i ∈ identifiers, Free i.text.toList)
    (kept : Kept (Statement.hashSource identifiers).toList keywords s) :
    normalize s = normalize (Statement.hashSource identifiers).toList := by
  obtain ⟨inside, form⟩ := normalize_hashSource h
  rw [form keywords s kept, form false _ .given]

theorem Kept.ne_nil (h : ∀ i ∈ identifiers, Free i.text.toList)
    (kept : Kept (Statement.hashSource identifiers).toList keywords s) : s ≠ [] := by
  rintro rfl
  obtain ⟨inside, form⟩ := normalize_hashSource h
  have empty : normalize [] = [] := strip_of_none rfl
  exact List.cons_ne_nil _ _ ((form keywords [] kept).symm.trans empty)

theorem Kept.trim {source : List Char} (kept : Kept source keywords s) : Kept source keywords (Text.trim s) :=
  kept.respaced (Text.filter_trim s).symm

end Expression

/-! Finding the index -/

section Rows

variable {wanted : List Char} {row : Row} (rest : List Row)

/-- Indexes of other expressions are passed over. -/
theorem firstIndexBy_append {before : List Row}
    (other : ∀ r ∈ before, ∃ source, r.getName? 1 = .ok source ∧
      ∀ text ∈ source, Expression.normalize text.toList ≠ wanted) :
    firstIndexBy wanted (before ++ rest) = firstIndexBy wanted rest := by
  induction before with
  | nil => rfl
  | cons r before ih =>
    obtain ⟨source, read, differs⟩ := other r List.mem_cons_self
    rw [List.cons_append, firstIndexBy, read, ← ih fun s hs => other s (List.mem_cons_of_mem r hs)]
    cases source with
    | none => rfl
    | some text => exact if_neg (differs text rfl)

theorem firstIndexBy_cons_of_eq {source name : String} (read : row.getName? 1 = .ok (some source))
    (same : Expression.normalize source.toList = wanted) (named : row.getName 0 = .ok name) :
    firstIndexBy wanted (row :: rest) = .ok (some (Text.lowercase name)) := by
  rw [firstIndexBy, read]
  refine (if_pos same).trans ?_
  rw [named]
  rfl

end Rows

/-- A hash index over columns whose names have no parentheses is found, in whatever form its expression is kept, unless
an index before it has an expression of the same normal form. Normal forms exist: of every text the parentheses around
the whole come off in at most half as many rounds as it has characters. -/
theorem expressionIndex?_kept (c : Cursor σ) (e : Engine) (table : String) {columns : List String}
    (plain : ∀ column ∈ columns, Expression.Free (Identifier.quote e column).text.toList) {s t : σ}
    {before after : List Row} {row : Row} {source name : String} {keywords : Bool}
    (answer : ask c (.expressionIndexes (Identifier.catalogName e table)) s = (.ok (before ++ row :: after), t))
    (earlier : ∀ r ∈ before, ∃ other, r.getName? 1 = .ok other ∧
      ∀ text ∈ other, Expression.normalized text ≠ Expression.normalized (e.hashSource columns))
    (stored : row.get (Value.toOption Value.toText) 1 = .ok (some source))
    (kept : Expression.Kept (e.hashSource columns).toList keywords source.toList) (named : row.getName 0 = .ok name) :
    expressionIndex? c e table (e.hashSource columns) s = (.ok (some (Text.lowercase name)), t) ∧
      ∀ text : List Char, ∃ rounds start,
        start = (Text.dropHead? Expression.computedBy (Expression.bare text)).getD (Expression.bare text) ∧
        (·.bind Expression.unwrap?)^[rounds] (some start) = some (Expression.normalize text) ∧
        Expression.unwrap? (Expression.normalize text) = none ∧
        2 * rounds + (Expression.normalize text).length = start.length := by
  refine ⟨?_, fun text => ?_⟩
  · have free : ∀ i ∈ columns.map (Identifier.quote e), Expression.Free i.text.toList := by
      intro i hi
      obtain ⟨column, hc, rfl⟩ := List.mem_map.mp hi
      exact plain column hc
    have trimmed : Expression.Kept (e.hashSource columns).toList keywords (Text.trimmed source).toList := by
      rw [Text.trimmed, String.toList_ofList]
      exact kept.trim
    have read : row.getName? 1 = .ok (some (Text.trimmed source)) := by
      have some : Text.trimmed source ≠ "" := fun empty => trimmed.ne_nil free (congrArg String.toList empty)
      rw [Row.getName?, stored]
      exact congrArg Except.ok (Option.filter_eq_some_iff.mpr ⟨rfl, bne_iff_ne.mpr some⟩)
    have others : ∀ r ∈ before, ∃ other, r.getName? 1 = .ok other ∧
        ∀ text ∈ other, Expression.normalize text.toList ≠ Expression.normalize (e.hashSource columns).toList := by
      intro r hr
      obtain ⟨other, read, differs⟩ := earlier r hr
      exact ⟨other, read, fun text ht same => differs text ht (congrArg String.ofList same)⟩
    have found : firstIndexBy (Expression.normalize (e.hashSource columns).toList) (before ++ row :: after) =
        .ok (some (Text.lowercase name)) :=
      (firstIndexBy_append (row :: after) others).trans
        (firstIndexBy_cons_of_eq after read (trimmed.normalize_eq free) named)
    rw [expressionIndex?, Action.bind_apply, answer]
    exact congrArg (·, t) found
  · obtain ⟨rounds, reached, done, length⟩ := Expression.strip_rounds
      ((Text.dropHead? Expression.computedBy (Expression.bare text)).getD (Expression.bare text))
    exact ⟨rounds, _, rfl, reached, done, length⟩

namespace Sample

def engine : Engine := ⟨⟨2, 5, 0, 0⟩⟩

/-- An index that is computed by another expression. -/
def byYear : Row := ⟨[.text "BOOK_BY_YEAR", .text "(EXTRACT(YEAR FROM \"PRINTED\"))"]⟩

/-- What an engine wrote down for the hash of the title. -/
def source : String := "computed by\n( (hash( \"Title\" )))"

def byTitle : Row := ⟨[.text "BOOK_TITLE_UNIQ   ", .text source]⟩

theorem kept_source : Expression.Kept (engine.hashSource ["title"]).toList true source.toList := by
  have whole : Expression.Kept (engine.hashSource ["title"]).toList false _ := .given
  have lowered := whole.wrapped.wrapped.computed.recased (t := "computed by((hash(\"Title\")))".toList)
    (by decide +kernel)
  exact lowered.respaced (by decide +kernel)

theorem expressionIndex?_kept_title :
    (∀ column ∈ ["title"], Expression.Free (Identifier.quote engine column).text.toList) ∧
    (∀ r ∈ [byYear], ∃ other, r.getName? 1 = .ok other ∧
      ∀ text ∈ other, Expression.normalized text ≠ Expression.normalized (engine.hashSource ["title"])) ∧
    Expression.Kept (engine.hashSource ["title"]).toList true source.toList ∧
    expressionIndex? (clerk fun _ => [byYear, byTitle]) engine "book" (engine.hashSource ["title"]) [] =
      (.ok (some "book_title_uniq"), [byYear, byTitle]) := by
  have plain : ∀ column ∈ ["title"], Expression.Free (Identifier.quote engine column).text.toList :=
    List.forall_mem_singleton.mpr (by decide +kernel)
  have differs : Expression.normalized "(EXTRACT(YEAR FROM \"PRINTED\"))" ≠
    Expression.normalized (engine.hashSource ["title"]) := by decide +kernel
  have earlier : ∀ r ∈ [byYear], ∃ other, r.getName? 1 = .ok other ∧
      ∀ text ∈ other, Expression.normalized text ≠ Expression.normalized (engine.hashSource ["title"]) := by
    intro r hr
    obtain rfl := List.mem_singleton.mp hr
    exact ⟨some "(EXTRACT(YEAR FROM \"PRINTED\"))", by decide +kernel, fun text ht => Option.some.inj ht ▸ differs⟩
  have answer : ask (clerk fun _ => [byYear, byTitle]) (.expressionIndexes (Identifier.catalogName engine "book")) [] =
    (.ok ([byYear] ++ byTitle :: []), [byYear, byTitle]) := rfl
  have stored : byTitle.get (Value.toOption Value.toText) 1 = .ok (some source) := rfl
  have named : byTitle.getName 0 = .ok "BOOK_TITLE_UNIQ" := by decide +kernel
  have found := (expressionIndex?_kept _ engine "book" plain answer earlier stored kept_source named).1
  exact ⟨plain, earlier, kept_source, found.trans (by decide +kernel)⟩

end Sample

end Catalog

end FirebirdSql
