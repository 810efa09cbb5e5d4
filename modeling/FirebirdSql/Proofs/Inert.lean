import FirebirdSql.Proofs.DelimitedName
import FirebirdSql.Proofs.Placeholders

/-!
Texts that a scan passes over: it meets no placeholder in them, and behind them it is outside of quotes again. What
stands between quotes is no placeholder, so identifiers and literals are such texts whatever they spell, and so is all
that is made of them.
-/

namespace FirebirdSql

namespace Fragment

/-- From outside of quotes a scan meets no placeholder in the text, and it ends outside of quotes. -/
structure Inert (text : String) : Prop where
  silent : countFrom none text.toList = 0
  closed : scan none text.toList = none

instance (text : String) : Decidable (Inert text) :=
  decidable_of_iff (countFrom none text.toList = 0 ∧ scan none text.toList = none)
    ⟨fun h => ⟨h.1, h.2⟩, fun h => ⟨h.silent, h.closed⟩⟩

theorem scan_append (q : Quote) (s t : List Char) : scan q (s ++ t) = scan (scan q s) t := List.foldl_append

/-- Mute text leaves a scan where it is, inside of quotes or outside. -/
theorem Quotes.scan_of_mute {q : Quote} (h : Quotes q) {s : List Char} (mute : ∀ c ∈ s, isMute c = true) :
    Fragment.scan q s = q := by
  induction s with
  | nil => rfl
  | cons c s ih =>
    change Fragment.scan (Fragment.step q c) s = q
    rw [h.step_of_mute (mute c List.mem_cons_self)]
    exact ih fun d hd => mute d (List.mem_cons_of_mem c hd)

theorem countFrom_of_free (q : Quote) {s : List Char} (free : '?' ∉ s) : countFrom q s = 0 := by
  induction s generalizing q with
  | nil => rfl
  | cons c s ih =>
    obtain ⟨other, free⟩ := List.ne_and_not_mem_of_not_mem_cons free
    have none : isPlaceholder q c = false := by simp [isPlaceholder, Ne.symm other]
    rw [countFrom, none, ih _ free]
    rfl

/-- Between two quotes of one kind, with none of this kind inside, there is no placeholder. -/
theorem within_quotes {d : Char} {s : List Char} (h : d ∉ s) : scan (some d) s = some d ∧ countFrom (some d) s = 0 := by
  induction s with
  | nil => exact ⟨rfl, rfl⟩
  | cons c s ih =>
    obtain ⟨other, h⟩ := List.ne_and_not_mem_of_not_mem_cons h
    have stays : step (some d) c = some d := if_neg (Ne.symm other)
    rw [countFrom, stays]
    change scan (step (some d) c) s = _ ∧ _
    rw [stays]
    exact ⟨(ih h).1, (Nat.zero_add _).trans (ih h).2⟩

/-- A quote that is written twice closes and opens at once. -/
theorem within_doubled (s : List Char) :
    scan (some '\'') (Text.replaceChar '\'' ['\'', '\''] s) = some '\'' ∧
      countFrom (some '\'') (Text.replaceChar '\'' ['\'', '\''] s) = 0 := by
  induction s with
  | nil => exact ⟨rfl, rfl⟩
  | cons c s ih =>
    have form : scan (some '\'') (if c = '\'' then ['\'', '\''] else [c]) = some '\'' ∧
        countFrom (some '\'') (if c = '\'' then ['\'', '\''] else [c]) = 0 := by
      split
      · exact ⟨rfl, rfl⟩
      · next other => exact within_quotes (by simpa using Ne.symm other)
    unfold Text.replaceChar at ih ⊢
    rw [List.flatMap_cons, scan_append, countFrom_append, form.1, form.2]
    exact ⟨ih.1, (Nat.zero_add _).trans ih.2⟩

namespace Inert

theorem validate {text : String} (h : Inert text) : (sql text).validate = .ok () := validate_sql.mpr h.silent

theorem of_mute {s : List Char} (h : ∀ c ∈ s, isMute c = true) : Inert (.ofList s) where
  silent := by
    rw [String.toList_ofList]
    refine countFrom_of_free none fun mark => ?_
    exact absurd (h '?' mark) (by decide)
  closed := by
    rw [String.toList_ofList]
    exact quotes_none.scan_of_mute h

theorem append {s t : String} (hs : Inert s) (ht : Inert t) : Inert (s ++ t) where
  silent := by rw [String.toList_append, countFrom_append, hs.silent, hs.closed, ht.silent]
  closed := by rw [String.toList_append, scan_append, hs.closed, ht.closed]

theorem joined {sep : String} (hsep : Inert sep) {parts : List String} (h : ∀ part ∈ parts, Inert part) :
    Inert (Text.joined sep parts) := by
  induction parts with
  | nil => exact ⟨rfl, rfl⟩
  | cons part parts ih =>
    have head := h part List.mem_cons_self
    cases parts with
    | nil => simpa [Text.joined, Text.joinWith] using head
    | cons next parts =>
      have split : Text.joined sep (part :: next :: parts) = part ++ sep ++ Text.joined sep (next :: parts) := by
        simp [Text.joined, Text.joinWith, String.ofList_append, String.append_assoc]
      rw [split]
      exact (head.append hsep).append (ih fun part hm => h part (List.mem_cons_of_mem _ hm))

end Inert

end Fragment

open Fragment (Inert isMute)

namespace Identifier

/-- No double quote stands in the name. -/
def Unquoted (name : String) : Prop := ∀ c ∈ name.toList, c ≠ '"'

instance (name : String) : Decidable (Unquoted name) := List.decidableBAll _ name.toList

theorem hexDigit_ne_quote (n : Nat) (h : n < 16) : Text.hexDigit n ≠ '"' := (Text.visible_hexDigit h).2.1

theorem upperForm_ne_quote (c : Char) (h : c ≠ '"') : ∀ d ∈ Text.upperForm c, d ≠ '"' := by
  rintro d hd rfl
  exact h (Text.eq_quote_of_mem_upperForm hd)

theorem upper_ne_quote {s : List Char} (h : ∀ c ∈ s, c ≠ '"') : ∀ c ∈ Text.upper s, c ≠ '"' := by
  intro d hd
  obtain ⟨c, hc, hd⟩ := List.mem_flatMap.mp hd
  exact upperForm_ne_quote c (h c hc) d hd

variable (e : Engine) {name : String}

theorem Unquoted.inert_quote (h : Unquoted name) : Inert (quote e name).text := by
  have plain : isDelimited name.toList = false := by
    rw [Bool.eq_false_iff, Ne, isDelimited_iff]
    rintro ⟨body, delimited⟩
    exact h '"' (delimited ▸ List.mem_cons_self) rfl
  let body := Text.upper (cut e.identifierLimit (Text.upper name.toList))
  have free : '"' ∉ body := fun hm => upper_ne_quote (forall_cut hexDigit_ne_quote _ (upper_ne_quote h)) _ hm rfl
  have spelled : (quote e name).text.toList = ['"'] ++ (body ++ ['"']) := by
    rw [quote, String.toList_ofList, quoteChars, plain]
    rfl
  obtain ⟨stays, silent⟩ := Fragment.within_quotes free
  constructor
  · rw [spelled, Fragment.countFrom_append, Fragment.countFrom_append, show Fragment.scan none ['"'] = some '"' from rfl,
      silent, stays]
    rfl
  · rw [spelled, Fragment.scan_append, Fragment.scan_append, show Fragment.scan none ['"'] = some '"' from rfl, stays]
    rfl

theorem inert_identifiers {names : List String} (h : ∀ name ∈ names, Unquoted name) :
    Inert (Statement.identifiers (names.map (quote e))) := by
  refine .joined (by decide) fun text ht => ?_
  rw [List.map_map] at ht
  obtain ⟨name, hn, rfl⟩ := List.mem_map.mp ht
  exact (h name hn).inert_quote e

theorem Unquoted.append {suffix : String} (h : Unquoted name) (hs : Unquoted suffix) : Unquoted (name ++ suffix) := by
  intro c hc
  rw [String.toList_append] at hc
  rcases List.mem_append.mp hc with hc | hc
  · exact h c hc
  · exact hs c hc

theorem Unquoted.derivedName {table suffix : String} {columns : List String} (ht : Unquoted table)
    (hc : ∀ column ∈ columns, Unquoted column) (hs : Unquoted suffix) :
    Unquoted (derivedName e table columns suffix) := by
  have parts : ∀ column ∈ columns.map String.toList, ∀ c ∈ column, c ≠ '"' := by
    intro part hm
    obtain ⟨column, hcolumn, rfl⟩ := List.mem_map.mp hm
    exact hc column hcolumn
  rw [Unquoted, Identifier.derivedName, String.toList_ofList]
  exact forall_derivedChars hexDigit_ne_quote (by decide) (by decide) upperForm_ne_quote _ ht parts hs

theorem Unquoted.stem (h : Unquoted name) : Unquoted (Sequence.stem e name) := by
  rw [Unquoted, Sequence.stem, String.toList_ofList]
  exact forall_cut hexDigit_ne_quote _ (upper_ne_quote h)

end Identifier

/-! Literals: numbers have neither quotes nor question marks, and all else stands between quotes -/

namespace Text

theorem forall_digits {p : Char → Prop} (each : ∀ k < 10, p (digit k)) (n : Nat) : ∀ c ∈ digits n, p c := by
  induction n using Nat.strongRecOn with
  | _ n ih =>
    rw [digits]
    split
    · next small => exact List.forall_mem_singleton.mpr (each n small)
    · next large =>
      refine List.forall_mem_append.mpr ⟨ih (n / 10) (by omega), List.forall_mem_singleton.mpr (each _ ?_)⟩
      exact Nat.mod_lt n (by decide)

theorem mute_digits : ∀ n : Nat, ∀ c ∈ digits n, isMute c = true := forall_digits (by decide)

theorem mute_signedDigits (n : Int) : ∀ c ∈ signedDigits n, isMute c = true := by
  unfold signedDigits
  split
  · exact List.forall_mem_cons.mpr ⟨rfl, mute_digits _⟩
  · exact mute_digits _

theorem mute_zeros (n : Nat) : ∀ c ∈ List.replicate n '0', isMute c = true := by
  intro c hc
  obtain rfl := List.eq_of_mem_replicate hc
  rfl

theorem mute_paddedDigits (width n : Nat) : ∀ c ∈ paddedDigits width n, isMute c = true :=
  List.forall_mem_append.mpr ⟨mute_zeros _, mute_digits n⟩

end Text

theorem Decimal.inert_text (d : Decimal) : Inert d.text := by
  have digits := Text.mute_paddedDigits (d.places + 1) d.coefficient
  have whole (n : Nat) := fun c hc => digits c (List.mem_of_mem_take (i := n) hc)
  have tail (n : Nat) := fun c hc => digits c (List.mem_of_mem_drop (i := n) hc)
  have number {s : List Char} (h : ∀ c ∈ s, isMute c = true) :
      ∀ c ∈ (if d.negative then '-' :: s else s), isMute c = true := by
    split
    · exact List.forall_mem_cons.mpr ⟨rfl, h⟩
    · exact h
  refine .of_mute (number ?_)
  split
  · exact whole _
  · exact List.forall_mem_append.mpr ⟨whole _, List.forall_mem_cons.mpr ⟨rfl, tail _⟩⟩

namespace Binary64

theorem mute_plain (places : Nat) (d : Digits) : ∀ c ∈ plain places d, isMute c = true := by
  have digits := Text.mute_digits d.coefficient
  have whole : ∀ c ∈ (if (Text.digits d.coefficient).length + d.exponent ≤ 0 then ['0'] else
      (Text.digits d.coefficient).take ((Text.digits d.coefficient).length + d.exponent).toNat ++
        List.replicate d.exponent.toNat '0'), isMute c = true := by
    split
    · exact List.forall_mem_singleton.mpr rfl
    · refine List.forall_mem_append.mpr ⟨fun c hc => ?_, Text.mute_zeros _⟩
      exact digits c (List.mem_of_mem_take hc)
  have tail (n m k : Nat) : ∀ c ∈ List.replicate n '0' ++ (Text.digits d.coefficient).drop m ++ List.replicate k '0',
      isMute c = true := by
    refine List.forall_mem_append.mpr ⟨List.forall_mem_append.mpr ⟨Text.mute_zeros _, fun c hc => ?_⟩, Text.mute_zeros _⟩
    exact digits c (List.mem_of_mem_drop hc)
  unfold plain
  dsimp only
  split
  · exact whole
  · exact List.forall_mem_append.mpr ⟨whole, List.forall_mem_cons.mpr ⟨rfl, tail _ _ _⟩⟩

theorem inert_signed (x : Binary64) {s : List Char} (h : ∀ c ∈ s, isMute c = true) : Inert (x.signed s) := by
  refine .of_mute ?_
  split
  · exact List.forall_mem_cons.mpr ⟨rfl, h⟩
  · exact h

theorem inert_text (x : Binary64) : Inert x.text := by
  have special (s : String) (h : x.special? = some s) : Inert s := by
    unfold special? at h
    split at h
    · obtain rfl := Option.some.inj h
      decide
    · split at h
      · cases h
      · obtain rfl := Option.some.inj h
        exact x.inert_signed (List.all_eq_true.mp rfl)
  unfold text
  split
  · next s h => exact special s h
  · refine x.inert_signed ?_
    split
    · exact List.all_eq_true.mp rfl
    · exact mute_plain 0 x.shortest

end Binary64

namespace Literal

theorem inert_quoteText (s : List Char) : Inert (.ofList (quoteText s)) := by
  have spelled : quoteText s = ['\''] ++ (Text.replaceChar '\'' ['\'', '\''] s ++ ['\'']) := rfl
  obtain ⟨stays, silent⟩ := Fragment.within_doubled s
  constructor
  · rw [String.toList_ofList, spelled, Fragment.countFrom_append, Fragment.countFrom_append,
      show Fragment.scan none ['\''] = some '\'' from rfl, silent, stays]
    rfl
  · rw [String.toList_ofList, spelled, Fragment.scan_append, Fragment.scan_append,
      show Fragment.scan none ['\''] = some '\'' from rfl, stays]
    rfl

theorem inert_text (l : Literal) : Inert l.text := by
  obtain ⟨value, hasBooleans⟩ := l
  cases value with
  | null => exact (by decide : Inert "NULL")
  | bool b => cases hasBooleans <;> cases b <;> decide
  | int n => exact .of_mute (Text.mute_signedDigits n)
  | float x =>
    rw [text, chars, String.ofList_toList]
    exact x.inert_text
  | decimal d =>
    rw [text, chars, String.ofList_toList]
    exact d.inert_text
  | bytes bs =>
    have spelled : (⟨.bytes bs, hasBooleans⟩ : Literal).text = "x" ++ .ofList (quoteText (Text.hexOfBytes bs)) :=
      @String.ofList_append ['x'] _
    rw [spelled]
    exact Inert.append (by decide) (inert_quoteText _)
  | text | date | time | timestamp | uuid => exact inert_quoteText _

end Literal

/-! Definitions of columns, and the statements that create a table -/

theorem Fragment.inert_explicitRule (o : OnDelete) : ∀ rule ∈ explicitRule? o.keyword, Inert rule := by
  intro rule found
  unfold explicitRule? at found
  split at found
  · cases found
  · obtain rfl := Option.some.inj found
    cases o <;> decide

theorem ColumnType.inert_definition (e : Engine) (t : ColumnType) : Inert (t.definition e) := by
  have number (n : Nat) : Inert (Text.natText n) := .of_mute (Text.mute_digits n)
  cases t with
  | boolean =>
    change Inert (if e.hasBooleans then "BOOLEAN" else "SMALLINT")
    split <;> decide
  | char n => exact ((by decide : Inert "VARCHAR(").append (number n)).append (by decide)
  | decimal n m =>
    exact ((((by decide : Inert "DECIMAL(").append (number n)).append (by decide)).append (number m)).append (by decide)
  | _ =>
    dsimp only [definition]
    decide

theorem ColumnType.inert_check {e : Engine} {t : ColumnType} {column check : String} (h : Identifier.Unquoted column)
    (found : t.check? e column = some check) : Inert check := by
  have name := h.inert_quote e
  unfold check? at found
  split at found
  · obtain rfl := Option.some.inj found
    exact name.append (by decide)
  · obtain rfl := Option.some.inj found
    exact name.append (by decide)
  · split at found
    · cases found
    · obtain rfl := Option.some.inj found
      exact name.append (by decide)
  · cases found

theorem ColumnDefinition.inert_text {d : ColumnDefinition} (type : Inert d.type) (check : ∀ c ∈ d.check, Inert c) :
    Inert d.text := by
  refine ((((type.append ?_).append ?_).append ?_).append ?_)
  · split
    · exact Inert.append (by decide) (Literal.inert_text _)
    · decide
  · split <;> decide
  · split <;> decide
  · split
    · next c found => exact (Inert.append (by decide) (check c found)).append (by decide)
    · decide

theorem ColumnDefinition.inert_ofField (e : Engine) {f : Field} (column : Identifier.Unquoted f.column)
    (check : ∀ c ∈ f.check, Inert c) (withDefault : Bool) : Inert (ofField e f withDefault).text := by
  refine inert_text (f.type.inert_definition e) fun c found => ?_
  change f.check? e = some c at found
  unfold Field.check? at found
  split at found
  · next typed declared =>
    obtain rfl := Option.some.inj found
    have both := (f.type.inert_check column typed).append (show Inert " AND (" by decide)
    exact (both.append (check _ declared)).append (by decide)
  · next typed _ =>
    obtain rfl := Option.some.inj found
    exact f.type.inert_check column typed
  · exact check c found

namespace Statement

variable {table name target : Identifier}

theorem validate_createTable {columns : List (Identifier × ColumnDefinition)} (ht : Inert table.text)
    (hc : ∀ column ∈ columns, Inert column.1.text ∧ Inert column.2.text) :
    (createTable table columns).fragment.validate = .ok () := by
  refine Inert.validate ((((Inert.append (by decide) ht).append (by decide)).append ?_).append (by decide))
  refine .joined (by decide) fun part hm => ?_
  obtain ⟨column, hcolumn, rfl⟩ := List.mem_map.mp hm
  exact ((hc column hcolumn).1.append (by decide)).append (hc column hcolumn).2

theorem validate_createSequence (h : Inert name.text) : (createSequence name).fragment.validate = .ok () :=
  (Inert.append (by decide) h).validate

theorem validate_createTrigger {column sequence : Identifier} (hn : Inert name.text) (ht : Inert table.text)
    (hc : Inert column.text) (hs : Inert sequence.text) :
    (createTrigger name table column sequence).fragment.validate = .ok () := by
  refine Inert.validate (.joined (by decide) ?_)
  simp only [List.forall_mem_cons]
  refine ⟨?_, by decide, by decide, ?_, ?_, by decide, by simp⟩
  · exact ((Inert.append (by decide) hn).append (by decide)).append ht
  · exact (Inert.append (by decide) hc).append (by decide)
  · exact (((Inert.append (by decide) hc).append (by decide)).append hs).append (by decide)

theorem validate_createIndex {columns : List Identifier} (unique : Bool) (hn : Inert name.text) (ht : Inert table.text)
    (hc : Inert (identifiers columns)) : (createIndex unique name table columns).fragment.validate = .ok () := by
  have kind : Inert (if unique then "UNIQUE " else "") := by split <;> decide
  have head : Inert (createIndexHead unique name table) :=
    ((((Inert.append (by decide) kind).append (by decide)).append hn).append (by decide)).append ht
  exact (((head.append (by decide)).append hc).append (by decide)).validate

theorem validate_addForeignKey {columns targetColumns : List Identifier} {onUpdate onDelete : Option String}
    (ht : Inert table.text) (hn : Inert name.text) (hc : Inert (identifiers columns)) (hr : Inert target.text)
    (hrc : Inert (identifiers targetColumns)) (hu : ∀ rule ∈ onUpdate, Inert rule) (hd : ∀ rule ∈ onDelete, Inert rule) :
    (addConstraint table name (.foreignKey columns target targetColumns onUpdate onDelete)).fragment.validate = .ok () := by
  have rule {event : String} (he : Inert event) {r : Option String} (h : ∀ rule ∈ r, Inert rule) :
      Inert (ruleText event r) := by
    cases r with
    | none => exact (by decide : Inert "")
    | some r => exact ((Inert.append (by decide) he).append (by decide)).append (h r rfl)
  have definition : Inert (ConstraintDefinition.foreignKey columns target targetColumns onUpdate onDelete).text :=
    (((((((Inert.append (by decide) hc).append (by decide)).append hr).append (by decide)).append hrc).append
      (by decide)).append (rule (by decide) hu)).append (rule (by decide) hd)
  refine Inert.validate ((((Inert.append (by decide) ht).append (by decide)).append ?_))
  exact ((Inert.append (by decide) hn).append (by decide)).append definition

end Statement

end FirebirdSql
