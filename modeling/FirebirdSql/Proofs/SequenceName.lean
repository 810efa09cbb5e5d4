import FirebirdSql.Proofs.QuotedName
import FirebirdSql.Proofs.UpperCase
import FirebirdSql.Sequence
import Mathlib.Data.List.DropRight

/-!
The names of the objects behind a counting column. They share a stem that is made of the table's name, so they fit and
are apart, and they denote names of the catalog just if no quote of the table's name is left in the stem.
-/

namespace FirebirdSql

namespace Text

theorem length_upper {s : List Char} (single : ∀ c ∈ s, (upperForm c).length = 1) : (upper s).length = s.length := by
  induction s with
  | nil => rfl
  | cons c s ih =>
    rw [upper_cons, List.length_append, single c List.mem_cons_self,
      ih fun d hd => single d (List.mem_cons_of_mem c hd), List.length_cons, Nat.add_comm]

theorem dropWhile_of_head {p : Char → Bool} {s : List Char} (h : ∀ c, s.head? = some c → p c = false) :
    s.dropWhile p = s := by
  cases s with
  | nil => rfl
  | cons c s => exact List.dropWhile_cons_of_neg (by simp [h c rfl])

end Text

namespace Sequence

open Identifier

/-- The names are identifiers between quotes and denote the names of the catalog, within the limit and apart. -/
structure Proper (e : Engine) (s : Sequence) : Prop where
  sequence : s.sequence.denoted? = some s.sequenceCatalogName
  trigger : s.trigger.denoted? = some s.triggerCatalogName
  procedure : s.procedure.denoted?.isSome
  short : ∀ i ∈ [s.sequence, s.trigger, s.procedure], ∀ name, i.denoted? = some name → name.length ≤ e.identifierLimit
  apart : [s.sequence.denoted?, s.trigger.denoted?, s.procedure.denoted?].Nodup

/-- What the names end in. -/
def endings : List String := ["_SQ", "_PK", "_RS"]

theorem endings_raised : ∀ ending ∈ endings, Text.Raised ending.toList := by decide +kernel

theorem endings_length : ∀ ending ∈ endings, ending.toList.length = 3 := by decide +kernel

theorem endings_unquoted : ∀ ending ∈ endings, '"' ∉ ending.toList := by decide +kernel

/-- The name of one of the objects. -/
def nameWith (e : Engine) (table ending : String) : String := Text.uppercase (stem e table) ++ ending

variable (e : Engine) (table : String) {ending name : String}

theorem toList_nameWith (ending : String) :
    (nameWith e table ending).toList = Text.upper (cut (e.identifierLimit - 3) (Text.upper table.toList)) ++
      ending.toList := by
  rw [nameWith, Text.uppercase, stem, String.toList_append, String.toList_ofList, String.toList_ofList]

/-- The stem is in upper case but for the digest, and a digit has one form. -/
theorem length_upper_stem :
    (Text.upper (cut (e.identifierLimit - 3) (Text.upper table.toList))).length ≤ e.identifierLimit - 3 := by
  have hex : ∀ n < 16, (Text.upperForm (Text.hexDigit n)).length = 1 := by decide +kernel
  have single := forall_cut hex (e.identifierLimit - 3) fun c hc =>
    congrArg List.length (Text.raised_upper table.toList c hc)
  have := e.identifierLimit_ge
  rw [Text.length_upper single]
  exact length_cut (by simp only [cutDigestLength]; omega) _

theorem length_nameWith (h : ending ∈ endings) : (nameWith e table ending).length ≤ e.identifierLimit := by
  have := e.identifierLimit_ge
  have := length_upper_stem e table
  rw [← String.length_toList, toList_nameWith, List.length_append, endings_length ending h]
  omega

theorem quote_stem (h : ending ∈ endings) :
    quote e (stem e table ++ ending) = ofCatalogName (nameWith e table ending) := by
  have ends : ending.toList.getLast? ≠ some '"' := fun last => endings_unquoted ending h (List.mem_of_getLast? last)
  have long := endings_length ending h
  have plain : isDelimited (stem e table ++ ending).toList = false := by
    have nonempty : ending.toList ≠ [] := List.ne_nil_of_length_pos (by omega)
    obtain ⟨c, last⟩ := Option.isSome_iff_exists.mp (List.getLast?_isSome.mpr nonempty)
    rw [String.toList_append, isDelimited, List.getLast?_append, last, Option.some_or, ← last, beq_false_of_ne ends,
      Bool.and_false]
  have raised : Text.upper (stem e table ++ ending).toList = (nameWith e table ending).toList := by
    rw [String.toList_append, Text.upper_append, (endings_raised ending h).upper_eq, nameWith,
      String.toList_append, Text.uppercase, String.toList_ofList]
  have fits : (nameWith e table ending).toList.length ≤ e.identifierLimit :=
    String.length_toList ▸ length_nameWith e table h
  rw [quote, quoteChars, plain, raised, cut, if_pos fits, ofCatalogName, toList_nameWith, Text.upper_append,
    Text.upper_upper, (endings_raised ending h).upper_eq]
  rfl

theorem quote_mem_nameWith (h : ending ∈ endings) :
    '"' ∈ (nameWith e table ending).toList ↔ '"' ∈ kept (e.identifierLimit - 3) table.toList := by
  rw [toList_nameWith, List.mem_append, or_iff_left (endings_unquoted ending h), Text.mem_upper_quote, quote_mem_cut]

theorem nameWith_injective {other : String} (h : nameWith e table ending = nameWith e table other) :
    ending = other := by
  have same := congrArg String.toList h
  rw [toList_nameWith, toList_nameWith] at same
  exact String.toList_injective (List.append_cancel_left same)

theorem unquoted_ofCatalogName (head : name.toList.head? ≠ some '"') (last : name.toList.getLast? ≠ some '"') :
    unquoted (ofCatalogName name) = name := by
  have other {c : Char} (h : some c ≠ some '"') : (c == '"') = false :=
    beq_false_of_ne fun same => h (congrArg some same)
  have start : ('"' :: name.toList ++ ['"']).dropWhile (· == '"') = (name.toList ++ ['"']).dropWhile (· == '"') := rfl
  rw [unquoted, ofCatalogName, String.toList_ofList, delimit, start]
  cases spelled : name.toList with
  | nil => exact String.toList_injective (by rw [spelled]; rfl)
  | cons c s =>
    rw [spelled] at head last
    have finish : ('"' :: (c :: s).reverse).dropWhile (· == '"') = (c :: s).reverse.dropWhile (· == '"') := rfl
    have fromHead : ((c :: s) ++ ['"']).dropWhile (· == '"') = (c :: s) ++ ['"'] :=
      Text.dropWhile_of_head fun d hd => other (hd.symm.trans_ne head)
    have fromLast : (c :: s).reverse.dropWhile (· == '"') = (c :: s).reverse :=
      Text.dropWhile_of_head fun d hd => other ((hd.symm.trans List.head?_reverse).trans_ne last)
    rw [fromHead, List.reverse_append, List.reverse_singleton, List.singleton_append, finish, fromLast,
      List.reverse_reverse, ← spelled, String.ofList_toList]

theorem unquoted_head (i : Identifier) : (unquoted i).toList.head? ≠ some '"' := by
  intro head
  rw [unquoted, String.toList_ofList] at head
  obtain ⟨rest, parts⟩ := List.rdropWhile_prefix (· == '"') (i.text.toList.dropWhile (· == '"'))
  have first : (i.text.toList.dropWhile (· == '"')).head? = some '"' := by
    rw [← parts]
    exact List.head?_append.trans (congrArg (Option.or · _) head)
  have stop := List.head?_dropWhile_not (· == '"') i.text.toList
  rw [first] at stop
  exact absurd stop (by decide)

theorem unquoted_last (i : Identifier) : (unquoted i).toList.getLast? ≠ some '"' := by
  intro last
  rw [unquoted, String.toList_ofList, List.getLast?_reverse] at last
  have stop := List.head?_dropWhile_not (· == '"') (i.text.toList.dropWhile (· == '"')).reverse
  rw [last] at stop
  exact absurd stop (by decide)

/-- Without the quotes at its ends an identifier reads as the name that it denotes just if there is no quote in it. -/
theorem denoted?_eq_unquoted_iff :
    (ofCatalogName name).denoted? = some (unquoted (ofCatalogName name)) ↔ '"' ∉ name.toList := by
  constructor
  · intro denotes
    have same := eq_iff_toList.mp (denoted?_eq_some_iff.mp denotes)
    rw [ofCatalogName, ofStored, String.toList_ofList, String.toList_ofList] at same
    have spelled : name.toList = doubled (unquoted (ofCatalogName name)).toList :=
      List.append_cancel_right (List.cons.inj same).2
    have head : name.toList.head? ≠ some '"' := by
      rw [spelled, head?_doubled]
      exact unquoted_head _
    have last : name.toList.getLast? ≠ some '"' := by
      rw [spelled, getLast?_doubled]
      exact unquoted_last _
    rw [unquoted_ofCatalogName head last] at spelled
    exact doubled_eq_self_iff.mp spelled.symm
  · intro free
    have head : name.toList.head? ≠ some '"' := fun h => free (List.mem_of_mem_head? h)
    have last : name.toList.getLast? ≠ some '"' := fun h => free (List.mem_of_getLast? h)
    rw [unquoted_ofCatalogName head last, denoted?_ofCatalogName]
    exact free

/-- The objects of a table, by their names. -/
theorem ofTable_eq : ofTable e table = ⟨quote e table, ofCatalogName (nameWith e table "_SQ"),
    ofCatalogName (nameWith e table "_PK"), ofCatalogName (nameWith e table "_RS")⟩ := by
  have named (ending : String) (h : ending ∈ endings) := quote_stem e table h
  rw [← named "_SQ" (by decide), ← named "_PK" (by decide), ← named "_RS" (by decide)]
  rfl

theorem ofTable_eq_of_sameAsciiLetters {table other : String} (plain : isDelimited table.toList = false)
    (same : Text.sameAsciiLetters table.toList other.toList = true) : ofTable e other = ofTable e table := by
  have upper := Text.upper_eq_of_sameAsciiLetters same
  have together : isDelimited other.toList = false := by rw [← isDelimited_upper, ← upper, isDelimited_upper, plain]
  have tables : quote e other = quote e table := by
    rw [quote, quote, quoteChars, quoteChars, plain, together, upper]
    rfl
  have stems : stem e other = stem e table := by rw [stem, stem, upper]
  rw [ofTable, ofTable, tables, stems]

/-- The sequence is stored under the name that the catalog is asked for, just if no quote is left in the stem. -/
theorem sequence_denoted?_iff : (ofTable e table).sequence.denoted? = some (ofTable e table).sequenceCatalogName ↔
    '"' ∉ kept (e.identifierLimit - 3) table.toList := by
  rw [sequenceCatalogName, ofTable_eq, denoted?_eq_unquoted_iff, quote_mem_nameWith e table (by decide)]

/-- Names without a quote in them are proper. -/
theorem proper_of_free (free : '"' ∉ kept (e.identifierLimit - 3) table.toList) : (ofTable e table).Proper e := by
  have clean {ending : String} (h : ending ∈ endings) : '"' ∉ (nameWith e table ending).toList :=
    mt (quote_mem_nameWith e table h).mp free
  have names {ending : String} (h : ending ∈ endings) := denoted?_ofCatalogName.mpr (clean h)
  have apart {a b : String} (h : a ≠ b) : some (nameWith e table a) ≠ some (nameWith e table b) :=
    fun same => h (nameWith_injective e table (Option.some.inj same))
  rw [ofTable_eq]
  refine ⟨denoted?_eq_unquoted_iff.mpr (clean (by decide)), denoted?_eq_unquoted_iff.mpr (clean (by decide)),
    ?_, ?_, ?_⟩
  · exact Option.isSome_of_mem (names (by decide))
  · have short {ending : String} (h : ending ∈ endings) (name : String)
        (denoted : (ofCatalogName (nameWith e table ending)).denoted? = some name) :
        name.length ≤ e.identifierLimit := by
      obtain rfl := Option.some.inj ((names h).symm.trans denoted)
      exact length_nameWith e table h
    exact List.forall_mem_cons.mpr ⟨short (by decide), List.forall_mem_cons.mpr ⟨short (by decide),
      List.forall_mem_singleton.mpr (short (by decide))⟩⟩
  · dsimp only
    rw [names (by decide), names (by decide), names (by decide)]
    simp only [List.nodup_cons, List.mem_cons, List.not_mem_nil, or_false, not_or, not_false_eq_true, List.nodup_nil,
      and_true]
    exact ⟨⟨apart (by decide), apart (by decide)⟩, apart (by decide)⟩

/-- The objects of a table have proper names just if no double quote is left of the table's name, and spellings of it
that differ in the case of ASCII letters have the same ones. -/
theorem ofTable_proper_iff (e : Engine) (table : String) :
    ((ofTable e table).Proper e ↔ '"' ∉ kept (e.identifierLimit - 3) table.toList) ∧
      ∀ other, isDelimited table.toList = false → Text.sameAsciiLetters table.toList other.toList = true →
        ofTable e other = ofTable e table := by
  refine ⟨⟨fun proper => ?_, proper_of_free e table⟩, fun other => ofTable_eq_of_sameAsciiLetters e⟩
  have denotes := proper.sequence
  rw [sequenceCatalogName, ofTable_eq] at denotes
  exact mt (quote_mem_nameWith e table (by decide)).mpr (denoted?_eq_unquoted_iff.mp denotes)

theorem ofTable_proper_book :
    let e : Engine := ⟨⟨3, 0, 5, 0⟩⟩
    (ofTable e "book").Proper e ∧ ofTable e "BOOK" = ofTable e "book" :=
  ⟨(ofTable_proper_iff ⟨⟨3, 0, 5, 0⟩⟩ "book").1.mpr (by decide +kernel),
    (ofTable_proper_iff ⟨⟨3, 0, 5, 0⟩⟩ "book").2 "BOOK" (by decide +kernel) (by decide +kernel)⟩

/-- The quotes of a delimited table get into the names, where they end them early. -/
theorem ofTable_delimited :
    let e : Engine := ⟨⟨3, 0, 5, 0⟩⟩
    let s := ofTable e "\"Mixed\""
    s.table.denoted? = some "Mixed" ∧ s.sequence.text = "\"\"MIXED\"_SQ\"" ∧ s.sequence.denoted? = none ∧
      s.sequenceCatalogName = "MIXED\"_SQ" := by
  decide +kernel

end Sequence

end FirebirdSql
