import FirebirdSql.Proofs.Catalog.Sharing
import FirebirdSql.Proofs.LowerCase
import FirebirdSql.Proofs.Noted

/-!
Names of tables as they are listed, and questions about the tables by these names. A name is listed in lower case and asked
for in upper case, so a question is about the listed table exactly if its stored name comes back from lower case.
-/

namespace FirebirdSql

namespace Identifier

open Text (upper lower Restored Raised)

theorem restored_upper_digest (names : List (List Char)) (length : Nat) : Restored (upper (Digest.ofNames names length)) := by
  have hex : ∀ n < 16, Restored (Text.upperForm (Text.hexDigit n)) := by decide +kernel
  intro d hd
  obtain ⟨c, hc, hd⟩ := List.mem_flatMap.mp hd
  exact Text.forall_hexOfBytes (p := fun c => Restored (Text.upperForm c)) hex _ c (List.mem_of_mem_take hc) d hd

/-- A text that grows beyond the limit in lower case and back is cut, and is not the old one even then. -/
theorem upper_cut_eq_iff {limit : Nat} {s : List Char} (fits : s.length ≤ limit) :
    upper (cut limit (upper (lower s))) = s ↔ Restored s := by
  by_cases long : (upper (lower s)).length ≤ limit
  · rw [cut, if_pos long, Text.upper_upper, Text.upper_lower_eq_iff]
  rw [cut, if_neg long]
  constructor
  · intro same
    have raised : Raised (upper (lower s)) := Text.raised_upper _
    have start : upper ((upper (lower s)).take (limit - cutDigestLength)) = (upper (lower s)).take (limit - cutDigestLength) :=
      Raised.upper_eq fun c hc => raised c (List.mem_of_mem_take hc)
    rw [Text.upper_append, start] at same
    -- The digest comes back, so what is before it decides, and that is the same before and after.
    have kept := congrArg (List.take (limit - cutDigestLength)) same
    rw [List.take_left' (List.length_take_of_le (by omega)), Text.upper_lower] at kept
    have restored := Text.restored_take kept
    intro c hc
    rw [← same, Text.upper_lower, kept] at hc
    rcases List.mem_append.mp hc with hc | hc
    · exact restored c hc
    · exact restored_upper_digest _ _ c hc
  · intro restored
    rw [Text.upper_lower_eq_iff.mpr restored] at long
    exact absurd fits long

/-- A name that the catalog may store for a table: within the limit, with no quotes in it and no blanks around it. -/
structure Storable (e : Engine) (name : String) : Prop where
  fits : name.toList.length ≤ e.identifierLimit
  unquoted : '"' ∉ name.toList
  unpadded : Text.trimmed name = name

theorem catalogName_of_unquoted (e : Engine) {name : String} (h : '"' ∉ name.toList) :
    (catalogName e name).toList = upper (cut e.identifierLimit (upper name.toList)) := by
  have plain : isDelimited name.toList = false := by
    rw [Bool.eq_false_iff]
    intro delimited
    obtain ⟨body, quoted⟩ := isDelimited_iff.mp delimited
    exact h (quoted ▸ List.mem_cons_self)
  rw [catalogName, String.toList_ofList, quoteChars, plain, if_neg Bool.false_ne_true, undelimit_delimit]

/-- A stored name comes back from its lower case if each of its characters does. -/
theorem Storable.catalogName_lowercase_iff {e : Engine} {name : String} (h : Storable e name) :
    catalogName e (Text.lowercase name) = name ↔ Restored name.toList := by
  have lowered : (Text.lowercase name).toList = lower name.toList := String.toList_ofList
  have unquoted : '"' ∉ (Text.lowercase name).toList := by
    rw [lowered]
    exact Text.quote_notMem_lower h.unquoted
  rw [← String.toList_inj, catalogName_of_unquoted e unquoted, lowered, upper_cut_eq_iff h.fits]

end Identifier

/-- The connection that notes what is bound in every statement. -/
def Cursor.binding (c : Cursor σ) : Cursor (Noted σ (List Value)) :=
  c.noting (fun s => [s.fragment.params]) fun _ => []

namespace Catalog

open Identifier (Storable catalogName)
open Text (Restored)

/-- A table or view of the catalog, whose name is stored with blanks after it. -/
structure Relation where
  name : String
  padding : Nat
  kind : TableKind
  deriving DecidableEq, Repr

namespace Relation

def row (r : Relation) : Row :=
  ⟨[.text (.ofList (r.name.toList ++ List.replicate r.padding ' ')), .int (if r.kind = .view then 1 else 0)]⟩

/-- As it is listed. -/
def listed (r : Relation) : Table := ⟨Text.lowercase r.name, r.kind⟩

theorem ofRow_row {e : Engine} {r : Relation} (h : Storable e r.name) : Table.ofRow r.row = .ok r.listed := by
  have blank : ∀ c ∈ List.replicate r.padding ' ', Text.isBlank c = true := by
    intro c hc
    rw [List.eq_of_mem_replicate hc]
    rfl
  have trimmed : Text.trimmed (.ofList (r.name.toList ++ List.replicate r.padding ' ')) = r.name := by
    rw [Text.trimmed, String.toList_ofList, Text.trim_append_blanks _ blank]
    exact h.unpadded
  have name : r.row.getName 0 = .ok r.name := congrArg Except.ok trimmed
  rw [Table.ofRow, name]
  obtain ⟨name, padding, kind⟩ := r
  cases kind <;> rfl

theorem mapM_ofRow {e : Engine} {rs : List Relation} (h : ∀ r ∈ rs, Storable e r.name) :
    (rs.map row).mapM Table.ofRow = .ok (rs.map listed) := by
  induction rs with
  | nil => rfl
  | cons r rs ih =>
    obtain ⟨here, others⟩ := List.forall_mem_cons.mp h
    rw [List.map_cons, List.mapM_cons, ofRow_row here, ih others]
    rfl

end Relation

/-- What is asked about one table. -/
inductive Question where
  | columns
  | constraints
  | columnIndexes (column : String)
  | incomingKeys (column : String)
  deriving DecidableEq, Repr

def Question.run (c : Cursor σ) (e : Engine) (table : String) : Question → Action σ Unit
  | .columns => (fun _ => ()) <$> readColumns c e table
  | .constraints => (fun _ => ()) <$> readConstraints c e table
  | .columnIndexes column => (fun _ => ()) <$> Catalog.columnIndexes c e table column
  | .incomingKeys column => (fun _ => ()) <$> Catalog.incomingKeys c e table column

/-- As many statements at least are executed, and in each the name is what is bound first. -/
def Binds (least : Nat) (name : String) (x : Action (Noted σ (List Value)) α) : Prop :=
  ∀ s, ∃ bound, (x s).2.notes = s.notes ++ bound ∧ least ≤ bound.length ∧
    ∀ params ∈ bound, params.head? = some (.text name)

namespace Binds

variable {name : String} {least : Nat} {x : Action (Noted σ (List Value)) α} {f : α → Action (Noted σ (List Value)) β}

theorem lift (r : Except Error α) : Binds 0 name (Action.lift r : Action (Noted σ (List Value)) α) :=
  fun s => ⟨[], (List.append_nil _).symm, Nat.zero_le _, by simp⟩

theorem bind (hx : Binds least name x) (hf : ∀ a, Binds 0 name (f a)) : Binds least name (x >>= f) := by
  intro s
  obtain ⟨bound, notes, enough, all⟩ := hx s
  rw [Action.bind_apply]
  revert notes
  obtain ⟨r, t⟩ := x s
  cases r with
  | error e => exact fun notes => ⟨bound, notes, enough, all⟩
  | ok a =>
    intro notes
    obtain ⟨others, more, -, rest⟩ := hf a t
    refine ⟨bound ++ others, ?_, ?_, List.forall_mem_append.mpr ⟨all, rest⟩⟩
    · rw [← List.append_assoc, ← notes]
      exact more
    · rw [List.length_append]
      omega

theorem map (hx : Binds least name x) (g : α → β) : Binds least name (g <$> x) :=
  hx.bind fun a => lift (.ok (g a))

theorem mono (hx : Binds least name x) : Binds 0 name x := by
  intro s
  obtain ⟨bound, notes, -, all⟩ := hx s
  exact ⟨bound, notes, Nat.zero_le _, all⟩

theorem ask (c : Cursor σ) {q : CatalogQuery} (h : q.fragment.params.head? = some (.text name)) :
    Binds 1 name (Catalog.ask c.binding q) := by
  intro s
  have noted := Cursor.noting_query_triple c (fun s => [s.fragment.params]) (fun _ => []) (.catalog q) s.notes s rfl
  have notes : (Catalog.ask c.binding q s).2.notes = s.notes ++ [q.fragment.params] :=
    Action.ends_always.mp (noted.mono (fun _ _ notes => notes.trans (List.append_nil _)) fun _ _ notes => notes)
  exact ⟨_, notes, Nat.le_refl _, by simpa using h⟩

end Binds

theorem Question.binds (c : Cursor σ) (e : Engine) (table : String) (q : Question) :
    Binds 1 (catalogName e table) (q.run c.binding e table) := by
  cases q with
  | columns => exact ((Binds.ask c rfl).bind fun rows => .lift _).map _
  | constraints =>
    refine Binds.map ((Binds.ask c rfl).bind fun rows => (Binds.lift _).bind fun constraints => ?_) _
    exact (Binds.ask c rfl).mono.bind fun rows => (Binds.lift _).bind fun checks => .lift (.ok _)
  | columnIndexes column => exact ((Binds.ask c rfl).bind fun rows => .lift _).map _
  | incomingKeys column => exact ((Binds.ask c rfl).bind fun rows => .lift _).map _

/-- Every table is listed, in lower case. -/
theorem listTables_eq {c : Cursor σ} {e : Engine} {s t : σ} {rs : List Relation} (storable : ∀ r ∈ rs, Storable e r.name)
    (answer : ask c .tables s = (.ok (rs.map Relation.row), t)) : listTables c s = (.ok (rs.map Relation.listed), t) := by
  rw [listTables, Action.bind_apply, answer, ← Relation.mapM_ofRow storable]
  rfl

/-- Every table is listed, in lower case. What is asked about a listed one is asked about one name whatever happens. That is the
stored name exactly if each character of the stored name comes back from lower case. -/
theorem listed_asked {c : Cursor σ} {e : Engine} {s t : σ} {rs : List Relation} (storable : ∀ r ∈ rs, Storable e r.name)
    (answer : ask c .tables s = (.ok (rs.map Relation.row), t)) :
    listTables c s = (.ok (rs.map Relation.listed), t) ∧
      ∀ r ∈ rs, ∀ q : Question, ∃ name, Binds 1 name (q.run c.binding e r.listed.name) ∧
        (name = r.name ↔ Restored r.name.toList) := by
  refine ⟨listTables_eq storable answer, fun r hr q => ?_⟩
  exact ⟨_, q.binds c e r.listed.name, (storable r hr).catalogName_lowercase_iff⟩

/-- A catalog that has some tables, with nothing to say about them. -/
def shelf (rs : List Relation) : CatalogQuery → List Row
  | .tables => rs.map Relation.row
  | _ => []

theorem listed_asked_book :
    listTables (clerk (shelf [⟨"BOOK", 27, .table⟩])) [] = (.ok [⟨"book", .table⟩], [Relation.row ⟨"BOOK", 27, .table⟩]) ∧
      Binds 1 "BOOK" (Question.constraints.run (clerk (shelf [⟨"BOOK", 27, .table⟩])).binding ⟨⟨2, 5, 9, 0⟩⟩ "book") := by
  have storable : Storable ⟨⟨2, 5, 9, 0⟩⟩ "BOOK" := ⟨by decide +kernel, by decide +kernel, by decide +kernel⟩
  have lowered : Text.lowercase "BOOK" = "book" := by decide +kernel
  have restored : Restored "BOOK".toList := by decide +kernel
  have answer : ask (clerk (shelf [⟨"BOOK", 27, .table⟩])) .tables [] =
    (.ok ([⟨"BOOK", 27, .table⟩].map Relation.row), [Relation.row ⟨"BOOK", 27, .table⟩]) := rfl
  obtain ⟨listed, asked⟩ := listed_asked (List.forall_mem_singleton.mpr storable) answer
  obtain ⟨name, binds, stored⟩ := asked _ (List.mem_singleton_self _) .constraints
  rw [stored.mpr restored, Relation.listed, lowered] at binds
  rw [List.map_singleton, Relation.listed, lowered] at listed
  exact ⟨listed, binds⟩

/-- A table with a delimited name, and one whose name is in upper case, with a dotted `I`: what is asked about them is asked
about other names. -/
theorem listed_asked_otherwise :
    listTables (clerk (shelf [⟨"Mixed", 0, .table⟩, ⟨"\u0130\u015eLEM", 0, .table⟩])) [] =
        (.ok [⟨"mixed", .table⟩, ⟨"i\u0307\u015flem", .table⟩],
          [Relation.row ⟨"Mixed", 0, .table⟩, Relation.row ⟨"\u0130\u015eLEM", 0, .table⟩]) ∧
      Storable ⟨⟨3, 0, 0, 0⟩⟩ "Mixed" ∧ Storable ⟨⟨3, 0, 0, 0⟩⟩ "\u0130\u015eLEM" ∧
      ∀ q : Question,
        Binds 1 "MIXED" (q.run (clerk (shelf [])).binding ⟨⟨3, 0, 0, 0⟩⟩ "mixed") ∧
        Binds 1 "I\u0307\u015eLEM" (q.run (clerk (shelf [])).binding ⟨⟨3, 0, 0, 0⟩⟩ "i\u0307\u015flem") := by
  have storable : Storable ⟨⟨3, 0, 0, 0⟩⟩ "Mixed" ∧ Storable ⟨⟨3, 0, 0, 0⟩⟩ "\u0130\u015eLEM" :=
    ⟨⟨by decide, by decide, by decide +kernel⟩, ⟨by decide, by decide, by decide +kernel⟩⟩
  have listed : [⟨"Mixed", 0, .table⟩, ⟨"\u0130\u015eLEM", 0, .table⟩].map Relation.listed =
    [⟨"mixed", .table⟩, ⟨"i\u0307\u015flem", .table⟩] := by decide +kernel
  have mixed : catalogName ⟨⟨3, 0, 0, 0⟩⟩ "mixed" = "MIXED" := by decide +kernel
  have dotted : catalogName ⟨⟨3, 0, 0, 0⟩⟩ "i\u0307\u015flem" = "I\u0307\u015eLEM" := by decide +kernel
  refine ⟨?_, storable.1, storable.2, fun q => ?_⟩
  · rw [← listed]
    exact listTables_eq (List.forall_mem_cons.mpr ⟨storable.1, List.forall_mem_singleton.mpr storable.2⟩) rfl
  · rw [← mixed, ← dotted]
    exact ⟨q.binds _ _ _, q.binds _ _ _⟩

end Catalog

end FirebirdSql
