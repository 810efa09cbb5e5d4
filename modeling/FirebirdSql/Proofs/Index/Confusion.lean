import FirebirdSql.Proofs.Catalog.Expression
import FirebirdSql.Proofs.Index.Found
import FirebirdSql.Proofs.Index.HashKey
import FirebirdSql.Proofs.NameList

/-!
Which hash indexes may be taken for each other. The normal form of an expression is blind to case and to blanks, also
within the names of the columns. Beyond that it tells lists of columns apart, so an index over the hash of other columns
is dropped only if their names differ in nothing else.
-/

namespace FirebirdSql

namespace Identifier

open Catalog.Expression (bare bare_append)

/-- The name that the identifier stores, in upper case and without blanks. -/
def folded (i : Identifier) : List Char := bare i.stored.toList

/-- The stored name is in upper case and has no blanks, and the identifier spells it. -/
structure Settled (i : Identifier) : Prop where
  spells : i.SpellsStored
  same : i.folded = i.stored.toList

instance (i : Identifier) : Decidable i.Settled :=
  decidable_of_iff (i.SpellsStored ∧ i.folded = i.stored.toList) ⟨fun h => ⟨h.1, h.2⟩, fun h => ⟨h.1, h.2⟩⟩

theorem bare_cons (c : Char) (s : List Char) : bare (c :: s) = bare [c] ++ bare s := bare_append [c] s

theorem quote_mem_bare {s : List Char} (h : '"' ∈ bare s) : '"' ∈ s :=
  (List.mem_filter.mp (Text.mem_upper_quote.mp h)).1

/-- Quotes are neither blanks nor in lower case, and nothing else becomes one. -/
theorem bare_doubled (s : List Char) : bare (doubled s) = doubled (bare s) := by
  have append (s t : List Char) : doubled (s ++ t) = doubled s ++ doubled t := List.flatMap_append
  induction s with
  | nil => rfl
  | cons c s ih =>
    rw [doubled_cons, bare_append, bare_cons, append, ih]
    refine congrArg (· ++ _) ?_
    by_cases quote : c = '"'
    · subst quote
      decide
    · have free : '"' ∉ bare [c] := fun h => quote (List.mem_singleton.mp (quote_mem_bare h)).symm
      rw [if_neg quote, doubled_eq_self_iff.mpr free]

theorem bare_quoted (s : List Char) : bare (quoted s) = quoted (bare s) := by
  have around (inside : List Char) : delimit inside = ['"'] ++ inside ++ ['"'] := rfl
  rw [quoted, quoted, around, around, bare_append, bare_append, bare_doubled]
  rfl

theorem SpellsStored.bare_text {i : Identifier} (h : i.SpellsStored) : bare i.text.toList = quoted i.folded := by
  rw [h.text]
  exact bare_quoted _

/-- Names that are in upper case without blanks are told apart by what is left of them. -/
theorem eq_of_folded {is js : List Identifier} (settled : ∀ i ∈ is, i.Settled) (settled' : ∀ j ∈ js, j.Settled)
    (same : is.map folded = js.map folded) : is = js := by
  induction is generalizing js with
  | nil => exact (List.map_eq_nil_iff.mp same.symm).symm
  | cons i is ih =>
    cases js with
    | nil => cases same
    | cons j js =>
      obtain ⟨first, rest⟩ := List.cons.inj same
      have hi := settled i List.mem_cons_self
      have hj := settled' j List.mem_cons_self
      have stored : i.stored = j.stored := by
        rw [← String.toList_inj, ← hi.same, ← hj.same]
        exact first
      rw [hi.spells.eq_of_stored hj.spells stored,
        ih (fun k hk => settled k (List.mem_cons_of_mem i hk)) (fun k hk => settled' k (List.mem_cons_of_mem j hk)) rest]

end Identifier

namespace Catalog

namespace Expression

open Identifier (folded quoted joinWith_quoted_inj)

theorem bare_joinWith (sep : List Char) (parts : List (List Char)) :
    bare (Text.joinWith sep parts) = Text.joinWith (bare sep) (parts.map bare) := by
  induction parts with
  | nil => rfl
  | cons part parts ih =>
    cases parts with
    | nil => rfl
    | cons next parts =>
      change bare (part ++ sep ++ Text.joinWith sep (next :: parts)) = _
      rw [bare_append, bare_append, ih]
      rfl

variable {is js : List Identifier}

theorem bare_operands (hi : ∀ i ∈ is, i.SpellsStored) :
    bare (Text.joinWith " || ".toList (is.map (·.text.toList))) = Text.joinWith ['|', '|'] ((is.map folded).map quoted) := by
  rw [bare_joinWith, List.map_map, List.map_map]
  refine congrArg (Text.joinWith _) (List.map_congr_left fun i h => ?_)
  exact (hi i h).bare_text

theorem wrap_injective : Function.Injective wrap :=
  fun _ _ same => List.append_cancel_right (List.cons.inj same).2

/-- What starts with a letter when the parentheses around it are off is what they were put around. -/
theorem strip_wrap_eq {core : List Char} (head : core.head? = some 'H') {pairs : Nat}
    (stripped : (strip (wrap^[pairs] core)).head? = some 'H') : strip (wrap^[pairs] core) = core := by
  induction pairs with
  | zero => exact strip_of_head head
  | succ pairs ih =>
    rw [Function.iterate_succ_apply'] at stripped ⊢
    cases found : unwrap? (wrap (wrap^[pairs] core)) with
    | none =>
      rw [strip_of_none found] at stripped
      cases stripped
    | some inside =>
      obtain rfl := wrap_injective (unwrap?_eq_some_iff.mp found).1
      rw [strip_of_some found] at stripped ⊢
      exact ih stripped

theorem normalize_hashSource_eq (is : List Identifier) :
    normalize (Statement.hashSource is).toList = bare (Statement.hashSource is).toList := by
  have head : (bare (Statement.hashSource is).toList).head? = some 'H' := by
    rw [bare_hashSource]
    rfl
  have form : bare (Statement.hashSource is).toList =
    (if false then computedBy else []) ++ wrap^[0] (bare (Statement.hashSource is).toList) := rfl
  exact (normalize_eq_strip head form).trans (strip_of_head head)

theorem bare_hashSource_inj (hi : ∀ i ∈ is, i.SpellsStored) (hj : ∀ j ∈ js, j.SpellsStored) :
    bare (Statement.hashSource is).toList = bare (Statement.hashSource js).toList ↔ is.map folded = js.map folded := by
  rw [bare_hashSource, bare_hashSource, bare_operands hi, bare_operands hj]
  constructor
  · intro same
    have listed := (List.cons.inj (List.append_cancel_left same)).2
    exact (joinWith_quoted_inj (by decide) (by decide) (by decide) listed).1
  · intro same
    rw [same]

/-- An index whose expression is taken for that of some columns is over columns of the same names, up to case and
blanks. -/
theorem Kept.folded_eq {keywords : Bool} {s : List Char} (hi : ∀ i ∈ is, i.SpellsStored)
    (hj : ∀ j ∈ js, j.SpellsStored) (kept : Kept (Statement.hashSource js).toList keywords s)
    (same : normalize s = normalize (Statement.hashSource is).toList) : js.map folded = is.map folded := by
  have head (ks : List Identifier) : (bare (Statement.hashSource ks).toList).head? = some 'H' := by
    rw [bare_hashSource]
    rfl
  obtain ⟨pairs, form⟩ := kept.bare_eq
  rw [normalize_eq_strip (head js) form, normalize_hashSource_eq] at same
  have stripped := strip_wrap_eq (head js) (same ▸ head is)
  exact (bare_hashSource_inj hj hi).mp (stripped.symm.trans same)

end Expression

/-- An index that is found by its expression is that of a row with the expression. -/
theorem firstIndexBy_ok {wanted : List Char} {rows : List Row} {found : String}
    (h : firstIndexBy wanted rows = .ok (some found)) :
    ∃ r ∈ rows, ∃ source name, r.getName? 1 = .ok (some source) ∧ Expression.normalize source.toList = wanted ∧
      r.getName 0 = .ok name ∧ found = Text.lowercase name := by
  induction rows with
  | nil => cases h
  | cons r rows ih =>
    have later (h : firstIndexBy wanted rows = .ok (some found)) :
        ∃ q ∈ r :: rows, ∃ source name, q.getName? 1 = .ok (some source) ∧ Expression.normalize source.toList = wanted ∧
          q.getName 0 = .ok name ∧ found = Text.lowercase name := by
      obtain ⟨q, hq, rest⟩ := ih h
      exact ⟨q, List.mem_cons_of_mem r hq, rest⟩
    rw [firstIndexBy] at h
    cases read : r.getName? 1 with
    | error e =>
      rw [read] at h
      cases h
    | ok source =>
      rw [read] at h
      cases source with
      | none => exact later h
      | some source =>
        by_cases same : Expression.normalize source.toList = wanted
        · cases named : r.getName 0 with
          | error e =>
            rw [named] at h
            exact absurd ((if_pos same).symm.trans h) (by intro h; cases h)
          | ok name =>
            rw [named] at h
            have first := Option.some.inj (Except.ok.inj ((if_pos same).symm.trans h))
            exact ⟨r, List.mem_cons_self, source, name, read, same, named, first.symm⟩
        · exact later ((if_neg same).symm.trans h)

/-- The row is that of an index over the hash of some columns, in whatever form its expression is kept. -/
def IsHashOf (e : Engine) (columns : List String) (r : Row) : Prop :=
  ∃ source keywords, r.get (Value.toOption Value.toText) 1 = .ok (some source) ∧
    Expression.Kept (e.hashSource columns).toList keywords source.toList

end Catalog

namespace Editor

open Action (Keeps Triple)
open Catalog (Cached)
open Identifier (Canonical catalogName folded)

variable {ed : Editor σ} {x : State (Noted σ Entry)} {p : Statement → Prop}

/-- Whether or not it came to an end, all statements that were emitted since a state are of one kind. -/
def Emits (ed : Editor σ) (p : Statement → Prop) (x y : State (Noted σ Entry)) : Prop :=
  ∃ entries, ed.emitted y = ed.emitted x ++ entries ∧ ∀ s, Entry.sent s ∈ entries → p s

theorem Emits.refl (x : State (Noted σ Entry)) : ed.Emits p x x := ⟨[], (List.append_nil _).symm, by simp⟩

theorem Emits.append {y z : State (Noted σ Entry)} (h : ed.Emits p x y) {entries : List Entry}
    (more : ed.emitted z = ed.emitted y ++ entries) (kind : ∀ s, Entry.sent s ∈ entries → p s) : ed.Emits p x z := by
  obtain ⟨before, emitted, earlier⟩ := h
  refine ⟨before ++ entries, by rw [more, emitted, List.append_assoc], fun s hs => ?_⟩
  exact (List.mem_append.mp hs).elim (earlier s) (kind s)

section Steps

variable (questions : ∀ q, p (.catalog q))

include questions

theorem run_keeps_emits (table : String) {s : Statement} (h : p s) : Keeps (ed.Emits p x) (ed.traced.run table s) := by
  intro y hy
  obtain ⟨xs, passes, same, -⟩ := attempt_run_emits table s y _ _ rfl
  refine hy.append passes fun t ht => ?_
  obtain ⟨exchange, hx, entry⟩ := List.mem_flatMap.mp ht
  cases exchange with
  | change t' =>
    obtain rfl : t = t' := by simpa [Exchange.entries] using entry
    rwa [same t (List.mem_filterMap.mpr ⟨_, hx, rfl⟩)]
  | question q rows =>
    obtain rfl : t = .catalog q := by simpa [Exchange.entries] using entry
    exact questions q

theorem ask_keeps_emits (q : CatalogQuery) : Keeps (ed.Emits p x) (onLink (Catalog.ask ed.traced.cursor q)) := by
  intro y hy
  cases hc : ed.collects with
  | true =>
    have nothing : ed.emitted (onLink (Catalog.ask ed.traced.cursor q) y).2 = ed.emitted y ++ [] := by
      rw [emitted_of_collects hc, emitted_of_collects hc, List.append_nil]
      rfl
    exact hy.append nothing (by simp)
  | false =>
    -- The question is noted before it is asked, so also if there is no answer to it.
    have noted := Cursor.noting_query_triple ed.cursor (fun s => [Entry.sent s]) (fun rows => [Entry.answered rows])
      (.catalog q) y.notes y.base.link rfl
    have asked : ∃ entries, State.notes (onLink (Catalog.ask ed.traced.cursor q) y).2 = y.notes ++ entries ∧
        ∀ s, Entry.sent s ∈ entries → s = .catalog q := by
      rw [onLink, onBase, Action.within_apply, Cached.onLink, Action.within_apply]
      revert noted
      change Action.Ends _ _ (Catalog.ask ed.traced.cursor q y.base.link) → _
      obtain ⟨r, link⟩ := Catalog.ask ed.traced.cursor q y.base.link
      cases r with
      | ok rows =>
        intro noted
        refine ⟨[.sent (.catalog q), .answered rows], (noted.of_ok rows link rfl).trans (List.append_assoc ..), ?_⟩
        simp
      | error e => exact fun noted => ⟨[.sent (.catalog q)], noted.of_error e link rfl, by simp⟩
    obtain ⟨entries, notes, only⟩ := asked
    have noted : ed.emitted (onLink (Catalog.ask ed.traced.cursor q) y).2 = ed.emitted y ++ entries := by
      rw [emitted_of_sends hc]
      exact notes
    exact hy.append noted fun s hs => only s hs ▸ questions q

end Steps

/-- What may be sent to drop the index over some columns. -/
inductive SentFor (ed : Editor σ) (table : String) (columns : List String) (unique : Bool) (x : State σ) :
    Statement → Prop where
  | question (q : CatalogQuery) : SentFor ed table columns unique x (.catalog q)
  /-- What is read of the table and is over just these columns is dropped. It has columns, so it is not over a hash. -/
  | direct : Cached.constraints ed.cursor ed.engine table x.base = (.ok cs, base) → c ∈ cs →
      isIndexOver columns unique c = true → c.columns ≠ [] → SentFor ed table columns unique x (ed.dropStatement table c)
  /-- An index that the catalog lists with an expression is dropped, under its own name if the catalog has that in upper
  case. If the expression is the hash of some columns, they have the same names, up to case and blanks. -/
  | hashed : Catalog.ask ed.cursor (.expressionIndexes (catalogName ed.engine table)) s = (.ok rows, t) → r ∈ rows →
      r.getName 0 = .ok name → i = ed.quote (Text.lowercase name) → (Canonical ed.engine name → i = .ofStored name) →
      (∀ others, (∀ i ∈ ed.quoteAll others, i.SpellsStored) → Catalog.IsHashOf ed.engine others r →
        (ed.quoteAll others).map folded = (ed.quoteAll columns).map folded) →
      SentFor ed table columns unique x (.dropIndex i)

variable {table : String} {columns : List String} {unique : Bool}

theorem columns_of_isIndexOver (nonempty : columns ≠ []) {c : Catalog.Constraint} (fits : isIndexOver columns unique c = true) :
    c.columns ≠ [] := by
  intro none
  have covers := (Bool.and_eq_true_iff.mp fits).1
  rw [Catalog.Constraint.covers, none, Bool.and_eq_true, beq_iff_eq] at covers
  exact nonempty (List.length_eq_zero_iff.mp covers.1.symm)

theorem constraintsWhere_sends (nonempty : columns ≠ []) :
    Triple (· = x) (ed.traced.constraintsWhere table (isIndexOver columns unique))
      (fun found y => (∀ c ∈ found, SentFor ed.traced table columns unique x (ed.traced.dropStatement table c)) ∧
        ed.Emits (SentFor ed.traced table columns unique x) x y)
      fun _ y => ed.Emits (SentFor ed.traced table columns unique x) x y := by
  have asks (q : CatalogQuery) : Keeps (ed.Emits (SentFor ed.traced table columns unique x) x)
      (onLink (Catalog.ask ed.traced.cursor q)) := ask_keeps_emits .question q
  have keeps := keeps_constraints (fun _ _ => id) asks ed.engine table
  refine Triple.bind (R := fun cs y => (∃ base, Cached.constraints ed.traced.cursor ed.engine table x.base = (.ok cs, base)) ∧
    ed.Emits (SentFor ed.traced table columns unique x) x y) ?_ fun cs => Triple.pure ?_
  · rintro y rfl
    have kept := keeps y (.refl y)
    change Action.Ends _ _ (onBase (Cached.constraints ed.traced.cursor ed.engine table) y)
    cases read : onBase (Cached.constraints ed.traced.cursor ed.engine table) y with
    | mk r z =>
      rw [read] at kept
      cases r with
      | ok cs => exact Action.ends_ok.mpr ⟨⟨z.base, onBase_ok read⟩, kept⟩
      | error e => exact Action.ends_error.mpr kept
  · rintro y ⟨⟨base, read⟩, emits⟩
    refine ⟨fun c hc => ?_, emits⟩
    obtain ⟨member, fits⟩ := List.mem_filter.mp hc
    exact .direct read member fits (columns_of_isIndexOver nonempty fits)

/-- The index that is found by the expression is one that may be dropped. -/
theorem expressionIndex?_sends (spells : ∀ i ∈ ed.quoteAll columns, i.SpellsStored) :
    Triple (ed.Emits (SentFor ed.traced table columns unique x) x)
      (onLink (Catalog.expressionIndex? ed.traced.cursor ed.engine table (ed.engine.hashSource columns)))
      (fun name y => (∀ n ∈ name, SentFor ed.traced table columns unique x (.dropIndex (ed.quote n))) ∧
        ed.Emits (SentFor ed.traced table columns unique x) x y)
      fun _ y => ed.Emits (SentFor ed.traced table columns unique x) x y := by
  have asks : Keeps (ed.Emits (SentFor ed.traced table columns unique x) x)
      (onLink (Catalog.ask ed.traced.cursor (.expressionIndexes (catalogName ed.engine table)))) :=
    ask_keeps_emits .question _
  have reads := asks.triple (R := fun rows => ∃ s t, Catalog.ask ed.traced.cursor
    (.expressionIndexes (catalogName ed.engine table)) s = (.ok rows, t)) fun y rows outcome =>
      ⟨_, _, onLink_ok (Prod.ext outcome rfl)⟩
  rw [Catalog.expressionIndex?, onLink_bind]
  refine reads.bind fun rows => Triple.lift.weaken (fun _ => id) ?_ fun _ _ h => h.2
  rintro found y ⟨read, ⟨s, t, asked⟩, emits⟩
  refine ⟨?_, emits⟩
  rintro name rfl
  obtain ⟨r, hr, source, stored, expression, same, named, rfl⟩ := Catalog.firstIndexBy_ok read
  refine .hashed asked hr named rfl Canonical.quote_lowercase fun others spells' => ?_
  rintro ⟨text, keywords, given, kept⟩
  -- What is read is trimmed, and a form of the expression that is trimmed is still one.
  have trimmed : source = Text.trimmed text := by
    rw [Row.getName?, given] at expression
    exact (Option.some.inj (Option.filter_eq_some_iff.mp (Except.ok.inj expression)).1).symm
  have stored : source.toList = Text.trim text.toList := by rw [trimmed, Text.trimmed, String.toList_ofList]
  exact Catalog.Expression.Kept.folded_eq spells spells' (stored ▸ kept.trim) same

theorem dropIndexOver_sendsFor (nonempty : columns ≠ []) (spells : ∀ i ∈ ed.quoteAll columns, i.SpellsStored)
    (x : State (Noted σ Entry)) :
    ed.Emits (SentFor ed.traced table columns unique x) x (ed.traced.dropIndexOver table columns unique x).2 := by
  have drops : Triple (· = x) (ed.traced.dropIndexOver table columns unique)
      (fun _ y => ed.Emits (SentFor ed.traced table columns unique x) x y)
      fun _ y => ed.Emits (SentFor ed.traced table columns unique x) x y := by
    refine (constraintsWhere_sends nonempty).bind fun found => ?_
    rintro y ⟨direct, emits⟩
    refine Action.ends_always.mpr ?_
    split
    · refine Action.ends_always.mp (Triple.bind (expressionIndex?_sends spells) (fun name => ?_) y emits)
      rintro z ⟨hashed, emits⟩
      refine Action.ends_always.mpr ?_
      cases name with
      | some name => exact run_keeps_emits .question table (hashed name rfl) z emits
      | none => exact emits
    · exact Keeps.forEach (fun c hc => run_keeps_emits .question table (direct c hc)) y emits
  exact Action.ends_always.mp (drops x rfl)

/-- Expressions over columns have one normal form just if the names of the columns are the same, up to case and blanks.
Then the columns are the same, if their names are in upper case and without blanks. Whatever comes of dropping the index
over some columns, no index over the hash of columns of other names is dropped for it. -/
theorem dropIndexOver_tells_columns (nonempty : columns ≠ []) (spells : ∀ i ∈ ed.quoteAll columns, i.SpellsStored)
    (table : String) (unique : Bool) :
    (∀ others, (∀ i ∈ ed.quoteAll others, i.SpellsStored) →
      (Catalog.Expression.normalized (ed.engine.hashSource columns) =
          Catalog.Expression.normalized (ed.engine.hashSource others) ↔
        (ed.quoteAll columns).map folded = (ed.quoteAll others).map folded)) ∧
    (∀ others, (∀ i ∈ ed.quoteAll columns, i.Settled) → (∀ i ∈ ed.quoteAll others, i.Settled) →
      (ed.quoteAll columns).map folded = (ed.quoteAll others).map folded → ed.quoteAll columns = ed.quoteAll others) ∧
    ∀ x : State (Noted σ Entry),
      ed.Emits (SentFor ed.traced table columns unique x) x (ed.traced.dropIndexOver table columns unique x).2 := by
  refine ⟨fun others spells' => ?_, fun others => Identifier.eq_of_folded, dropIndexOver_sendsFor nonempty spells⟩
  rw [Catalog.Expression.normalized, Catalog.Expression.normalized, String.ofList_inj, Engine.hashSource,
    Engine.hashSource, Catalog.Expression.normalize_hashSource_eq, Catalog.Expression.normalize_hashSource_eq]
  exact Catalog.Expression.bare_hashSource_inj spells spells'

namespace Hashed

def engine : Engine := ⟨⟨2, 5, 0, 0⟩⟩

/-- An editor of a table whose only index is computed by an expression. -/
def editorOf (expression : String) : Editor (List Row) where
  cursor := Catalog.clerk fun
    | .expressionIndexes _ => [⟨[.text "BOOK_HASH", .text expression]⟩]
    | _ => []
  engine := engine
  options := .standard
  collects := false

def start : State (Noted (List Row) Entry) := .ofBase ⟨⟨[], []⟩, .empty⟩

/-- What is noted when the unique index over a column is dropped. -/
def notesOf (column expression : String) : List Entry :=
  ((editorOf expression).traced.dropIndexOver "book" [column] true start).2.notes

end Hashed

open Hashed in
theorem dropIndexOver_tells_titles :
    let ed := editorOf "(hash(\"TITLE\"))"
    ["title"] ≠ [] ∧ (∀ i ∈ ed.quoteAll ["title"], i.SpellsStored) ∧
      Catalog.Expression.normalized (ed.engine.hashSource ["title"]) ≠
        Catalog.Expression.normalized (ed.engine.hashSource ["subtitle"]) ∧
      Entry.sent (.dropIndex (ed.quote "book_hash")) ∈ notesOf "title" "(hash(\"TITLE\"))" ∧
      SentFor ed.traced "book" ["title"] true start (.dropIndex (ed.quote "book_hash")) := by
  intro ed
  have nonempty : ["title"] ≠ [] := List.cons_ne_nil _ _
  have spells : ∀ i ∈ ed.quoteAll ["title"], i.SpellsStored := by decide +kernel
  have spells' : ∀ i ∈ ed.quoteAll ["subtitle"], i.SpellsStored := by decide +kernel
  obtain ⟨normal, -, emits⟩ := dropIndexOver_tells_columns nonempty spells "book" true
  have sent : Entry.sent (.dropIndex (ed.quote "book_hash")) ∈ notesOf "title" "(hash(\"TITLE\"))" := by decide +kernel
  refine ⟨nonempty, spells, ?_, sent, ?_⟩
  · exact (not_congr (normal ["subtitle"] spells')).mpr (by decide +kernel)
  · obtain ⟨entries, emitted, only⟩ := emits start
    have noted : notesOf "title" "(hash(\"TITLE\"))" = entries := emitted
    exact only _ (noted ▸ sent)

/-- The index over the hash of a book mark is dropped as that over the hash of a bookmark. -/
theorem dropIndexOver_confuses_bookmarks :
    Hashed.engine.hashSource ["book mark"] = "HASH(\"BOOK MARK\")" ∧
      Catalog.Expression.normalized "HASH(\"BOOK MARK\")" =
        Catalog.Expression.normalized (Hashed.engine.hashSource ["bookmark"]) ∧
      Identifier.quote Hashed.engine "book mark" ≠ Identifier.quote Hashed.engine "bookmark" ∧
      Entry.sent (.dropIndex (Identifier.quote Hashed.engine "book_hash")) ∈ Hashed.notesOf "bookmark" "HASH(\"BOOK MARK\")" :=
  ⟨by decide +kernel, by decide +kernel, by decide +kernel, by decide +kernel⟩

end Editor

end FirebirdSql
