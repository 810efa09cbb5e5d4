import FirebirdSql.Proofs.Catalog.Listing
import FirebirdSql.Proofs.Editor.Emission

/-!
How the indexes over some columns are found: by what the catalog lists, if nothing is remembered of the table. A
connection that answers is asked with success.
-/

namespace FirebirdSql

open Catalog
open Identifier (Canonical Simple catalogName ofStored)
open Exchange (changes)

namespace Fragment

/-- The text has no placeholder, and its quotes are closed. -/
structure Closed (s : List Char) : Prop where
  count : countFrom none s = 0
  scan : scan none s = none

theorem Closed.append {s t : List Char} (hs : Closed s) (ht : Closed t) : Closed (s ++ t) where
  count := by rw [countFrom_append, hs.count, hs.scan, ht.count]
  scan := by rw [Fragment.scan, List.foldl_append, ← Fragment.scan, ← Fragment.scan, hs.scan, ht.scan]

theorem Closed.validate {template : String} (h : Closed template.toList) : (sql template).validate = .ok () :=
  if_pos h.count

end Fragment

namespace Identifier

variable {e : Engine} {name : String}

/-- A stored name is quoted, whatever it holds. -/
theorem closed_ofStored (name : String) : Fragment.Closed (ofStored name).text.toList := by
  have inside (s : List Char) :
      Fragment.countFrom (some '"') (Text.replaceChar '"' ['"', '"'] s) = 0 ∧
        Fragment.scan (some '"') (Text.replaceChar '"' ['"', '"'] s) = some '"' := by
    induction s with
    | nil => exact ⟨rfl, rfl⟩
    | cons c s ih =>
      unfold Text.replaceChar at ih ⊢
      by_cases hc : c = '"'
      · simpa [hc, Fragment.countFrom, Fragment.scan, Fragment.isPlaceholder, Fragment.step] using ih
      · simpa [hc, Fragment.countFrom, Fragment.scan, Fragment.isPlaceholder, Fragment.step] using ih
  obtain ⟨count, scan⟩ := inside name.toList
  constructor
  · simp [ofStored, delimit, Fragment.countFrom_append, Fragment.countFrom, Fragment.isPlaceholder, Fragment.step, count]
  · have closes : Fragment.scan none (ofStored name).text.toList =
        Fragment.step (Fragment.scan (some '"') (Text.replaceChar '"' ['"', '"'] name.toList)) '"' := by
      simp [ofStored, delimit, Fragment.scan, Fragment.step]
    rw [closes, scan]
    rfl

theorem replaceChar_of_visible {s : List Char} (h : ∀ c ∈ s, Text.Visible c) :
    Text.replaceChar '"' ['"', '"'] s = s := by
  induction s with
  | nil => rfl
  | cons c s ih =>
    have hc : c ≠ '"' := (h c List.mem_cons_self).2.1
    have rest := ih fun d hd => h d (List.mem_cons_of_mem c hd)
    unfold Text.replaceChar at rest ⊢
    rw [List.flatMap_cons, rest, if_neg hc]
    rfl

/-- A simple name is quoted as the name that is stored for it. -/
theorem Simple.quote_eq (h : Simple name) : quote e name = ofStored (catalogName e name) := by
  have stored := replaceChar_of_visible (h.canonical (e := e)).simple.2
  rw [ofStored, stored, quote, catalogName, String.toList_ofList, quoteChars,
    if_neg (by rw [h.plain.not_delimited]; exact Bool.false_ne_true)]
  simp [undelimit, delimit]

theorem Canonical.quote_lowercase (h : Canonical e name) : quote e (Text.lowercase name) = ofStored name := by
  rw [h.simple_lowercase.quote_eq, h.catalogName_lowercase]

end Identifier

namespace ListedIndex

variable {e : Engine} {i : ListedIndex} {columns : List String} {unique : Bool} {table : String}

/-- The index, or the unique constraint that it belongs to, is over just these columns, unique or not. -/
def isOver (e : Engine) (columns : List String) (unique : Bool) (i : ListedIndex) : Bool :=
  i.columns == columns.map (catalogName e) &&
    match i.owner with
    | none => i.unique == unique
    | some (.unique, _) => unique
    | some _ => false

/-- The statement that drops it: with its constraint, if it has one. -/
def dropOf (table : Identifier) (i : ListedIndex) : Statement :=
  match i.owner with
  | none => .dropIndex (ofStored i.name)
  | some (_, name) => .dropConstraint table (ofStored name)

theorem covers_describe (hi : i.Proper e) (hs : ∀ c ∈ columns, Simple c ∧ c.toList.length ≤ e.identifierLimit) :
    i.describe.covers columns = (i.columns == columns.map (catalogName e)) := by
  have canonical := hi.columns
  rw [Constraint.covers, (describe_describes hi).columns]
  generalize i.columns = names at canonical
  -- Lists of different lengths cover nothing, so both are taken apart together.
  induction names generalizing columns with
  | nil => cases columns <;> rfl
  | cons n names ih =>
    cases columns with
    | nil => rfl
    | cons c columns =>
      have rest := ih (fun d hd => hs d (List.mem_cons_of_mem c hd)) fun d hd => canonical d (List.mem_cons_of_mem n hd)
      have same : Constraint.sameColumn (Text.lowercase n) c = (n == catalogName e c) := by
        obtain ⟨simple, short⟩ := hs c List.mem_cons_self
        rw [Bool.eq_iff_iff, beq_iff_eq]
        exact (canonical n List.mem_cons_self).sameAsciiLetters_iff simple short
      have length (n m : Nat) : (n + 1 == m + 1) = (n == m) := by rw [Bool.eq_iff_iff]; simp
      simp only [List.map_cons, List.length_cons, List.zip_cons_cons, List.all_cons, same, List.cons_beq_cons,
        length] at rest ⊢
      rw [← rest, Bool.and_left_comm]

theorem isIndexOver_describe (hi : i.Proper e) (hs : ∀ c ∈ columns, Simple c ∧ c.toList.length ≤ e.identifierLimit) :
    Editor.isIndexOver columns unique i.describe = i.isOver e columns unique := by
  have described := describe_describes hi
  rw [Editor.isIndexOver, isOver, covers_describe hi hs, described.kind]
  cases ho : i.owner with
  | none =>
    have kind : i.kind = .index := by rw [kind, ho]; rfl
    rw [kind, described.unique kind]
  | some owner =>
    obtain ⟨owner, name⟩ := owner
    have kind : i.kind = owner.kind := by rw [ListedIndex.kind, ho]; rfl
    rw [kind]
    cases owner <;> rfl

/-- What is read of an index is dropped as the index is. -/
theorem dropStatement_describe (ed : Editor σ) (hi : i.Proper ed.engine) (table : String) :
    ed.dropStatement table i.describe = i.dropOf (ed.quote table) := by
  have described := describe_describes hi
  have name : ed.quote i.describe.name = ofStored i.title := by
    rw [described.name]
    exact hi.title.quote_lowercase
  rw [Editor.dropStatement, described.kind, name, dropOf]
  cases ho : i.owner with
  | none =>
    have kind : i.kind = .index := by rw [kind, ho]; rfl
    have title : i.title = i.name := by rw [title, ho]; rfl
    rw [kind, title]
  | some owner =>
    obtain ⟨owner, name⟩ := owner
    have kind : i.kind = owner.kind := by rw [ListedIndex.kind, ho]; rfl
    have title : i.title = name := by rw [ListedIndex.title, ho]; rfl
    rw [kind, title]
    cases owner <;> rfl

end ListedIndex

/-! What is found in the catalog -/

namespace Listing

variable {e : Engine} {l : Listing} {columns : List String}

/-- The rows of the indexes and of the checks are read as they are described. -/
structure Legible (l : Listing) : Prop where
  indexes : Constraints.ofIndexRows (l.indexes.flatMap (·.rows)) = .ok (l.indexes.map (·.describe))
  checks : Constraints.ofCheckRows (l.checks.flatMap (·.rows)) = .ok (l.checks.map (·.describe))

theorem Proper.legible (hp : l.Proper e) : l.Legible where
  indexes := ListedIndex.ofIndexRows_rows hp.indexes (List.nodup_append.mp hp.names).1
  checks := ListedCheck.ofCheckRows_rows hp.checks (List.nodup_append.mp hp.names).2.1

/-- The statements that drop what is found over some columns are those of the listed indexes over them. -/
theorem drops_perm (ed : Editor σ) (hp : l.Proper ed.engine)
    (hs : ∀ c ∈ columns, Simple c ∧ c.toList.length ≤ ed.engine.identifierLimit) (unique : Bool) (table : String) :
    ((l.described.filter (Editor.isIndexOver columns unique)).map (ed.dropStatement table)).Perm
      ((l.indexes.filter (·.isOver ed.engine columns unique)).map (·.dropOf (ed.quote table))) := by
  refine (((described_perm hp).filter _).map _).trans (.of_eq ?_)
  have checks : (l.checks.map (·.describe)).filter (Editor.isIndexOver columns unique) = [] := by
    rw [List.filter_eq_nil_iff]
    intro c hc
    obtain ⟨k, -, rfl⟩ := List.mem_map.mp hc
    simp [Editor.isIndexOver]
  have indexes : l.indexes.filter (Editor.isIndexOver columns unique ∘ (·.describe)) =
      l.indexes.filter (·.isOver ed.engine columns unique) :=
    List.filter_congr fun i hi => ListedIndex.isIndexOver_describe (hp.indexes i hi) hs
  rw [List.filter_append, checks, List.append_nil, List.filter_map, indexes, List.map_map]
  refine List.map_congr_left fun i hi => ?_
  exact ListedIndex.dropStatement_describe ed (hp.indexes i (List.mem_filter.mp hi).1) table

end Listing

/-! Asking with success -/

namespace Action

/-- There is a result in this state. -/
def Succeeds (x : Action τ α) (s : τ) : Prop := ∃ a t, x s = (.ok a, t)

variable {x : Action τ α} {f : α → Action τ β} {s : τ}

theorem Succeeds.bind (hx : x.Succeeds s) (hf : ∀ a t, x s = (.ok a, t) → (f a).Succeeds t) : (x >>= f).Succeeds s := by
  obtain ⟨a, t, hx⟩ := hx
  obtain ⟨b, u, hf⟩ := hf a t hx
  exact ⟨b, u, (Action.bind_of_ok hx).trans hf⟩

theorem Succeeds.attempt_bind {f : Except Error α → Action τ β} (hx : x.Succeeds s)
    (hf : ∀ a t, (f (.ok a)).Succeeds t) : (x.attempt >>= f).Succeeds s := by
  obtain ⟨a, t, hx⟩ := hx
  obtain ⟨b, u, hf⟩ := hf a t
  refine ⟨b, u, (Action.bind_of_ok (a := .ok a) (t := t) ?_).trans hf⟩
  rw [attempt_apply, hx]

theorem Succeeds.lift_bind {r : Except Error α} {a : α} (hr : r = .ok a) (hf : (f a).Succeeds s) :
    (Action.lift r >>= f).Succeeds s := by
  obtain ⟨b, u, hf⟩ := hf
  exact ⟨b, u, (Action.bind_of_ok (show lift r s = (.ok a, s) from Prod.ext hr rfl)).trans hf⟩

theorem Succeeds.of_fst {a : α} (h : (x s).1 = .ok a) : x.Succeeds s := ⟨a, (x s).2, Prod.ext h rfl⟩

theorem Succeeds.forEach {f : α → Action τ Unit} {as : List α} (h : ∀ a ∈ as, ∀ t, (f a).Succeeds t) (s : τ) :
    (Action.forEach f as).Succeeds s := by
  induction as generalizing s with
  | nil => exact ⟨(), s, rfl⟩
  | cons a as ih => exact (h a List.mem_cons_self s).bind fun _ t _ => ih (fun b hb => h b (List.mem_cons_of_mem a hb)) t

end Action

/-- A connection that answers, and that takes what drops an index or a constraint. -/
structure Serves (c : Cursor σ) : Prop where
  execute : ∀ statement : Statement, statement.isCatalogRead = true ∨ statement.drops = true →
    ∀ s, (c.execute statement).Succeeds s
  fetchAll : ∀ s, c.fetchAll.Succeeds s
  commit : ∀ s, c.commit.Succeeds s

namespace Serves

variable {c : Cursor σ} {ed : Editor σ} (hs : Serves c) (he : Serves ed.cursor)

include hs in
theorem ask (q : CatalogQuery) (s : σ) : (ask c q).Succeeds s :=
  (hs.execute _ (.inl rfl) s).bind fun _ t _ => hs.fetchAll t

include hs in
theorem traced : Serves c.traced where
  execute statement h s := by
    obtain ⟨_, t, done⟩ := hs.execute statement h s.link
    exact .of_fst (a := ()) (congrArg Prod.fst done)
  fetchAll s := by
    obtain ⟨rows, t, done⟩ := hs.fetchAll s.link
    exact .of_fst ((c.noting_fetchAll_follows _ _ s).1.trans (congrArg Prod.fst done))
  commit s := by
    obtain ⟨_, t, done⟩ := hs.commit s.link
    exact .of_fst (a := ()) (congrArg Prod.fst done)

include he in
/-- What drops something is carried out or collected, if it has no placeholders. -/
theorem run {statement : Statement} (hd : statement.drops = true) (hv : statement.fragment.validate = .ok ())
    (table : String) (x : Editor.State σ) : (ed.run table statement).Succeeds x := by
  have sent (s : σ) : (ed.send statement).Succeeds s := by
    have executed := he.execute statement (.inr hd) s
    unfold Editor.send
    split
    · exact (executed.bind fun _ t _ => he.commit t).attempt_bind fun _ t => ⟨(), t, rfl⟩
    · exact executed.attempt_bind fun _ t => ⟨(), t, rfl⟩
  cases hc : ed.collects with
  | true => exact .of_fst ((Editor.run_collects hc table statement x).1.trans hv)
  | false =>
    have executed : (ed.execute statement).Succeeds x := by
      obtain ⟨_, t, h⟩ := sent x.base.link
      refine .of_fst (a := ()) ?_
      rw [Editor.execute, Action.bind_apply, Action.lift_apply, hv, if_neg (by rw [hc]; exact Bool.false_ne_true)]
      exact congrArg Prod.fst h
    exact executed.attempt_bind fun _ t => ⟨(), _, rfl⟩

end Serves

/-- A connection where the catalog lists the indexes and the checks of a table. To ask for them changes nothing. -/
structure Lists (c : Cursor σ) (relation : String) (listing : σ → Listing) : Prop where
  indexes : ∀ s rows t, ask c (.indexes relation) s = (.ok rows, t) →
    rows = (listing s).indexes.flatMap (·.rows) ∧ listing t = listing s
  checks : ∀ s rows t, ask c (.checks relation) s = (.ok rows, t) →
    rows = (listing s).checks.flatMap (·.rows) ∧ listing t = listing s
  expressions : ∀ s rows t, ask c (.expressionIndexes relation) s = (.ok rows, t) →
    rows = ListedIndex.expressionRows (listing s).indexes

namespace Lists

variable {c : Cursor σ} {e : Engine} {table : String} {listing : σ → Listing}

theorem traced {relation : String} (h : Lists c relation listing) :
    Lists c.traced relation fun s : Noted σ Entry => listing s.link where
  indexes s rows t asked := h.indexes s.link rows t.link (c.ask_plain asked)
  checks s rows t asked := h.checks s.link rows t.link (c.ask_plain asked)
  expressions s rows t asked := h.expressions s.link rows t.link (c.ask_plain asked)

variable (hl : Lists c (catalogName e table) listing)

include hl

theorem readConstraints_ok {s t : σ} {cs : List Constraint} (hp : (listing s).Legible)
    (h : readConstraints c e table s = (.ok cs, t)) : cs = (listing s).described ∧ listing t = listing s := by
  obtain ⟨rows, u, asked, h⟩ := Action.bind_ok h
  obtain ⟨found, v, read, h⟩ := Action.bind_ok h
  obtain ⟨rows', w, asked', h⟩ := Action.bind_ok h
  obtain ⟨checks, z, read', h⟩ := Action.bind_ok h
  obtain ⟨hr, rfl⟩ := Prod.mk.inj read
  obtain ⟨hr', rfl⟩ := Prod.mk.inj read'
  obtain ⟨hc, rfl⟩ := Prod.mk.inj h
  obtain ⟨rfl, same⟩ := hl.indexes _ _ _ asked
  obtain ⟨rfl, same'⟩ := hl.checks _ _ _ asked'
  rw [hp.indexes] at hr
  rw [same, hp.checks] at hr'
  obtain rfl := Except.ok.inj hr
  obtain rfl := Except.ok.inj hr'
  exact ⟨(Except.ok.inj hc).symm, same'.trans same⟩

theorem readConstraints_succeeds (hs : Serves c) {s : σ} (hp : (listing s).Legible) :
    (readConstraints c e table).Succeeds s := by
  refine (hs.ask _ s).bind fun rows t asked => ?_
  obtain ⟨rfl, same⟩ := hl.indexes _ _ _ asked
  refine .lift_bind hp.indexes ?_
  refine (hs.ask _ t).bind fun rows v asked' => ?_
  obtain ⟨rfl, -⟩ := hl.checks _ _ _ asked'
  rw [same]
  exact .lift_bind hp.checks ⟨_, v, rfl⟩

theorem expressionIndex?_ok {s t : σ} (hp : (listing s).Proper e) {source : String} {name : Option String}
    (h : expressionIndex? c e table source s = (.ok name, t)) :
    name = ((listing s).indexes.find? (·.computes (Expression.normalize source.toList))).map fun i =>
      Text.lowercase i.name := by
  obtain ⟨rows, u, asked, h⟩ := Action.bind_ok h
  obtain ⟨hr, -⟩ := Prod.mk.inj h
  obtain rfl := hl.expressions _ _ _ asked
  rw [ListedIndex.firstIndexBy_rows hp.indexes] at hr
  exact (Except.ok.inj hr).symm

theorem expressionIndex?_succeeds (hs : Serves c) {s : σ} (hp : (listing s).Proper e) (source : String) :
    (expressionIndex? c e table source).Succeeds s := by
  refine (hs.ask _ _).bind fun rows t asked => ?_
  obtain rfl := hl.expressions _ _ _ asked
  exact ⟨_, t, Prod.ext (ListedIndex.firstIndexBy_rows hp.indexes _) rfl⟩

end Lists

namespace Editor

/-- What is remembered of the table is what the catalog lists. -/
def Recalls (listing : σ → Listing) (table : String) (x : State σ) : Prop :=
  ∀ cs, x.base.cache.constraints? table = some cs → cs = (listing x.base.link).described

variable {ed : Editor σ} {table : String} {listing : σ → Listing} {x y : State σ}

theorem onLink_succeeds {α : Type} {y : Action σ α} (h : y.Succeeds x.base.link) : (onLink y).Succeeds x := by
  obtain ⟨a, t, h⟩ := h
  exact .of_fst (congrArg Prod.fst h)

theorem constraintsWhere_ok (hl : Lists ed.cursor (catalogName ed.engine table) listing)
    (hp : (listing x.base.link).Legible) (hx : Recalls listing table x) {select : Constraint → Bool}
    {found : List Constraint} (h : ed.constraintsWhere table select x = (.ok found, y)) :
    found = (listing x.base.link).described.filter select ∧ listing y.base.link = listing x.base.link := by
  obtain ⟨cs, z, read, h⟩ := Action.bind_ok h
  obtain ⟨hr, rfl⟩ := Prod.mk.inj h
  obtain rfl := Except.ok.inj hr
  have read := onBase_ok read
  cases hc : x.base.cache.constraints? table with
  | some known =>
    rw [Cached.constraints_hit _ _ _ _ hc] at read
    obtain ⟨hr, base⟩ := Prod.mk.inj read
    obtain rfl := Except.ok.inj hr
    rw [← base, hx _ hc]
    exact ⟨rfl, rfl⟩
  | none =>
    rw [Cached.constraints_miss _ _ _ _ hc] at read
    cases listed : readConstraints ed.cursor ed.engine table x.base.link with
    | mk r link =>
      rw [listed] at read
      cases r with
      | error error => exact absurd (congrArg Prod.fst read) (by simp)
      | ok constraints =>
        obtain ⟨rfl, same⟩ := hl.readConstraints_ok hp listed
        obtain ⟨hr, base⟩ := Prod.mk.inj read
        obtain rfl := Except.ok.inj hr
        rw [← base]
        exact ⟨rfl, same⟩

theorem constraintsWhere_succeeds (hl : Lists ed.cursor (catalogName ed.engine table) listing) (hs : Serves ed.cursor)
    (hp : (listing x.base.link).Legible) (select : Constraint → Bool) :
    (ed.constraintsWhere table select).Succeeds x := by
  have read : (onBase (Cached.constraints ed.cursor ed.engine table)).Succeeds x := by
    obtain ⟨cs, t, read⟩ := hl.readConstraints_succeeds hs hp
    cases hc : x.base.cache.constraints? table with
    | some known =>
      refine .of_fst (a := known) ?_
      rw [onBase, Action.within_apply, Cached.constraints_hit _ _ _ _ hc]
    | none =>
      refine .of_fst (a := cs) ?_
      rw [onBase, Action.within_apply, Cached.constraints_miss _ _ _ _ hc, read]
  exact read.bind fun cs t _ => ⟨_, t, rfl⟩

end Editor

end FirebirdSql
