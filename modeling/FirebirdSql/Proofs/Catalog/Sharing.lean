import FirebirdSql.Proofs.Catalog.Cache
import FirebirdSql.Proofs.DelimitedName
import FirebirdSql.Proofs.Triple
import Mathlib.Data.List.Pairwise

/-!
Reading a catalog that does not change, through the cache and without it. What was read of a table is given out for
every name that shares its place in the cache, so both ways agree as long as such names mean one table.
-/

namespace FirebirdSql.Catalog

open Action (results)

/-- What can be read of a table through the cache. -/
inductive Inquiry where
  | columns (table : String)
  | constraints (table : String)
  deriving DecidableEq, Repr

inductive Description where
  | columns (columns : List Column)
  | constraints (constraints : List Constraint)
  deriving DecidableEq, Repr

namespace Inquiry

def table : Inquiry → String
  | .columns table | .constraints table => table

/-- Both share a place in the cache. -/
def Shares : Inquiry → Inquiry → Prop
  | .columns s, .columns t | .constraints s, .constraints t => Cache.key s = Cache.key t
  | _, _ => False

instance : DecidableRel Shares := fun a b => by
  cases a <;> cases b <;> unfold Shares <;> infer_instance

variable (c : Cursor σ) (e : Engine)

def direct : Inquiry → Action σ Description
  | .columns table => .columns <$> readColumns c e table
  | .constraints table => .constraints <$> readConstraints c e table

def cached : Inquiry → Action (Cached σ) Description
  | .columns table => .columns <$> Cached.columns c e table
  | .constraints table => .constraints <$> Cached.constraints c e table

/-- What is read of a table, from the rows that answer each question. -/
def describe (reply : CatalogQuery → Except Error (List Row)) : Inquiry → Except Error Description
  | .columns table => .columns <$> do
    let rows ← reply (.columns (Identifier.catalogName e table))
    rows.mapM Column.ofRow
  | .constraints table => .constraints <$> do
    let rows ← reply (.indexes (Identifier.catalogName e table))
    let constraints ← Constraints.ofIndexRows rows
    let rows ← reply (.checks (Identifier.catalogName e table))
    let checks ← Constraints.ofCheckRows rows
    return Constraints.merge constraints checks

/-- What the cache has. -/
def found (cache : Cache) : Inquiry → Option Description
  | .columns table => .columns <$> cache.columns? table
  | .constraints table => .constraints <$> cache.constraints? table

end Inquiry

/-- The outcome depends on nothing but the answers of the catalog, which it leaves as they are. -/
def Reads (catalog : σ → CatalogQuery → Except Error (List Row)) (x : Action σ α)
    (g : (CatalogQuery → Except Error (List Row)) → Except Error α) : Prop :=
  ∀ s, (x s).1 = g (catalog s) ∧ catalog (x s).2 = catalog s

/-- The catalog does not change: whatever was asked, each question is answered as before, by rows or by a failure. -/
def Steady (c : Cursor σ) (catalog : σ → CatalogQuery → Except Error (List Row)) : Prop :=
  ∀ q, Reads catalog (ask c q) (· q)

variable {c : Cursor σ} {e : Engine} {catalog : σ → CatalogQuery → Except Error (List Row)}

namespace Reads

theorem lift (r : Except Error α) : Reads catalog (Action.lift r) fun _ => r := fun _ => ⟨rfl, rfl⟩

theorem bind {x : Action σ α} {f : α → Action σ β} {g : (CatalogQuery → Except Error (List Row)) → Except Error α}
    {k : α → (CatalogQuery → Except Error (List Row)) → Except Error β} (hx : Reads catalog x g)
    (hf : ∀ a, Reads catalog (f a) (k a)) : Reads catalog (x >>= f) fun reply => g reply >>= (k · reply) := by
  intro s
  obtain ⟨outcome, stays⟩ := hx s
  rw [Action.bind_apply]
  dsimp only
  rw [← outcome, ← stays]
  obtain ⟨r, t⟩ := x s
  cases r with
  | ok a => exact hf a t
  | error error => exact ⟨rfl, rfl⟩

theorem map {x : Action σ α} {g : (CatalogQuery → Except Error (List Row)) → Except Error α} (f : α → β)
    (hx : Reads catalog x g) : Reads catalog (f <$> x) fun reply => f <$> g reply :=
  hx.bind fun a => lift (.ok (f a))

end Reads

/-- Without the cache, a description depends on the answers of the catalog only. -/
theorem Steady.direct (h : Steady c catalog) (i : Inquiry) : Reads catalog (i.direct c e) (i.describe e) := by
  cases i with
  | columns table => exact .map _ ((h _).bind fun rows => .lift _)
  | constraints table =>
    exact .map _ ((h _).bind fun rows => .bind (.lift _) fun constraints => (h _).bind fun rows =>
      .bind (.lift _) fun checks => .lift (.ok _))

theorem Steady.results_direct (h : Steady c catalog) (calls : List Inquiry) (s : σ) :
    results (Inquiry.direct c e) calls s = calls.map (Inquiry.describe e (catalog s)) := by
  induction calls generalizing s with
  | nil => rfl
  | cons i rest ih =>
    obtain ⟨described, stays⟩ := h.direct (e := e) i s
    rw [results, ih, described, stays, List.map_cons]

namespace Inquiry

variable {i j : Inquiry} {b : Cached σ}

theorem Shares.found_eq (h : i.Shares j) (cache : Cache) : i.found cache = j.found cache := by
  cases i <;> cases j <;> simp_all [Shares, found, Cache.columns?, Cache.constraints?]

theorem cached_hit {d : Description} (h : i.found b.cache = some d) : i.cached c e b = (.ok d, b) := by
  cases i with
  | columns table =>
    obtain ⟨columns, hit, rfl⟩ := Option.map_eq_some_iff.mp h
    rw [cached, map_eq_pure_bind, Action.bind_apply, Cached.columns_hit c e table b hit]
    rfl
  | constraints table =>
    obtain ⟨constraints, hit, rfl⟩ := Option.map_eq_some_iff.mp h
    rw [cached, map_eq_pure_bind, Action.bind_apply, Cached.constraints_hit c e table b hit]
    rfl

theorem found_putColumns (cache : Cache) (table : String) (columns : List Column) :
    j.found (cache.putColumns table columns) =
      if j.Shares (.columns table) then some (.columns columns) else j.found cache := by
  cases j with
  | columns other =>
    simp only [found, Shares, Cache.columns?_putColumns]
    exact apply_ite ..
  | constraints other => rfl

theorem found_putConstraints (cache : Cache) (table : String) (constraints : List Constraint) :
    j.found (cache.putConstraints table constraints) =
      if j.Shares (.constraints table) then some (.constraints constraints) else j.found cache := by
  cases j with
  | columns other => rfl
  | constraints other =>
    simp only [found, Shares, Cache.constraints?_putConstraints]
    exact apply_ite ..

theorem found_of_none (h : i.found b.cache = none) :
    j.found b.cache = if j.Shares i then none else j.found b.cache := by
  split
  · next shares => rw [shares.found_eq, h]
  · rfl

/-- What the cache does not have is read, and kept for all that share its place. -/
theorem cached_miss (h : i.found b.cache = none) :
    (i.cached c e b).1 = (i.direct c e b.link).1 ∧ (i.cached c e b).2.link = (i.direct c e b.link).2 ∧
      ∀ j : Inquiry, j.found (i.cached c e b).2.cache =
        if j.Shares i then (i.direct c e b.link).1.toOption else j.found b.cache := by
  cases i with
  | columns table =>
    rw [cached, direct, map_eq_pure_bind, map_eq_pure_bind, Action.bind_apply, Action.bind_apply,
      Cached.columns_miss c e table b (Option.map_eq_none_iff.mp h)]
    obtain ⟨r, link⟩ := readColumns c e table b.link
    cases r with
    | error error => exact ⟨rfl, rfl, fun j => found_of_none h⟩
    | ok columns => exact ⟨rfl, rfl, fun j => found_putColumns b.cache table columns⟩
  | constraints table =>
    rw [cached, direct, map_eq_pure_bind, map_eq_pure_bind, Action.bind_apply, Action.bind_apply,
      Cached.constraints_miss c e table b (Option.map_eq_none_iff.mp h)]
    obtain ⟨r, link⟩ := readConstraints c e table b.link
    cases r with
    | error error => exact ⟨rfl, rfl, fun j => found_of_none h⟩
    | ok constraints => exact ⟨rfl, rfl, fun j => found_putConstraints b.cache table constraints⟩

end Inquiry

/-- Through the cache, what it has is given out, and what was read is kept for all that share its place. -/
theorem Steady.cached (h : Steady c catalog) (i : Inquiry) (b : Cached σ) :
    (i.cached c e b).1 = ((i.found b.cache).map .ok).getD (i.describe e (catalog b.link)) ∧
      catalog (i.cached c e b).2.link = catalog b.link ∧
      ∀ j : Inquiry, j.found (i.cached c e b).2.cache =
        (j.found b.cache).or (if j.Shares i then (i.describe e (catalog b.link)).toOption else none) := by
  obtain ⟨described, stays⟩ := h.direct (e := e) i b.link
  cases hit : i.found b.cache with
  | some d =>
    rw [Inquiry.cached_hit hit]
    refine ⟨rfl, rfl, fun j => ?_⟩
    by_cases shares : j.Shares i
    · rw [shares.found_eq, hit, Option.some_or]
    · rw [if_neg shares, Option.or_none]
  | none =>
    obtain ⟨outcome, link, kept⟩ := Inquiry.cached_miss (c := c) (e := e) hit
    rw [outcome, link, described]
    refine ⟨rfl, stays, fun j => ?_⟩
    rw [kept, described]
    by_cases shares : j.Shares i
    · rw [if_pos shares, if_pos shares, shares.found_eq, hit, Option.none_or]
    · rw [if_neg shares, if_neg shares, Option.or_none]

/-- Where all that is cached is as the catalog has it, both ways agree on some calls exactly if each answer to one of
them is also the answer to the later ones that share its place. -/
theorem Steady.results_cached_iff (h : Steady c catalog) (calls : List Inquiry) (b : Cached σ) :
    results (Inquiry.cached c e) calls b = calls.map (Inquiry.describe e (catalog b.link)) ↔
      (∀ i ∈ calls, ∀ d, i.found b.cache = some d → i.describe e (catalog b.link) = .ok d) ∧
        calls.Pairwise fun i j => j.Shares i → ∀ d, i.describe e (catalog b.link) = .ok d →
          j.describe e (catalog b.link) = .ok d := by
  induction calls generalizing b with
  | nil => simp [results]
  | cons i rest ih =>
    obtain ⟨outcome, stays, kept⟩ := h.cached (e := e) i b
    rw [results, List.map_cons, List.cons.injEq, ← stays, ih, stays, outcome, List.pairwise_cons, List.forall_mem_cons]
    have head : ((i.found b.cache).map .ok).getD (i.describe e (catalog b.link)) = i.describe e (catalog b.link) ↔
        ∀ d, i.found b.cache = some d → i.describe e (catalog b.link) = .ok d := by
      cases i.found b.cache with
      | none => simp
      | some d => simp [eq_comm]
    rw [head]
    constructor
    · rintro ⟨here, later, pairs⟩
      refine ⟨⟨here, fun j hj d hd => later j hj d ?_⟩, fun j hj shares d hd => later j hj d ?_, pairs⟩
      · rw [kept, hd, Option.some_or]
      · rw [kept, if_pos shares, shares.found_eq, hd]
        cases hit : i.found b.cache with
        | none => rfl
        | some d' =>
          obtain rfl := Except.ok.inj (hd.symm.trans (here d' hit))
          rfl
    · rintro ⟨⟨here, later⟩, shared, pairs⟩
      refine ⟨here, fun j hj d hd => ?_, pairs⟩
      rw [kept] at hd
      rcases Option.or_eq_some_iff.mp hd with hit | ⟨-, read⟩
      · exact later j hj d hit
      split at read
      · next shares =>
        refine shared j hj shares d ?_
        cases outcome : i.describe e (catalog b.link) with
        | ok d' =>
          rw [outcome] at read
          exact congrArg _ (Option.some.inj read)
        | error error =>
          rw [outcome] at read
          cases read
      · cases read

/-- A connection to a catalog, with the rows that are still to be fetched. -/
def clerk (reply : CatalogQuery → List Row) : Cursor (List Row) where
  execute
    | .catalog q => Action.modify fun _ => reply q
    | _ => Action.modify fun _ => []
  fetchOne := return (← Action.get).head?
  fetchAll := Action.get
  start _ := return ()
  commit := return ()
  rollback := return ()
  serverVersion := return ""

theorem steady_clerk (reply : CatalogQuery → List Row) : Steady (clerk reply) fun _ q => .ok (reply q) :=
  fun _ _ => ⟨rfl, rfl⟩

/-- The catalog of one table, with one column that is indexed. -/
def only (relation : String) : CatalogQuery → List Row
  | .columns name =>
    if name = relation then [⟨[.text "ID", .int 8, .null, .int 4, .null, .null, .int 0, .int 1, .null]⟩] else []
  | .indexes name =>
    if name = relation then [⟨[.null, .null, .text "BY_ID", .text "ID", .int 0, .int 0, .null, .null, .null]⟩] else []
  | _ => []

def Description.isBlank : Description → Bool
  | .columns read => read.isEmpty
  | .constraints read => read.isEmpty

theorem describe_only (i : Inquiry) (relation : String) :
    ∃ d, i.describe e (fun q => .ok (only relation q)) = .ok d ∧
      (d.isBlank = true ↔ Identifier.catalogName e i.table ≠ relation) := by
  cases i with
  | columns table =>
    by_cases known : Identifier.catalogName e table = relation
    · simp only [Inquiry.describe, Inquiry.table, only, known, if_true]
      exact ⟨_, rfl, by simp [Description.isBlank]⟩
    · simp only [Inquiry.describe, Inquiry.table, only, known, if_false]
      exact ⟨_, rfl, by simp [Description.isBlank, known]⟩
  | constraints table =>
    by_cases known : Identifier.catalogName e table = relation
    · simp only [Inquiry.describe, Inquiry.table, only, known, if_true]
      refine ⟨_, rfl, ?_⟩
      simp [Description.isBlank, Constraints.merge, Constraints.put]
    · simp only [Inquiry.describe, Inquiry.table, only, known, if_false]
      exact ⟨_, rfl, by simp [Description.isBlank, known, Constraints.merge]⟩

namespace Inquiry

variable {i j : Inquiry}

theorem Shares.symm (h : i.Shares j) : j.Shares i := by
  cases i <;> cases j <;> simp_all [Shares]

theorem Shares.key_eq (h : i.Shares j) : Cache.key i.table = Cache.key j.table := by
  cases i <;> cases j <;> simp_all [Shares, table]

/-- Sharing a place, both ask about one table. -/
def OneTable (e : Engine) (i j : Inquiry) : Prop :=
  i.Shares j → Identifier.catalogName e i.table = Identifier.catalogName e j.table

instance (e : Engine) : Std.Symm (OneTable e) := ⟨fun _ _ h shares => (h shares.symm).symm⟩

/-- Names of one table are described alike. -/
theorem Shares.describe_eq (h : i.Shares j)
    (same : Identifier.catalogName e i.table = Identifier.catalogName e j.table)
    (reply : CatalogQuery → Except Error (List Row)) : i.describe e reply = j.describe e reply := by
  cases i <;> cases j <;> simp_all [Shares, describe, table]

/-- Names of two tables are told apart by a catalog that has one of the tables only. -/
theorem catalogName_eq_of_describe
    (h : ∀ d, i.describe e (fun q => .ok (only (Identifier.catalogName e i.table) q)) = .ok d →
      j.describe e (fun q => .ok (only (Identifier.catalogName e i.table) q)) = .ok d) :
    Identifier.catalogName e j.table = Identifier.catalogName e i.table := by
  by_contra different
  obtain ⟨d, described, known⟩ := describe_only (e := e) i (Identifier.catalogName e i.table)
  obtain ⟨d', described', unknown⟩ := describe_only (e := e) j (Identifier.catalogName e i.table)
  obtain rfl := Except.ok.inj ((h d described).symm.trans described')
  exact known.mp (unknown.mpr different) rfl

end Inquiry

/-- Through an empty cache every call has the same outcome as without one, whatever the catalog holds, exactly if no two
calls for one thing name tables that are delimited in different spellings of the same letters. -/
theorem results_cached_eq_direct_iff (e : Engine) (calls : List Inquiry) :
    (∀ (σ : Type) (c : Cursor σ) (catalog : σ → CatalogQuery → Except Error (List Row)) (s : σ), Steady c catalog →
      results (Inquiry.cached c e) calls ⟨s, .empty⟩ = results (Inquiry.direct c e) calls s) ↔
    ∀ i ∈ calls, ∀ j ∈ calls, i.Shares j → Identifier.isDelimited i.table.toList = true → i.table = j.table := by
  have shared (i j : Inquiry) :
      (i.Shares j → Identifier.isDelimited i.table.toList = true → i.table = j.table) ↔ i.OneTable e j :=
    forall_congr' fun shares => (Identifier.catalogName_eq_iff_of_key e shares.key_eq).symm
  simp only [shared]
  constructor
  · intro agree
    refine fun i hi j hj => List.Pairwise.forall_of_forall (R := Inquiry.OneTable e) (fun i _ _ => rfl) ?_ hi hj
    rw [List.pairwise_iff_getElem]
    intro m n hm hn before shares
    have steady := steady_clerk (only (Identifier.catalogName e calls[m].table))
    have same := agree _ _ _ [] steady
    rw [steady.results_direct, steady.results_cached_iff, List.pairwise_iff_getElem] at same
    exact (Inquiry.catalogName_eq_of_describe (same.2 m n hm hn before shares.symm)).symm
  · intro one σ c catalog s steady
    rw [steady.results_direct, steady.results_cached_iff]
    refine ⟨fun i _ d hit => ?_, List.pairwise_of_forall_mem_list fun i hi j hj shares d described => ?_⟩
    · cases i <;> cases hit
    · rw [← described]
      exact shares.describe_eq (one j hj i hi shares) _

/-- The columns of a table are given out for another table, whose name is spelled with the same letters. -/
theorem results_cached_ne_direct :
    Steady (clerk (only "Book")) (fun _ q => .ok (only "Book" q)) ∧
      results (Inquiry.cached (clerk (only "Book")) ⟨⟨3, 0, 0, 0⟩⟩)
          [.columns "\"Book\"", .columns "\"BOOK\""] ⟨[], .empty⟩ ≠
        results (Inquiry.direct (clerk (only "Book")) ⟨⟨3, 0, 0, 0⟩⟩)
          [.columns "\"Book\"", .columns "\"BOOK\""] [] := by
  refine ⟨steady_clerk _, fun same => ?_⟩
  rw [(steady_clerk _).results_direct, (steady_clerk _).results_cached_iff] at same
  have book : Identifier.catalogName ⟨⟨3, 0, 0, 0⟩⟩ "\"Book\"" = "Book" := by decide +kernel
  have shares : (Inquiry.columns "\"BOOK\"").Shares (.columns "\"Book\"") := by decide +kernel
  have served := (List.pairwise_cons.mp same.2).1 _ (List.mem_singleton_self _) shares
  have one := Inquiry.catalogName_eq_of_describe (i := .columns "\"Book\"") (j := .columns "\"BOOK\"")
    (by rwa [Inquiry.table, book])
  exact absurd one (by decide +kernel)

end FirebirdSql.Catalog
