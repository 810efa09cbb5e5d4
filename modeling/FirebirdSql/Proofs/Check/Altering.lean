import FirebirdSql.Proofs.Check.Ledger

/-!
The checks of a table after a field was altered. All that mention the column are dropped if the check of the field has
to be made anew, and only that one is made.
-/

namespace FirebirdSql

open Catalog
open Action (Keeps Triple)
open Identifier (Simple)

namespace Alteration

variable (a : Alteration) (e : Engine) (o : Options)

/-- The clauses of the checks that are made. -/
def checkClauses : List String :=
  if a.changesCheck e then (a.new.check? e).toList.map fun check => "CHECK (" ++ check ++ ")" else []

theorem checkStatements_eq : a.checkStatements e =
    (a.checkClauses e).map fun clause => a.constraintStatement e "_check" (.check clause) := by
  unfold checkStatements checkClauses
  cases a.changesCheck e with
  | false => cases a.new.check? e <;> rfl
  | true => cases a.new.check? e <;> rfl

theorem leavesChecks_columnStatements : ∀ s ∈ a.columnStatements e o, s.leavesChecks = true := by
  intro s hs
  cases changesColumn_of_mem hs <;> rfl

end Alteration

namespace Editor

namespace Guards

variable {ed : Editor σ} {a : Alteration} {listing : σ → Listing} {checks : List ListedCheck}
variable (hg : Guards ed a.table listing)

include hg

/-! What keeps the checks -/

theorem dropOwnForeignKey_keeps : Keeps (ed.HasChecks a.table listing checks) (ed.dropOwnForeignKey a) := by
  refine Keeps.ite (fun _ => hg.dropWhere_keeps fun c selected kind => ?_) fun _ => Keeps.pure ()
  simp [isForeignKeyOver, kind] at selected

theorem dropIncoming_keeps {keys : List IncomingKey}
    (h : ∀ key ∈ keys, ∀ k ∈ checks, k.name ≠ (ed.quote key.name).stored) :
    Keeps (ed.HasChecks a.table listing checks) (ed.dropIncoming keys) :=
  Keeps.forEach fun key hk => hg.run_keeps (.dropConstraint (h key hk)) key.table

theorem addIncoming_keeps (table target : String) (keys : List IncomingKey) :
    Keeps (ed.HasChecks a.table listing checks) (ed.addIncoming table target keys) :=
  Keeps.forEach fun key _ => hg.run_keeps (.of_leavesChecks rfl) key.table

theorem takeIncoming_keeps : Keeps (ed.HasChecks a.table listing checks) (ed.takeIncoming a) := by
  unfold takeIncoming
  refine Action.keeps_iff_triple.mpr ?_
  split
  · refine (hg.incomingKeys_apart _).bind fun keys => ?_
    rintro x ⟨apart, hx⟩
    exact Action.keeps_iff_triple.mp ((hg.dropIncoming_keeps apart).bind fun _ => Keeps.pure _) x hx
  · exact Triple.pure fun _ h => h

theorem dropOwnIndexes_keeps : Keeps (ed.HasChecks a.table listing checks) (ed.dropOwnIndexes a) := by
  have key : Keeps (ed.HasChecks a.table listing checks)
      (do if a.dropsPrimaryKey ed.engine then ed.dropWhere a.table (isPrimaryKeyOver a.old.column)) := by
    refine Keeps.ite (fun _ => hg.dropWhere_keeps fun c selected kind => ?_) fun _ => Keeps.pure ()
    simp [isPrimaryKeyOver, kind] at selected
  have plain : Keeps (ed.HasChecks a.table listing checks) (do
      if a.dropsIndex ed.engine then ed.dropIndexOver a.table [a.old.column] false
      if a.dropsPrimaryKey ed.engine then ed.dropWhere a.table (isPrimaryKeyOver a.old.column)) :=
    Keeps.ite (fun _ => (hg.dropIndexOver_keeps _ _).bind fun _ => key) fun _ => key
  exact Keeps.ite (fun _ => (hg.dropIndexOver_keeps _ _).bind fun _ => plain) fun _ => plain

theorem createOwnIndexes_keeps : Keeps (ed.HasChecks a.table listing checks) (ed.createOwnIndexes a) := by
  have plain : Keeps (ed.HasChecks a.table listing checks)
      (do if a.createsIndex ed.engine then ed.createDerivedIndex a.table [a.column] false) :=
    Keeps.ite (fun _ => hg.createDerivedIndex_keeps _ _) fun _ => Keeps.pure ()
  exact Keeps.ite (fun _ => (hg.createDerivedIndex_keeps _ _).bind fun _ => plain) fun _ => plain

theorem displaceKey_keeps {key : Constraint} (h : ∀ k ∈ checks, k.name ≠ (ed.quote key.name).stored) :
    Keeps (ed.HasChecks a.table listing checks) (ed.displaceKey a.table key) := by
  refine Action.keeps_iff_triple.mpr ((Action.mapM_triple hg.incomingKeys_apart key.columns).bind fun incoming => ?_)
  rintro x ⟨apart, hx⟩
  have listed : ∀ key ∈ incoming.flatten, ∀ k ∈ checks, k.name ≠ (ed.quote key.name).stored := by
    intro key hm
    obtain ⟨keys, hk, hm⟩ := List.mem_flatten.mp hm
    exact apart keys hk key hm
  have dropped : Keeps (ed.HasChecks a.table listing checks) (ed.dropConstraint a.table key) := by
    refine hg.run_keeps ?_ a.table
    unfold dropStatement
    split
    · exact .of_leavesChecks rfl
    · exact .dropConstraint h
  exact Action.keeps_iff_triple.mp
    ((hg.dropIncoming_keeps listed).bind fun _ => dropped.bind fun _ => Keeps.pure _) x hx

theorem displacePrimaryKey_keeps : Keeps (ed.HasChecks a.table listing checks) (ed.displacePrimaryKey a) := by
  refine Keeps.ite (fun _ => Action.keeps_iff_triple.mpr ?_) fun _ => Keeps.pure []
  refine (hg.constraintsWhere_tells _).bind fun found => ?_
  rintro x ⟨⟨cs, tells, rfl⟩, hx⟩
  have displaced : Keeps (ed.HasChecks a.table listing checks)
      ((cs.filter (·.kind == .primaryKey)).mapM (ed.displaceKey a.table)) := by
    refine Keeps.mapM fun c hc => hg.displaceKey_keeps (tells.others c (List.mem_filter.mp hc).1 fun kind => ?_)
    have primary := (List.mem_filter.mp hc).2
    simp [kind] at primary
  exact Action.keeps_iff_triple.mp (displaced.bind fun _ => Keeps.pure _) x hx

theorem returnIncoming_keeps (incoming displaced : List IncomingKey) :
    Keeps (ed.HasChecks a.table listing checks) (ed.returnIncoming a incoming displaced) := by
  unfold returnIncoming
  split
  · exact (hg.addIncoming_keeps _ _ _).bind fun _ => hg.addIncoming_keeps _ _ _
  · exact hg.addIncoming_keeps _ _ _

theorem createOwnForeignKey_keeps : Keeps (ed.HasChecks a.table listing checks) (ed.createOwnForeignKey a) := by
  refine hg.runAll_keeps fun s hs => ?_
  obtain ⟨key, -, rfl⟩ := List.mem_map.mp hs
  rfl

theorem alterCounting_keeps : Keeps (ed.HasChecks a.table listing checks) (ed.alterCounting a) := by
  have asked {f : List Row → Bool} (q : CatalogQuery) : Keeps (ed.HasChecks a.table listing checks)
      (onLink do let rows ← ask ed.cursor q; return f rows) :=
    keeps_onLink ((hg.ask_checks q).bind fun _ => Keeps.pure _)
  have trigger : Keeps (ed.HasChecks a.table listing checks) (ed.dropTrigger a.table) :=
    (Keeps.ite (fun _ => Keeps.pure _) fun _ => asked _).bind fun _ =>
      Keeps.ite (fun _ => hg.run_keeps (.of_leavesChecks rfl) a.table) fun _ => Keeps.pure ()
  have sequence : Keeps (ed.HasChecks a.table listing checks) (ed.dropSequence a.table) :=
    (Keeps.ite (fun _ => Keeps.pure _) fun _ => asked _).bind fun _ =>
      Keeps.ite (fun _ => hg.run_keeps (.of_leavesChecks rfl) a.table) fun _ => Keeps.pure ()
  refine Keeps.ite (fun _ => hg.runAll_keeps ?_) fun _ =>
    Keeps.ite (fun _ => trigger.bind fun _ => sequence) fun _ => Keeps.pure ()
  simp [Sequence.setUp, Statement.leavesChecks]

theorem refresh_keeps : Keeps (ed.HasChecks a.table listing checks) ed.refresh :=
  Keeps.ite (fun _ => keeps_onLink fun s hs => (hg.commits s).trans hs) fun _ => Keeps.pure ()

/-! What changes them -/

variable (hc : ed.collects = false)

include hc

theorem forEach_drop_makes (found : List Constraint) (h : ∀ c ∈ found, c.kind ≠ .index) :
    Triple (ed.HasChecks a.table listing checks) (Action.forEach (ed.dropConstraint a.table) found)
      (fun _ => ed.HasChecks a.table listing
        (checks.filter fun k => found.all fun c => k.name != (ed.quote c.name).stored))
      (fun _ _ => True) := by
  -- Every drop leaves fewer checks for the next one.
  induction found generalizing checks with
  | nil =>
    have all : (checks.filter fun k => ([] : List Constraint).all fun c => k.name != (ed.quote c.name).stored) = checks :=
      List.filter_eq_self.mpr fun _ _ => rfl
    exact Triple.pure fun x hx => by rwa [all]
  | cons c found ih =>
    have statement : ed.dropStatement a.table c = .dropConstraint (ed.quote a.table) (ed.quote c.name) := by
      unfold dropStatement
      split
      · exact absurd ‹_› (h c List.mem_cons_self)
      · rfl
    refine Triple.bind (R := fun _ => ed.HasChecks a.table listing
      (checks.filter (·.name != (ed.quote c.name).stored))) ?_ fun _ => ?_
    · rw [dropConstraint, statement]
      exact (hg.run_drop hc _).weaken (fun _ => id) (fun _ _ => id) fun _ _ _ => trivial
    · refine (ih fun d hd => h d (List.mem_cons_of_mem c hd)).weaken (fun _ => id) ?_ fun _ _ => id
      intro _ x hx
      rw [List.filter_filter] at hx
      simpa [Bool.and_comm] using hx

/-- The checks that mention the column are dropped, if the check of the field has to be. -/
theorem dropOwnChecks_makes : Triple (ed.HasChecks a.table listing checks) (ed.dropOwnChecks a)
    (fun _ => ed.HasChecks a.table listing
      (checks.filter fun k => !(a.dropsChecks ed.engine && k.mentions a.old.column)))
    (fun _ _ => True) := by
  unfold dropOwnChecks
  cases hd : a.dropsChecks ed.engine with
  | false =>
    have all : (checks.filter fun k => !(false && k.mentions a.old.column)) = checks :=
      List.filter_eq_self.mpr fun _ _ => rfl
    exact Triple.pure fun x hx => by rwa [all]
  | true =>
    refine ((hg.constraintsWhere_tells _).weaken (fun _ => id) (fun _ _ => id) fun _ _ _ => trivial).bind fun found => ?_
    rintro x ⟨⟨cs, tells, rfl⟩, hx⟩
    have proper := hg.proper x.base.link
    have names := (List.nodup_append.mp proper.names).2.1
    have canonical := proper.checks
    rw [hx.lists] at names canonical
    have kind : ∀ c ∈ cs.filter (isCheckOn a.old.column), c.kind ≠ .index := by
      intro c hc kind
      have selected := (List.mem_filter.mp hc).2
      simp [isCheckOn, kind] at selected
    have same : ∀ k ∈ checks,
        ((cs.filter (isCheckOn a.old.column)).all fun c => k.name != (ed.quote c.name).stored) =
          !(true && k.mentions a.old.column) :=
      fun k hk => tells.all_ne_iff canonical names hk a.old.column
    refine (hg.forEach_drop_makes hc _ kind x hx).mono (fun _ y hy => ?_) fun _ _ => id
    rwa [List.filter_congr same] at hy

/-- Every clause makes a check. -/
theorem addChecks_makes (clauses : List String) :
    Triple (ed.HasChecks a.table listing checks)
      (ed.runAll a.table (clauses.map fun clause => a.constraintStatement ed.engine "_check" (.check clause)))
      (fun _ x => ∃ made : List ListedCheck, made.map (·.source) = clauses ∧
        ed.HasChecks a.table listing (checks ++ made) x)
      (fun _ _ => True) := by
  induction clauses generalizing checks with
  | nil => exact Triple.pure fun x hx => ⟨[], rfl, by simpa using hx⟩
  | cons clause clauses ih =>
    obtain ⟨name, statement⟩ : ∃ name, a.constraintStatement ed.engine "_check" (.check clause) =
        .addConstraint (ed.quote a.table) name (.check clause) := ⟨_, rfl⟩
    refine Triple.bind (R := fun _ x => ∃ k : ListedCheck, k.source = clause ∧
      ed.HasChecks a.table listing (checks ++ [k]) x) ?_ fun _ => ?_
    · dsimp only
      rw [statement]
      exact (hg.run_add hc name clause).weaken (fun _ => id) (fun _ _ => id) fun _ _ _ => trivial
    · rintro x ⟨k, rfl, hx⟩
      refine (ih x hx).mono ?_ fun _ _ => id
      rintro - y ⟨made, rfl, hy⟩
      exact ⟨k :: made, rfl, by rwa [List.append_assoc] at hy⟩

/-- The checks after an alteration: those that were not dropped, and those that were made. -/
theorem alterField_makes : Triple (ed.HasChecks a.table listing checks) (ed.alterField a)
    (fun _ x => ∃ made : List ListedCheck, made.map (·.source) = a.checkClauses ed.engine ∧
      (listing x.base.link).checks =
        (checks.filter fun k => !(a.dropsChecks ed.engine && k.mentions a.old.column)) ++ made)
    (fun _ _ => True) := by
  have keep {α : Type} {checks : List ListedCheck} {y : Edit σ α} (h : Keeps (ed.HasChecks a.table listing checks) y) :
      Triple (ed.HasChecks a.table listing checks) y (fun _ => ed.HasChecks a.table listing checks) (fun _ _ => True) :=
    h.ending fun _ _ _ => trivial
  refine (keep hg.dropOwnForeignKey_keeps).bind fun _ => (keep hg.takeIncoming_keeps).bind fun incoming => ?_
  refine (keep hg.dropOwnIndexes_keeps).bind fun _ => (hg.dropOwnChecks_makes hc).bind fun _ => ?_
  refine (keep (hg.runAll_keeps (a.leavesChecks_columnStatements ed.engine ed.options))).bind fun _ => ?_
  refine (keep hg.createOwnIndexes_keeps).bind fun _ => (keep hg.displacePrimaryKey_keeps).bind fun displaced => ?_
  refine (keep (hg.runAll_keeps ?_)).bind fun _ => (keep (hg.returnIncoming_keeps _ _)).bind fun _ => ?_
  · intro s hs
    unfold Alteration.primaryKeyStatements at hs
    split at hs
    · obtain rfl := List.mem_singleton.mp hs
      rfl
    · contradiction
  refine (keep hg.createOwnForeignKey_keeps).bind fun _ => ?_
  rw [a.checkStatements_eq]
  refine (hg.addChecks_makes hc _).bind fun _ => ?_
  rintro x ⟨made, sources, hx⟩
  refine ((keep hg.alterCounting_keeps).bind fun _ => keep hg.refresh_keeps).weaken (fun _ => id) ?_ (fun _ _ => id) x hx
  exact fun _ y hy => ⟨made, sources, hy.lists⟩

end Guards

variable {ed : Editor σ} {a : Alteration} {listing : σ → Listing}

/-- The checks that mention other columns stay or are made again, if none of them mentions the column as well while the
check of the field has to be made anew. -/
theorem alterField_spares_checks_iff (hc : ed.collects = false) (hg : Guards ed a.table listing) {x y : State σ}
    (hx : Recalls listing a.table x) (h : ed.alterField a x = (.ok (), y)) :
    ∃ made : List ListedCheck, made.map (·.source) = a.checkClauses ed.engine ∧
      (listing y.base.link).checks = ((listing x.base.link).checks.filter fun k =>
        !(a.dropsChecks ed.engine && k.mentions a.old.column)) ++ made ∧
      ((∀ k ∈ (listing x.base.link).checks, k.MentionsOther ed.engine a.old.column →
          k ∈ (listing y.base.link).checks ∨ ∃ k' ∈ made, k'.source = k.source) ↔
        (a.dropsChecks ed.engine = true → ∀ k ∈ (listing x.base.link).checks, k.MentionsOther ed.engine a.old.column →
          k.mentions a.old.column = true → k.source ∈ a.checkClauses ed.engine)) := by
  have has : ed.HasChecks a.table listing (listing x.base.link).checks x :=
    ⟨rfl, fun cs known => hx cs known ▸ (hg.proper x.base.link).tells⟩
  obtain ⟨made, sources, checks⟩ := (hg.alterField_makes hc x has).of_ok _ _ h
  refine ⟨made, sources, checks, ?_⟩
  rw [checks, ← sources]
  constructor
  · intro spared drops k hk other mentions
    rcases spared k hk other with kept | ⟨k', hk', source⟩
    · rcases List.mem_append.mp kept with kept | new
      · simp [drops, mentions] at kept
      · exact List.mem_map_of_mem new
    · exact source ▸ List.mem_map_of_mem hk'
  · intro remade k hk other
    by_cases dropped : a.dropsChecks ed.engine = true ∧ k.mentions a.old.column = true
    · obtain ⟨k', hk', source⟩ := List.mem_map.mp (remade dropped.1 k hk other dropped.2)
      exact .inr ⟨k', hk', source⟩
    · refine .inl (List.mem_append_left _ (List.mem_filter.mpr ⟨hk, ?_⟩))
      rwa [Bool.not_eq_true', Bool.eq_false_iff, Ne, Bool.and_eq_true]

end Editor

namespace Ledger

/-! A field of books whose check is no longer made -/

def engine : Engine := ⟨⟨3, 0, 0, 0⟩⟩

def pages : Field := Field.ofType "pages" .positiveInteger

def signed : Alteration := ⟨⟨"book", [pages], [], [], []⟩, pages, { pages with type := .integer }⟩

/-- Books with a single check. -/
def books (k : ListedCheck) (hk : k.Proper engine) : Ledger engine where
  columns := ["PAGES", "PRICE"]
  canonical := by decide +kernel
  checks := [k]
  proper := ⟨by simp, by simpa using hk, List.nodup_singleton k.name⟩
  rows := []

/-- A check of another field. -/
def price : ListedCheck := ⟨⟨"BOOK_PRICE_CHECK", "CHECK (\"PRICE\" >= 0)"⟩, ["PRICE"]⟩

/-- A check across two fields. -/
def costs : ListedCheck := ⟨⟨"BOOK_COSTS", "CHECK (\"PRICE\" >= \"PAGES\")"⟩, ["PRICE", "PAGES"]⟩

theorem proper_price : price.Proper engine := ⟨by decide +kernel, by decide +kernel⟩

theorem proper_costs : costs.Proper engine := ⟨by decide +kernel, by decide +kernel⟩

def start (l : Ledger engine) : Editor.State (Ledger engine) := .ofBase ⟨l, .empty⟩

def run (l : Ledger engine) : Except Error Unit × Editor.State (Ledger engine) :=
  (editor engine "BOOK").alterField signed (start l)

end Ledger

open Ledger (signed books price costs)

theorem Editor.alterField_spares_price : ∃ (y : Editor.State (Ledger Ledger.engine)) (made : List ListedCheck),
    Ledger.run (books price Ledger.proper_price) = (.ok (), y) ∧ made.map (·.source) = signed.checkClauses Ledger.engine ∧
      ∀ k ∈ (books price Ledger.proper_price).checks, k.MentionsOther Ledger.engine "pages" →
        k ∈ y.base.link.checks ∨ ∃ k' ∈ made, k'.source = k.source := by
  have table : Simple "book" := by decide
  have relation : Identifier.catalogName Ledger.engine "book" = "BOOK" := by decide +kernel
  have guards := Ledger.guards (e := Ledger.engine) table
  rw [relation] at guards
  have ok : (Ledger.run (books price Ledger.proper_price)).1.isOk = true := by decide +kernel
  cases h : Ledger.run (books price Ledger.proper_price) with
  | mk r y =>
    rw [h] at ok
    cases r with
    | error e => exact absurd ok Bool.false_ne_true
    | ok _ =>
      obtain ⟨made, sources, -, spares⟩ := Editor.alterField_spares_checks_iff rfl guards (by rintro _ ⟨⟩) h
      refine ⟨y, made, rfl, sources, spares.mpr fun _ k hk _ mentions => ?_⟩
      obtain rfl := List.mem_singleton.mp hk
      exact absurd mentions (by decide +kernel)

/-- A check across two fields is lost with that of one of them. -/
theorem Editor.alterField_loses_costs :
    costs ∈ (books costs Ledger.proper_costs).checks ∧ costs.MentionsOther Ledger.engine "pages" ∧
      (Ledger.run (books costs Ledger.proper_costs)).1.isOk = true ∧
      (Ledger.run (books costs Ledger.proper_costs)).2.base.link.checks = [] := by
  refine ⟨List.mem_singleton_self costs, ⟨"PRICE", List.mem_cons_self, by decide +kernel⟩, ?_, ?_⟩
  · decide +kernel
  · decide +kernel

end FirebirdSql
