import FirebirdSql.Proofs.Editor.Keeper
import FirebirdSql.Proofs.Index.Found
import Mathlib.Data.List.Nodup

/-!
The checks of a table while it is edited. A statement that is carried out changes them as it says, and nothing else
does. What is read of the table tells them apart from its other constraints.
-/

namespace FirebirdSql

open Catalog
open Action (Keeps Triple)

namespace ListedCheck

/-- The check mentions the column, whose name may be spelled with other cases of the ASCII letters. -/
def mentions (k : ListedCheck) (column : String) : Bool :=
  k.columns.any fun c => Constraint.sameColumn (Text.lowercase c) column

/-- The check mentions another column than that of this name. -/
def MentionsOther (e : Engine) (column : String) (k : ListedCheck) : Prop :=
  ∃ c ∈ k.columns, c ≠ (Identifier.quote e column).stored

theorem isCheckOn_describe (k : ListedCheck) (column : String) :
    Editor.isCheckOn column k.describe = k.mentions column := by
  rw [Bool.eq_iff_iff]
  simp only [Editor.isCheckOn, Constraint.mentions, mentions, describe_kind, beq_self_eq_true, Bool.true_and,
    List.any_eq_true, mem_describe_columns, List.mem_map]
  constructor
  · rintro ⟨_, ⟨c, hc, rfl⟩, same⟩
    exact ⟨c, hc, same⟩
  · rintro ⟨c, hc, same⟩
    exact ⟨_, ⟨c, hc, rfl⟩, same⟩

theorem Proper.stored_describe_name {e : Engine} {k : ListedCheck} (h : k.Proper e) :
    (Identifier.quote e k.describe.name).stored = k.name := by
  rw [k.describe_name, h.name.stored_quote_lowercase]

end ListedCheck

namespace Statement

/-- What is left of the checks of a table when the statement is carried out. -/
def Makes (relation : String) (before after : List ListedCheck) : Statement → Prop
  | .dropConstraint table name =>
    table.stored = relation ∧ after = before.filter (·.name != name.stored) ∨ table.stored ≠ relation ∧ after = before
  | .addConstraint table _ (.check source) =>
    table.stored = relation ∧ (∃ k : ListedCheck, k.source = source ∧ after = before ++ [k]) ∨
      table.stored ≠ relation ∧ after = before
  | .createTable .. | .dropTable _ | .custom _ => True
  | _ => after = before

/-- The statement leaves the checks as they are. -/
def Spares (relation : String) (checks : List ListedCheck) (s : Statement) : Prop :=
  ∀ after, s.Makes relation checks after → after = checks

/-- The statement is about no check. -/
def leavesChecks : Statement → Bool
  | .dropConstraint .. | .addConstraint _ _ (.check _) | .createTable .. | .dropTable _ | .custom _ => false
  | _ => true

variable {relation : String} {checks after : List ListedCheck} {s : Statement} {table name : Identifier}

theorem Makes.dropConstraint (h : (Statement.dropConstraint table name).Makes table.stored checks after) :
    after = checks.filter (·.name != name.stored) := by
  rcases h with ⟨-, rfl⟩ | ⟨other, -⟩
  · rfl
  · exact absurd rfl other

theorem Makes.addCheck {source : String}
    (h : (Statement.addConstraint table name (.check source)).Makes table.stored checks after) :
    ∃ k : ListedCheck, k.source = source ∧ after = checks ++ [k] := by
  rcases h with ⟨-, made⟩ | ⟨other, -⟩
  · exact made
  · exact absurd rfl other

theorem Spares.of_leavesChecks (h : s.leavesChecks = true) : s.Spares relation checks := by
  intro after made
  unfold leavesChecks at h
  unfold Makes at made
  split at made <;> first | exact made | contradiction

/-- A constraint is dropped whose name is that of no check. -/
theorem Spares.dropConstraint (h : ∀ k ∈ checks, k.name ≠ name.stored) :
    (Statement.dropConstraint table name).Spares relation checks := by
  rintro _ (⟨-, rfl⟩ | ⟨-, rfl⟩)
  · exact List.filter_eq_self.mpr fun k hk => bne_iff_ne.mpr (h k hk)
  · rfl

end Statement

/-- What is read of a table tells its checks, and which names are none of theirs. -/
structure Tells (e : Engine) (cs : List Constraint) (checks : List ListedCheck) : Prop where
  own : ∀ c, c ∈ cs ∧ c.kind = .check ↔ ∃ k ∈ checks, c = k.describe
  others : ∀ c ∈ cs, c.kind ≠ .check → ∀ k ∈ checks, k.name ≠ (Identifier.quote e c.name).stored

theorem ListedIndex.kind_ne_check (i : ListedIndex) : i.kind ≠ .check := by
  unfold kind
  cases i.owner with
  | none => simp
  | some owner => cases h : owner.1 <;> simp [h, IndexOwner.kind]

theorem Listing.Proper.tells {e : Engine} {l : Listing} (h : l.Proper e) : Tells e l.described l.checks where
  own c := by
    rw [(described_perm h).mem_iff, List.mem_append]
    constructor
    · rintro ⟨hc | hc, kind⟩
      · obtain ⟨i, hi, rfl⟩ := List.mem_map.mp hc
        exact absurd ((ListedIndex.describe_describes (h.indexes i hi)).kind.symm.trans kind) i.kind_ne_check
      · obtain ⟨k, hk, rfl⟩ := List.mem_map.mp hc
        exact ⟨k, hk, rfl⟩
    · rintro ⟨k, hk, rfl⟩
      exact ⟨.inr (List.mem_map_of_mem hk), k.describe_kind⟩
  others c hc kind k hk := by
    rw [(described_perm h).mem_iff, List.mem_append] at hc
    rcases hc with hc | hc
    · obtain ⟨i, hi, rfl⟩ := List.mem_map.mp hc
      have proper := h.indexes i hi
      rw [(ListedIndex.describe_describes proper).name, proper.title.stored_quote_lowercase]
      exact fun same => (List.nodup_append.mp h.names).2.2 _ (List.mem_map_of_mem hi) _ (List.mem_map_of_mem hk) same.symm
    · obtain ⟨k', -, rfl⟩ := List.mem_map.mp hc
      exact absurd k'.describe_kind kind

/-- A check has another name than all that are found on a column, if it does not mention the column. -/
theorem Tells.all_ne_iff {e : Engine} {cs : List Constraint} {checks : List ListedCheck} (h : Tells e cs checks)
    (hp : ∀ k ∈ checks, k.Proper e) (hn : (checks.map (·.name)).Nodup) {k : ListedCheck} (hk : k ∈ checks)
    (column : String) :
    ((cs.filter (Editor.isCheckOn column)).all fun c => k.name != (Identifier.quote e c.name).stored) =
      !k.mentions column := by
  rw [Bool.eq_iff_iff, Bool.not_eq_true', List.all_eq_true]
  constructor
  · intro apart
    refine Bool.eq_false_iff.mpr fun mentions => ?_
    obtain ⟨hm, -⟩ := (h.own k.describe).mpr ⟨k, hk, rfl⟩
    have other := apart _ (List.mem_filter.mpr ⟨hm, (k.isCheckOn_describe column).trans mentions⟩)
    rw [(hp k hk).stored_describe_name] at other
    exact absurd rfl (bne_iff_ne.mp other)
  · intro spared c hm
    obtain ⟨hm, selected⟩ := List.mem_filter.mp hm
    have kind : c.kind = .check := by
      simp only [Editor.isCheckOn, Bool.and_eq_true, beq_iff_eq] at selected
      exact selected.1
    obtain ⟨k', hk', rfl⟩ := (h.own c).mp ⟨hm, kind⟩
    rw [(hp k' hk').stored_describe_name, bne_iff_ne]
    intro same
    obtain rfl := List.inj_on_of_nodup_map hn hk hk' same
    rw [k.isCheckOn_describe, spared] at selected
    contradiction

namespace Editor

/-- An engine that lists the indexes and checks of a table. Its checks are changed as a statement says that is carried
out, and by nothing else, and no foreign key has the name of one. -/
structure Guards (ed : Editor σ) (table : String) (listing : σ → Listing) : Prop where
  lists : Lists ed.cursor (Identifier.catalogName ed.engine table) listing
  proper : ∀ s, (listing s).Proper ed.engine
  asks : ∀ q s, (listing (ask ed.cursor q s).2).checks = (listing s).checks
  sends : ∀ statement s t, ed.send statement s = (.ok (), t) →
    statement.Makes (ed.quote table).stored (listing s).checks (listing t).checks
  refuses : ∀ statement s error t, ed.send statement s = (.error error, t) → (listing t).checks = (listing s).checks
  commits : ∀ s, (listing (ed.cursor.commit s).2).checks = (listing s).checks
  apart : ∀ column s keys t, Catalog.incomingKeys ed.cursor ed.engine table column s = (.ok keys, t) →
    ∀ key ∈ keys, ∀ k ∈ (listing s).checks, k.name ≠ (ed.quote key.name).stored

/-- The table has these checks, and what is remembered of it tells them. -/
structure HasChecks (ed : Editor σ) (table : String) (listing : σ → Listing) (checks : List ListedCheck) (x : State σ) :
    Prop where
  lists : (listing x.base.link).checks = checks
  recalls : ∀ cs, x.base.cache.constraints? table = some cs → Tells ed.engine cs checks

variable {ed : Editor σ} {table : String} {listing : σ → Listing} {checks : List ListedCheck}

namespace Guards

variable (hg : Guards ed table listing)

theorem keeps_onLink {y : Action σ α} (h : Keeps (fun s => (listing s).checks = checks) y) :
    Keeps (ed.HasChecks table listing checks) (onLink y) :=
  fun x hx => ⟨h x.base.link hx.lists, hx.recalls⟩

include hg

/-- A statement changes the checks as it says, or it fails and leaves them. -/
theorem execute_makes (hc : ed.collects = false) (s : Statement) (x : State σ) :
    Action.Ends
      (fun _ y => s.Makes (ed.quote table).stored (listing x.base.link).checks (listing y.base.link).checks ∧
        y.base.cache = x.base.cache)
      (fun _ y => (listing y.base.link).checks = (listing x.base.link).checks ∧ y.base.cache = x.base.cache)
      (ed.execute s x) := by
  rw [execute, Action.bind_apply, Action.lift_apply]
  cases s.fragment.validate with
  | error e => exact Action.ends_error.mpr ⟨rfl, rfl⟩
  | ok _ =>
    dsimp only
    rw [if_neg (by rw [hc]; exact Bool.false_ne_true), onLink, onBase, Action.within_apply, Cached.onLink,
      Action.within_apply]
    cases sent : ed.send s x.base.link with
    | mk r t =>
      cases r with
      | ok _ => exact Action.ends_ok.mpr ⟨hg.sends s _ t sent, rfl⟩
      | error e => exact Action.ends_error.mpr ⟨hg.refuses s _ e t sent, rfl⟩

/-- What was read of the table is forgotten. -/
theorem run_makes (hc : ed.collects = false) (s : Statement) :
    Triple (ed.HasChecks table listing checks) (ed.run table s)
      (fun _ x => ∃ after, s.Makes (ed.quote table).stored checks after ∧ ed.HasChecks table listing after x)
      (fun _ => ed.HasChecks table listing checks) := by
  intro x hx
  have ends := hg.execute_makes hc s x
  rw [hx.lists] at ends
  have forgets (cache : Cache) : (cache.invalidate table).constraints? table = none := by
    rw [Cache.constraints?_invalidate, if_pos rfl]
  rw [run_apply]
  revert ends
  obtain ⟨r, y⟩ := ed.execute s x
  cases r with
  | ok _ => exact fun ends => Action.ends_ok.mpr ⟨_, (Action.ends_ok.mp ends).1, rfl, by simp [forgets]⟩
  | error e => exact fun ends => Action.ends_error.mpr ⟨(Action.ends_error.mp ends).1, by simp [forgets]⟩

theorem run_drop (hc : ed.collects = false) (name : Identifier) :
    Triple (ed.HasChecks table listing checks) (ed.run table (.dropConstraint (ed.quote table) name))
      (fun _ => ed.HasChecks table listing (checks.filter (·.name != name.stored)))
      (fun _ => ed.HasChecks table listing checks) := by
  refine (hg.run_makes hc _).weaken (fun _ => id) ?_ fun _ _ => id
  rintro - x ⟨after, made, hx⟩
  exact made.dropConstraint ▸ hx

theorem run_add (hc : ed.collects = false) (name : Identifier) (source : String) :
    Triple (ed.HasChecks table listing checks) (ed.run table (.addConstraint (ed.quote table) name (.check source)))
      (fun _ x => ∃ k : ListedCheck, k.source = source ∧ ed.HasChecks table listing (checks ++ [k]) x)
      (fun _ => ed.HasChecks table listing checks) := by
  refine (hg.run_makes hc _).weaken (fun _ => id) ?_ fun _ _ => id
  rintro - x ⟨after, made, hx⟩
  obtain ⟨k, source, rfl⟩ := made.addCheck
  exact ⟨k, source, hx⟩

/-- A statement about any table that spares the checks. -/
theorem run_keeps {s : Statement} (hs : s.Spares (ed.quote table).stored checks) (t : String) :
    Keeps (ed.HasChecks table listing checks) (ed.run t s) := by
  intro x hx
  have same : (listing (ed.execute s x).2.base.link).checks = checks ∧ (ed.execute s x).2.base.cache = x.base.cache := by
    cases hc : ed.collects with
    | true =>
      -- Nothing is sent, whatever the statement is.
      rw [execute, Action.bind_apply, Action.lift_apply]
      cases s.fragment.validate with
      | error e => exact ⟨hx.lists, rfl⟩
      | ok _ =>
        dsimp only
        rw [if_pos hc]
        exact ⟨hx.lists, rfl⟩
    | false =>
      have ends := hg.execute_makes hc s x
      rw [hx.lists] at ends
      revert ends
      obtain ⟨r, y⟩ := ed.execute s x
      cases r with
      | ok _ => exact fun ends => (Action.ends_ok.mp ends).imp_left (hs _)
      | error e => exact Action.ends_error.mp
  rw [run_apply]
  refine ⟨same.1, fun cs known => ?_⟩
  dsimp only at known
  rw [Cache.constraints?_invalidate, same.2] at known
  split at known
  · contradiction
  · exact hx.recalls cs known

/-! Reading -/

theorem ask_checks (q : CatalogQuery) : Keeps (fun s => (listing s).checks = checks) (ask ed.cursor q) :=
  fun s hs => (hg.asks q s).trans hs

theorem readConstraints_checks : Keeps (fun s => (listing s).checks = checks) (readConstraints ed.cursor ed.engine table) :=
  (hg.ask_checks _).bind fun _ => (Keeps.lift _).bind fun _ => (hg.ask_checks _).bind fun _ =>
    (Keeps.lift _).bind fun _ => Keeps.pure _

/-- What is selected of a table's constraints is selected of what tells its checks. -/
theorem constraintsWhere_tells (select : Constraint → Bool) :
    Triple (ed.HasChecks table listing checks) (ed.constraintsWhere table select)
      (fun found x => (∃ cs, Tells ed.engine cs checks ∧ found = cs.filter select) ∧ ed.HasChecks table listing checks x)
      (fun _ => ed.HasChecks table listing checks) := by
  have read : Triple (ed.HasChecks table listing checks) (onBase (Cached.constraints ed.cursor ed.engine table))
      (fun cs x => Tells ed.engine cs checks ∧ ed.HasChecks table listing checks x)
      (fun _ => ed.HasChecks table listing checks) := by
    intro x hx
    rw [onBase, Action.within_apply]
    -- What is remembered tells the checks as it did before; what is read tells those that are listed now.
    cases hc : x.base.cache.constraints? table with
    | some known =>
      rw [Cached.constraints_hit _ _ _ _ hc]
      exact Action.ends_ok.mpr ⟨hx.recalls known hc, hx⟩
    | none =>
      rw [Cached.constraints_miss _ _ _ _ hc]
      have same := hg.readConstraints_checks x.base.link hx.lists
      cases listed : readConstraints ed.cursor ed.engine table x.base.link with
      | mk r link =>
        rw [listed] at same
        cases r with
        | error e => exact Action.ends_error.mpr ⟨same, hx.recalls⟩
        | ok cs =>
          obtain ⟨rfl, -⟩ := hg.lists.readConstraints_ok (hg.proper _).legible listed
          have tells := (hg.proper x.base.link).tells
          rw [hx.lists] at tells
          refine Action.ends_ok.mpr ⟨tells, same, fun cs known => ?_⟩
          rw [Cache.constraints?_putConstraints, if_pos rfl] at known
          exact Option.some.inj known ▸ tells
  exact read.bind fun cs => Triple.pure fun _ h => ⟨⟨cs, h.1, rfl⟩, h.2⟩

/-- Keys that reference a column are no checks. -/
theorem incomingKeys_apart (column : String) :
    Triple (ed.HasChecks table listing checks) (ed.incomingKeys table column)
      (fun keys x => (∀ key ∈ keys, ∀ k ∈ checks, k.name ≠ (ed.quote key.name).stored) ∧
        ed.HasChecks table listing checks x)
      (fun _ => ed.HasChecks table listing checks) := by
  unfold Editor.incomingKeys unlessCollecting
  split
  · exact Triple.pure fun _ h => ⟨by simp, h⟩
  · intro x hx
    rw [onLink, onBase, Action.within_apply, Cached.onLink, Action.within_apply]
    have same : (listing (Catalog.incomingKeys ed.cursor ed.engine table column x.base.link).2).checks = checks :=
      ((hg.ask_checks _).bind fun _ => Keeps.lift _) x.base.link hx.lists
    cases found : Catalog.incomingKeys ed.cursor ed.engine table column x.base.link with
    | mk r link =>
      rw [found] at same
      cases r with
      | error e => exact Action.ends_error.mpr ⟨same, hx.recalls⟩
      | ok keys =>
        have apart := hg.apart column _ keys link found
        rw [hx.lists] at apart
        exact Action.ends_ok.mpr ⟨apart, same, hx.recalls⟩

/-! Dropping other constraints, and creating indexes -/

theorem forEach_drop_keeps {found : List Constraint} (h : ∀ c ∈ found, ∀ k ∈ checks, k.name ≠ (ed.quote c.name).stored) :
    Keeps (ed.HasChecks table listing checks) (Action.forEach (ed.dropConstraint table) found) := by
  refine Keeps.forEach fun c hc => hg.run_keeps ?_ table
  unfold dropStatement
  split
  · exact .of_leavesChecks rfl
  · exact .dropConstraint (h c hc)

/-- Constraints are dropped that are no checks. -/
theorem dropWhere_keeps {select : Constraint → Bool} (h : ∀ c, select c = true → c.kind ≠ .check) :
    Keeps (ed.HasChecks table listing checks) (ed.dropWhere table select) := by
  refine Action.keeps_iff_triple.mpr ?_
  refine (hg.constraintsWhere_tells select).bind fun found => ?_
  rintro x ⟨⟨cs, tells, rfl⟩, hx⟩
  refine Action.keeps_iff_triple.mp (hg.forEach_drop_keeps fun c hc => ?_) x hx
  obtain ⟨hc, selected⟩ := List.mem_filter.mp hc
  exact tells.others c hc (h c selected)

theorem dropIndexOver_keeps (columns : List String) (unique : Bool) :
    Keeps (ed.HasChecks table listing checks) (ed.dropIndexOver table columns unique) := by
  refine Action.keeps_iff_triple.mpr ?_
  refine (hg.constraintsWhere_tells _).bind fun found => ?_
  rintro x ⟨⟨cs, tells, rfl⟩, hx⟩
  refine Action.keeps_iff_triple.mp (Keeps.ite (fun _ => ?_) fun _ => hg.forEach_drop_keeps fun c hc => ?_) x hx
  · have looked (source : String) : Keeps (ed.HasChecks table listing checks)
        (onLink (Catalog.expressionIndex? ed.cursor ed.engine table source)) :=
      keeps_onLink ((hg.ask_checks _).bind fun _ => Keeps.lift _)
    refine (looked _).bind fun name => ?_
    cases name with
    | some name => exact hg.run_keeps (.of_leavesChecks rfl) table
    | none => exact Keeps.fail _
  · obtain ⟨hc, isOver⟩ := List.mem_filter.mp hc
    refine tells.others c hc fun kind => ?_
    simp [isIndexOver, kind] at isOver

theorem createDerivedIndex_keeps (columns : List String) (unique : Bool) :
    Keeps (ed.HasChecks table listing checks) (ed.createDerivedIndex table columns unique) := by
  refine (hg.run_keeps (.of_leavesChecks rfl) table).attempt.bind fun r => ?_
  cases r with
  | ok _ => exact Keeps.pure ()
  | error e => exact Keeps.ite (fun _ => hg.run_keeps (.of_leavesChecks rfl) table) fun _ => Keeps.fail e

theorem runAll_keeps {ss : List Statement} (h : ∀ s ∈ ss, s.leavesChecks = true) :
    Keeps (ed.HasChecks table listing checks) (ed.runAll table ss) :=
  Keeps.forEach fun s hs => hg.run_keeps (.of_leavesChecks (h s hs)) table

end Guards

end Editor

end FirebirdSql
