import FirebirdSql.Proofs.Catalog.Reading
import FirebirdSql.Proofs.Editor.Keeper
import FirebirdSql.Proofs.Editor.Noting

/-!
What is remembered of a table is what the catalog said after the last statement about it. All operations keep this,
except that sending what was put off forgets nothing.
-/

namespace FirebirdSql

/-- The name that may stand for a table is one that its cache entry goes by. -/
def Identifier.Alike (e : Engine) (table name : String) : Prop :=
  Identifier.quote e name = Identifier.quote e table → Catalog.Cache.key name = Catalog.Cache.key table

namespace Editor

open Action (Keeps Triple Ends)
open Catalog (Cache Cached ColumnsRead ConstraintsRead Untouched)
open Identifier (Alike)

/-- The events end with such ones and others that are not about the table. -/
def Latest (e : Engine) (table : String) (p : List Event → Prop) (events : List Event) : Prop :=
  ∃ before found later, events = before ++ found ++ later ∧ p found ∧
    .about (Identifier.quote e table) ∉ later

/-- Whatever is remembered of the table was read after the last statement about it. -/
structure Fresh (e : Engine) (table : String) (s : State (Noted σ Event)) : Prop where
  columns : ∀ columns, s.base.cache.columns? table = some columns →
    Latest e table (ColumnsRead e table columns) s.base.link.notes
  constraints : ∀ constraints, s.base.cache.constraints? table = some constraints →
    Latest e table (ConstraintsRead e table constraints) s.base.link.notes

variable {e : Engine} {table other : String} {p : List Event → Prop} {events later : List Event}
variable {s t : State (Noted σ Event)}

theorem Latest.append (h : Latest e table p events) (hl : .about (Identifier.quote e table) ∉ later) :
    Latest e table p (events ++ later) := by
  obtain ⟨before, found, rest, rfl, hp, hr⟩ := h
  refine ⟨before, found, rest ++ later, by simp, hp, ?_⟩
  simp [hr, hl]

theorem Latest.of_found (before : List Event) (hp : p events) : Latest e table p (before ++ events) :=
  ⟨before, events, [], by simp, hp, by simp⟩

/-- Nothing was read since a statement about the table if no question was answered since. -/
theorem Latest.not_append (hp : ∀ found, p found → ∃ first rows, found = first ++ [.answered rows])
    (hl : ∀ rows, .answered rows ∉ later) (ha : .about (Identifier.quote e table) ∈ later) :
    ¬Latest e table p (events ++ later) := by
  rintro ⟨before, found, rest, h, hfound, hrest⟩
  obtain ⟨first, rows, rfl⟩ := hp found hfound
  rcases List.append_eq_append_iff.mp h with ⟨middle, hm, rfl⟩ | ⟨middle, -, rfl⟩
  · rcases List.eq_nil_or_concat middle with rfl | ⟨middle, event, rfl⟩
    · exact hrest ha
    · have hlast : event = .answered rows := by
        have := congrArg List.getLast? hm
        simpa using this.symm
      exact hl rows (by simp [hlast])
  · exact hrest (List.mem_append_right middle ha)

namespace Fresh

/-- Events that are not about the table do not matter, as long as the cache says nothing new of it. -/
theorem after (h : Fresh e table s) (hn : t.base.link.notes = s.base.link.notes ++ later)
    (hl : .about (Identifier.quote e table) ∉ later)
    (hcolumns : ∀ columns, t.base.cache.columns? table = some columns → s.base.cache.columns? table = some columns)
    (hconstraints : ∀ constraints, t.base.cache.constraints? table = some constraints →
      s.base.cache.constraints? table = some constraints) : Fresh e table t where
  columns columns hc := by
    rw [hn]
    exact (h.columns columns (hcolumns columns hc)).append hl
  constraints constraints hc := by
    rw [hn]
    exact (h.constraints constraints (hconstraints constraints hc)).append hl

theorem same (h : Fresh e table s) (hb : t.base = s.base) : Fresh e table t := by
  have hn : t.base.link.notes = s.base.link.notes ++ [] := by rw [hb, List.append_nil]
  exact h.after hn (by simp) (by simp [hb]) (by simp [hb])

theorem of_uncached (hcolumns : s.base.cache.columns? table = none)
    (hconstraints : s.base.cache.constraints? table = none) : Fresh e table s where
  columns columns h := by simp [hcolumns] at h
  constraints constraints h := by simp [hconstraints] at h

end Fresh

section Steps

variable {ed : Editor σ} {owner : Option Identifier}

def watched (ed : Editor σ) (owner : Option Identifier) : Editor (Noted σ Event) :=
  ed.noting (Event.ofStatement owner) Event.ofRows

/-- The statement is about a table of that name only, and the name is spelled as that of `table` is. -/
def Told (e : Engine) (table : String) (owner : Option Identifier) (name : String) (s : Statement) : Prop :=
  Alike e table name ∧ ∀ i, .about i ∈ Event.ofStatement owner s → i = Identifier.quote e name

theorem keeps_fresh_run {name : String} {s : Statement} (h : Told ed.engine table owner name s) :
    Keeps (Fresh ed.engine table) ((ed.watched owner).run name s) := by
  intro x hx
  have cache := ed.noting_run_cache (Event.ofStatement owner) Event.ofRows s x name
  by_cases hk : Cache.key table = Cache.key name
  · refine Fresh.of_uncached ?_ ?_
    · rw [watched, cache, Catalog.Cache.columns?_invalidate, if_pos hk]
    · rw [watched, cache, Catalog.Cache.constraints?_invalidate, if_pos hk]
  · have quiet : .about (Identifier.quote ed.engine table) ∉ Event.ofStatement owner s := by
      intro hi
      exact hk (h.1 (h.2 _ hi).symm).symm
    have keeps (later : List Event) (hl : .about (Identifier.quote ed.engine table) ∉ later)
        (hn : ((ed.watched owner).run name s x).2.base.link.notes = x.base.link.notes ++ later) :
        Fresh ed.engine table ((ed.watched owner).run name s x).2 := by
      refine hx.after hn hl ?_ ?_
      · simp [watched, cache, Catalog.Cache.columns?_invalidate, hk]
      · simp [watched, cache, Catalog.Cache.constraints?_invalidate, hk]
    rcases ed.noting_run_notes (Event.ofStatement owner) Event.ofRows s x name with hn | hn
    · exact keeps [] (by simp) (hn.trans (List.append_nil _).symm)
    · exact keeps _ quiet hn

theorem keeps_fresh_onLink {y : Action (Noted σ Event) α}
    (h : ∀ link, ∃ later, (y link).2.notes = link.notes ++ later ∧ Untouched later) :
    Keeps (Fresh e table) (onLink y) := by
  intro x hx
  obtain ⟨later, hn, hl⟩ := h x.base.link
  exact hx.after hn (hl _) (fun _ => id) fun _ => id

theorem keeps_fresh_ask (q : CatalogQuery) :
    Keeps (Fresh e table) (onLink (Catalog.ask (ed.watched owner).cursor q)) := by
  refine keeps_fresh_onLink fun link => ?_
  have asked := Catalog.ask_triple ed.cursor owner q link.notes link rfl
  have added : Ends (fun _ t => ∃ later, t.notes = link.notes ++ later ∧ Untouched later)
      (fun _ t => ∃ later, t.notes = link.notes ++ later ∧ Untouched later)
      (Catalog.ask (ed.watched owner).cursor q link) :=
    asked.mono (fun _ _ hn => ⟨_, hn, by simp [Untouched]⟩) fun _ _ hn => ⟨_, hn, by simp [Untouched]⟩
  exact Action.ends_always.mp added

theorem keeps_fresh_columns (name : String) :
    Keeps (Fresh e table) (onBase (Cached.columns (ed.watched owner).cursor e name)) := by
  intro x hx
  rw [onBase, Action.within_apply]
  cases hc : x.base.cache.columns? name with
  | some columns =>
    rw [Catalog.Cached.columns_hit _ _ _ _ hc]
    exact hx
  | none =>
    rw [Catalog.Cached.columns_miss _ _ _ _ hc]
    have read := Catalog.readColumns_triple ed.cursor e owner name x.base.link.notes x.base.link rfl
    change Ends _ _ (Catalog.readColumns (ed.watched owner).cursor e name x.base.link) at read
    revert read
    obtain ⟨r, link⟩ := Catalog.readColumns (ed.watched owner).cursor e name x.base.link
    cases r with
    | ok columns =>
      intro read
      obtain ⟨events, hn, hr⟩ := Action.ends_ok.mp read
      refine ⟨fun found hf => ?_, fun found hf => ?_⟩
      · rw [Cache.columns?_putColumns] at hf
        split at hf
        · next hk =>
          obtain rfl := Option.some.inj hf
          rw [hn]
          exact Latest.of_found _ (hr.shared hk)
        · rw [hn]
          exact (hx.columns found hf).append (hr.untouched _)
      · rw [hn]
        exact (hx.constraints found hf).append (hr.untouched _)
    | error error =>
      intro read
      obtain ⟨events, hn, hl⟩ := Action.ends_error.mp read
      exact hx.after hn (hl _) (fun _ => id) fun _ => id

theorem keeps_fresh_constraints (name : String) :
    Keeps (Fresh e table) (onBase (Cached.constraints (ed.watched owner).cursor e name)) := by
  intro x hx
  rw [onBase, Action.within_apply]
  cases hc : x.base.cache.constraints? name with
  | some constraints =>
    rw [Catalog.Cached.constraints_hit _ _ _ _ hc]
    exact hx
  | none =>
    rw [Catalog.Cached.constraints_miss _ _ _ _ hc]
    have read := Catalog.readConstraints_triple ed.cursor e owner name x.base.link.notes x.base.link rfl
    change Ends _ _ (Catalog.readConstraints (ed.watched owner).cursor e name x.base.link) at read
    revert read
    obtain ⟨r, link⟩ := Catalog.readConstraints (ed.watched owner).cursor e name x.base.link
    cases r with
    | ok constraints =>
      intro read
      obtain ⟨events, hn, hr⟩ := Action.ends_ok.mp read
      refine ⟨fun found hf => ?_, fun found hf => ?_⟩
      · rw [hn]
        exact (hx.columns found hf).append (hr.untouched _)
      · rw [Cache.constraints?_putConstraints] at hf
        split at hf
        · next hk =>
          obtain rfl := Option.some.inj hf
          rw [hn]
          exact Latest.of_found _ (hr.shared hk)
        · rw [hn]
          exact (hx.constraints found hf).append (hr.untouched _)
    | error error =>
      intro read
      obtain ⟨events, hn, hl⟩ := Action.ends_error.mp read
      exact hx.after hn (hl _) (fun _ => id) fun _ => id

/-- The keys that the catalog lists belong to tables whose names are spelled alike. -/
def ListsAlike (c : Cursor σ) (e : Engine) (table : String) : Prop :=
  ∀ name column link keys, (Catalog.incomingKeys c e name column link).1 = .ok keys →
    ∀ key ∈ keys, Alike e table key.table

theorem incomingKeys_fresh (hl : ListsAlike ed.cursor ed.engine table) (name column : String) :
    Triple (Fresh ed.engine table) ((ed.watched owner).incomingKeys name column)
      (fun keys x => (∀ key ∈ keys, Alike ed.engine table key.table) ∧ Fresh ed.engine table x)
      fun _ => Fresh ed.engine table := by
  unfold Editor.incomingKeys Editor.unlessCollecting
  split
  · exact Triple.pure fun x hx => ⟨by simp, hx⟩
  · refine Keeps.triple ?_ fun x keys hk => hl name column x.base.link.link keys ?_
    · rw [Catalog.incomingKeys, onLink_bind]
      exact (keeps_fresh_ask _).bind fun rows => Keeps.lift _
    · rw [← Catalog.incomingKeys_watched ed.cursor ed.engine owner]
      exact hk

theorem keeper_fresh (hl : ListsAlike ed.cursor ed.engine table) :
    Keeper (ed.watched owner) (Fresh ed.engine table) (Told ed.engine table owner)
      fun key => Alike ed.engine table key.table where
  run _ _ h := keeps_fresh_run h
  ask := keeps_fresh_ask
  constraints := keeps_fresh_constraints
  incoming := incomingKeys_fresh hl
  commit := keeps_fresh_onLink fun link => ⟨[], Cursor.noting_commit_adds ed.cursor _ _ link, by simp [Untouched]⟩
  putOff _ := Keeps.modify fun _ h => h.same rfl

end Steps

end Editor

end FirebirdSql
