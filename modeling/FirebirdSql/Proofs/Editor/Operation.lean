import FirebirdSql.Proofs.Editor.Freshness

/-!
Runs of editors and of questions over one connection and one cache. A table's description outlives a statement about
the table only where an editor that ends sends a foreign key that was put off.
-/

namespace FirebirdSql.Editor

open Action (Keeps)
open Catalog (Cached)
open Identifier (Alike)

/-- What is done with an editor, or asked through the cache that it shares. -/
inductive Operation where
  | createModel (model : Model)
  | deleteModel (model : Model)
  | addField (model : Model) (field : Field)
  | removeField (model : Model) (field : Field)
  | alterField (alteration : Alteration)
  | addIndex (model : Model) (index : Index)
  | removeIndex (model : Model) (index : Index)
  | alterUniqueTogether (model : Model) (old new : List (List String))
  | alterIndexTogether (model : Model) (old new : List (List String))
  | columns (table : String)
  | constraints (table : String)
  | ask (query : CatalogQuery)
  | finish
  /-- Another editor takes the place of one that was not finished. -/
  | renew

namespace Operation

/-- The table that the operation changes. -/
def table? : Operation → Option String
  | .createModel m | .deleteModel m | .addField m _ | .removeField m _ | .addIndex m _ | .removeIndex m _
  | .alterUniqueTogether m _ _ | .alterIndexTogether m _ _ => some m.table
  | .alterField a => some a.table
  | _ => none

def run (ed : Editor σ) : Operation → Edit σ Unit
  | .createModel m => ed.createModel m
  | .deleteModel m => ed.deleteModel m
  | .addField m f => ed.addField m f
  | .removeField m f => ed.removeField m f
  | .alterField a => ed.alterField a
  | .addIndex m i => ed.addIndex m i
  | .removeIndex m i => ed.removeIndex m i
  | .alterUniqueTogether m old new => ed.alterUniqueTogether m old new
  | .alterIndexTogether m old new => ed.alterIndexTogether m old new
  | .columns table => do
    let _ ← onBase (Cached.columns ed.cursor ed.engine table)
    return ()
  | .constraints table => do
    let _ ← onBase (Cached.constraints ed.cursor ed.engine table)
    return ()
  | .ask q => do
    let _ ← onLink (Catalog.ask ed.cursor q)
    return ()
  | .finish => do
    let _ ← ed.finish.attempt
    Action.modify fun s => .ofBase s.base
  | .renew => Action.modify fun s => .ofBase s.base

end Operation

structure Step where
  options : Options
  collects : Bool
  operation : Operation

namespace Step

variable (c : Cursor σ) (e : Engine)

/-- The editor over the connection that is watched; indexes that it drops are those of the operation's table. -/
def editor (step : Step) : Editor (Noted σ Event) :=
  (⟨c, e, step.options, step.collects⟩ : Editor σ).watched (step.operation.table?.map (Identifier.quote e))

/-- The state after the step. The run goes on also after a failure. -/
def next (step : Step) (s : State (Noted σ Event)) : State (Noted σ Event) := (step.operation.run (step.editor c e) s).2

/-- The step sends statements that were put off, one of them about the table, of which something is remembered. -/
def Overlooks (table : String) (step : Step) (s : State (Noted σ Event)) : Prop :=
  step.operation = .finish ∧ s.base.cache.isCached table = true ∧
    .about (Identifier.quote e table) ∈ (step.next c e s).base.link.notes.drop s.base.link.notes.length

def Throughout (p : State (Noted σ Event) → Prop) : List Step → State (Noted σ Event) → Prop
  | [], s => p s
  | step :: steps, s => p s ∧ Throughout p steps (step.next c e s)

def NoneOverlooks (table : String) : List Step → State (Noted σ Event) → Prop
  | [], _ => True
  | step :: steps, s => ¬step.Overlooks c e table s ∧ NoneOverlooks table steps (step.next c e s)

end Step

variable {c : Cursor σ} {e : Engine} {table : String}

theorem watched_allows {ed : Editor σ} {name : String} (h : Alike ed.engine table name) :
    (ed.watched (some (ed.quote name))).Allows (Told ed.engine table (some (ed.quote name))) name := by
  intro s hs
  refine ⟨h, fun i hi => ?_⟩
  unfold Event.ofStatement at hi
  split at hi
  · simp at hi
  · simpa [Editor.quote] using hi
  · rcases hs with hs | hs
    · simp [hs] at hi
    · simpa [hs, watched, noting] using hi

theorem watched_allowsKeys (ed : Editor σ) (owner : Option Identifier) :
    (ed.watched owner).AllowsKeys (Told ed.engine table owner) fun key => Alike ed.engine table key.table := by
  intro key hk s hs _
  refine ⟨hk, fun i hi => ?_⟩
  unfold Event.ofStatement at hi
  split at hi
  · simp at hi
  · simp [Statement.table?] at hs
  · simpa [hs, Editor.quote, watched, noting] using hi

/-- An operation that names a table keeps what is remembered fresh. -/
theorem Operation.keeps_fresh (hl : ListsAlike c e table) {step : Step}
    (ht : ∀ name ∈ step.operation.table?, Alike e table name) (hf : step.operation ≠ .finish) :
    Keeps (Fresh e table) (step.operation.run (step.editor c e)) := by
  obtain ⟨options, collects, operation⟩ := step
  let ed : Editor σ := ⟨c, e, options, collects⟩
  have keeper (name : String) : Keeper (ed.watched (some (Identifier.quote e name))) (Fresh e table)
      (Told e table (some (Identifier.quote e name))) fun key => Alike e table key.table := keeper_fresh hl
  have allows (name : String) (h : some name = operation.table?) :
      (ed.watched (some (Identifier.quote e name))).Allows
        (Told e table (some (Identifier.quote e name))) name := watched_allows (ht name h.symm)
  have quiet (name : String) (h : some name = operation.table?) :
      (ed.watched (some (Identifier.quote e name))).AllowsQuiet
        (Told e table (some (Identifier.quote e name))) name := fun s hs _ => allows name h s hs
  cases operation with
  | createModel m => exact (keeper m.table).createModel (allows _ rfl)
  | deleteModel m => exact (keeper m.table).deleteModel (allows _ rfl)
  | addField m f => exact (keeper m.table).addField (allows _ rfl) f
  | removeField m f => exact (keeper m.table).removeField (allows _ rfl) f
  | alterField a => exact (keeper a.table).alterField (allows _ rfl) (watched_allowsKeys ed _)
  | addIndex m i => exact (keeper m.table).addIndex (quiet _ rfl) i
  | removeIndex m i => exact (keeper m.table).removeIndex (quiet _ rfl) i
  | alterUniqueTogether m old new => exact (keeper m.table).alterTogether (quiet _ rfl) true old new
  | alterIndexTogether m old new => exact (keeper m.table).alterTogether (quiet _ rfl) false old new
  | columns name => exact (keeps_fresh_columns name).bind fun _ => Keeps.pure ()
  | constraints name => exact (keeps_fresh_constraints name).bind fun _ => Keeps.pure ()
  | ask q => exact (keeps_fresh_ask q).bind fun _ => Keeps.pure ()
  | finish => exact absurd rfl hf
  | renew => exact Keeps.modify fun _ h => h.same rfl

/-- Sending what was put off asks nothing and leaves the cache alone. -/
theorem Operation.finish_events (ed : Editor σ) (owner : Option Identifier) (s : State (Noted σ Event)) :
    ∃ later, (Operation.finish.run (ed.watched owner) s).2.base.link.notes = s.base.link.notes ++ later ∧
      (∀ rows, .answered rows ∉ later) ∧
      (Operation.finish.run (ed.watched owner) s).2.base.cache = s.base.cache := by
  let Sent (t : State (Noted σ Event)) : Prop :=
    ∃ later, t.base.link.notes = s.base.link.notes ++ later ∧ (∀ rows, .answered rows ∉ later) ∧
      t.base.cache = s.base.cache
  have execute (statement : Statement) : Keeps Sent ((ed.watched owner).execute statement) := by
    rintro t ⟨later, hn, ha, hc⟩
    obtain ⟨notes, cache⟩ := ed.noting_execute_notes (Event.ofStatement owner) Event.ofRows statement t
    rcases notes with notes | notes
    · exact ⟨later, notes.trans hn, ha, cache.trans hc⟩
    · refine ⟨later ++ Event.ofStatement owner statement, ?_, fun rows => ?_, cache.trans hc⟩
      · rw [watched, notes, hn, List.append_assoc]
      · simp [ha, Event.answered_notMem_ofStatement]
  have finish : Keeps Sent (ed.watched owner).finish := by
    have emptied : Keeps Sent (Action.modify fun t => { t with deferred := [] }) := Keeps.modify fun _ h => h
    refine Keeps.get.bind fun t => emptied.bind fun _ => ?_
    exact (Keeps.forEach fun statement _ => execute statement).bind fun _ => Keeps.get.bind fun t => Keeps.pure _
  have whole : Keeps Sent (Operation.finish.run (ed.watched owner)) :=
    finish.attempt.bind fun _ => Keeps.modify fun _ h => h
  exact whole s ⟨[], (List.append_nil _).symm, by simp, rfl⟩

/-- An editor that ends keeps what is remembered of the table fresh just if it does not overlook it. -/
theorem Step.fresh_finish_iff {step : Step} (hf : step.operation = .finish) {s : State (Noted σ Event)}
    (hs : Fresh e table s) : Fresh e table (step.next c e s) ↔ ¬step.Overlooks c e table s := by
  obtain ⟨options, collects, operation⟩ := step
  obtain rfl : operation = .finish := hf
  obtain ⟨later, notes, answers, cache⟩ := Operation.finish_events ⟨c, e, options, collects⟩ none s
  have added : Step.Overlooks c e table ⟨options, collects, .finish⟩ s ↔
      s.base.cache.isCached table = true ∧ .about (Identifier.quote e table) ∈ later := by
    change _ = _ at notes
    unfold Step.Overlooks
    rw [show (Step.next c e ⟨options, collects, .finish⟩ s).base.link.notes = _ from notes, List.drop_left]
    simp
  rw [added]
  constructor
  · rintro h ⟨hc, ha⟩
    rcases Bool.or_eq_true_iff.mp hc with hc | hc
    · obtain ⟨columns, hc⟩ := Option.isSome_iff_exists.mp hc
      have latest := h.columns columns ((congrArg (·.columns? table) cache).trans hc)
      rw [show (Step.next c e ⟨options, collects, .finish⟩ s).base.link.notes = _ from notes] at latest
      exact Latest.not_append (fun _ h => h.ends) answers ha latest
    · obtain ⟨constraints, hc⟩ := Option.isSome_iff_exists.mp hc
      have latest := h.constraints constraints ((congrArg (·.constraints? table) cache).trans hc)
      rw [show (Step.next c e ⟨options, collects, .finish⟩ s).base.link.notes = _ from notes] at latest
      exact Latest.not_append (fun _ h => h.ends) answers ha latest
  · intro h
    by_cases hc : s.base.cache.isCached table = true
    · refine hs.after notes (fun ha => h ⟨hc, ha⟩) (fun columns hcolumns => ?_) fun constraints hconstraints => ?_
      · exact (congrArg (·.columns? table) cache).symm.trans hcolumns
      · exact (congrArg (·.constraints? table) cache).symm.trans hconstraints
    · simp only [Catalog.Cache.isCached, Bool.or_eq_true, not_or, Option.not_isSome_iff_eq_none] at hc
      refine Fresh.of_uncached ?_ ?_
      · exact (congrArg (·.columns? table) cache).trans hc.1
      · exact (congrArg (·.constraints? table) cache).trans hc.2

/-- Along a run what is remembered of a table stays fresh just if no editor that ends overlooks the table. -/
theorem fresh_throughout_iff (hl : ListsAlike c e table) {steps : List Step}
    (ht : ∀ step ∈ steps, ∀ name ∈ step.operation.table?, Alike e table name) {s : State (Noted σ Event)}
    (hs : Fresh e table s) :
    Step.Throughout c e (Fresh e table) steps s ↔ Step.NoneOverlooks c e table steps s := by
  induction steps generalizing s with
  | nil => exact ⟨fun _ => trivial, fun _ => hs⟩
  | cons step steps ih =>
    have rest {t : State (Noted σ Event)} := @ih (fun later hm => ht later (List.mem_cons_of_mem step hm)) t
    have next : Fresh e table (step.next c e s) ↔ ¬step.Overlooks c e table s := by
      by_cases hf : step.operation = .finish
      · exact Step.fresh_finish_iff hf hs
      · have kept := Operation.keeps_fresh hl (ht step List.mem_cons_self) hf s hs
        exact ⟨fun _ h => hf h.1, fun _ => kept⟩
    constructor
    · rintro ⟨-, h⟩
      have fresh : Fresh e table (step.next c e s) := by
        cases steps with
        | nil => exact h
        | cons _ _ => exact h.1
      exact ⟨next.mp fresh, (rest fresh).mp h⟩
    · rintro ⟨hn, h⟩
      exact ⟨hs, (rest (next.mpr hn)).mpr h⟩

namespace Sample

def engine : Engine := ⟨⟨3, 0, 0, 0⟩⟩

def books : Model where
  table := "book"
  fields := [.autoKey "id",
    { Field.ofType "author" .integer with foreignKey := some ⟨"author", "id", .noAction⟩ }]
  uniqueTogether := []
  indexTogether := []
  indexes := []

def step (operation : Operation) : Step := ⟨Options.standard, false, operation⟩

def creation : State (Noted Unit Event) := ⟨⟨⟨(), []⟩, .empty⟩, [], []⟩

theorem silent_listsAlike : ListsAlike Cursor.silent engine "book" := by
  intro name column link keys h key hk
  obtain rfl : [] = keys := Except.ok.inj h
  exact absurd hk List.not_mem_nil

theorem creation_fresh : Fresh engine "book" creation := Fresh.of_uncached rfl rfl

theorem books_alike {operation : Operation} (h : operation.table? = some "book" ∨ operation.table? = none) :
    ∀ name ∈ (step operation).operation.table?, Alike engine "book" name := by
  intro name hm
  rcases h with h | h
  · obtain rfl : "book" = name := Option.some.inj (h.symm.trans hm)
    exact fun _ => rfl
  · exact absurd (h.symm.trans hm) (by simp)

/-- The table is created, its key is made, and only then its constraints are asked for. -/
def prompt : List Step :=
  [step (.createModel books), step .finish, step (.constraints "book"), step (.addIndex books ⟨"by_author", ["author"]⟩)]

theorem prompt_alike : ∀ step ∈ prompt, ∀ name ∈ step.operation.table?, Alike engine "book" name := by
  intro step hm
  simp only [prompt, List.mem_cons, List.not_mem_nil, or_false] at hm
  rcases hm with rfl | rfl | rfl | rfl
  · exact books_alike (.inl rfl)
  · exact books_alike (.inr rfl)
  · exact books_alike (.inr rfl)
  · exact books_alike (.inl rfl)

theorem prompt_noneOverlooks : Step.NoneOverlooks .silent engine "book" prompt creation := by
  refine ⟨fun h => ?_, fun h => ?_, fun h => ?_, fun h => ?_, trivial⟩
  · exact absurd h.1 (by simp [step])
  · exact absurd h.2.1 (by decide +kernel)
  · exact absurd h.1 (by simp [step])
  · exact absurd h.1 (by simp [step])

/-- The constraints are asked for while the key still waits. -/
def early : List Step := [step (.createModel books), step (.constraints "book"), step .finish]

theorem early_overlooks :
    (step .finish).Overlooks .silent engine "book"
      ((step (.constraints "book")).next .silent engine ((step (.createModel books)).next .silent engine creation)) :=
  ⟨rfl, by decide +kernel, by decide +kernel⟩

end Sample

theorem fresh_throughout_prompt :
    ListsAlike Cursor.silent Sample.engine "book" ∧ Fresh Sample.engine "book" Sample.creation ∧
      Step.Throughout .silent Sample.engine (Fresh Sample.engine "book") Sample.prompt Sample.creation :=
  ⟨Sample.silent_listsAlike, Sample.creation_fresh,
    (fresh_throughout_iff Sample.silent_listsAlike Sample.prompt_alike Sample.creation_fresh).mpr
      Sample.prompt_noneOverlooks⟩

/-- What was remembered of the books is given out after their key was made. -/
theorem stale_after_early :
    ¬Step.Throughout .silent Sample.engine (Fresh Sample.engine "book") Sample.early Sample.creation := by
  rintro ⟨-, -, asked, finished⟩
  exact (Step.fresh_finish_iff rfl asked).mp finished Sample.early_overlooks

end FirebirdSql.Editor
