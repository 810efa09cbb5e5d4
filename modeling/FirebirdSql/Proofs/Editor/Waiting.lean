import FirebirdSql.Proofs.Columns
import FirebirdSql.Proofs.Editor.Rehearsal

/-!
Foreign keys that wait until an editor is finished, and the columns that they are over. A model whose table cannot be
made leaves its keys waiting, and so does a removal the keys of what it removes. Only then does a key wait for a column
that is not there.
-/

namespace FirebirdSql.Editor

open Action (Keeps Triple Ends ends_ok ends_error)

/-- The columns that there are by the log, and the statements that wait. -/
structure Stands (commits : Bool) (before cols : Columns) (waiting : List Statement) (s : State (Noted σ Logged)) :
    Prop where
  shows : (Logged.standing before s.base.link.notes).Shows commits cols
  waits : s.deferred = waiting

variable {ed : Editor σ} {before cols : Columns} {waiting : List Statement}

theorem Stands.columns {commits : Bool} {s : State (Noted σ Logged)} (h : Stands commits before cols waiting s) :
    Logged.columns before s.base.link.notes = cols := h.shows.seen

theorem execute_stands (ed : Editor σ) (before cols : Columns) (waiting : List Statement) (s : Statement) :
    Triple (Stands ed.options.commitAfterDdl before cols waiting) (ed.logged.sending.execute s)
      (fun _ => Stands ed.options.commitAfterDdl before (s.columnsAfter cols) waiting)
      (fun _ => Stands ed.options.commitAfterDdl before cols waiting) := by
  intro x hx
  unfold Editor.execute
  rw [Action.bind_apply, Action.lift_apply]
  cases s.fragment.validate with
  | error e => exact ends_error.mpr hx
  | ok _ =>
    obtain ⟨calls, notes, tried⟩ := ed.send_logs s x.base.link
    have shows := hx.shows.tried tried
    rw [← Logged.standing_append, ← notes] at shows
    change Ends _ _ (onLink (ed.logged.send s) x)
    rw [onLink, onBase, Action.within_apply, Catalog.Cached.onLink, Action.within_apply]
    revert shows
    obtain ⟨r, link⟩ := ed.logged.send s x.base.link
    cases r with
    | ok _ => exact fun shows => ends_ok.mpr ⟨shows, hx.waits⟩
    | error e => exact fun shows => ends_error.mpr ⟨shows, hx.waits⟩

theorem run_stands (ed : Editor σ) (before cols : Columns) (waiting : List Statement) (table : String) (s : Statement) :
    Triple (Stands ed.options.commitAfterDdl before cols waiting) (ed.logged.sending.run table s)
      (fun _ => Stands ed.options.commitAfterDdl before (s.columnsAfter cols) waiting)
      (fun _ => Stands ed.options.commitAfterDdl before cols waiting) := by
  intro x hx
  have executed := execute_stands ed before cols waiting s x hx
  rw [run_apply]
  revert executed
  obtain ⟨r, t⟩ := ed.logged.sending.execute s x
  cases r with
  | ok _ => exact fun executed => ends_ok.mpr ⟨(ends_ok.mp executed).shows, (ends_ok.mp executed).waits⟩
  | error e => exact fun executed => ends_error.mpr ⟨(ends_error.mp executed).shows, (ends_error.mp executed).waits⟩

theorem ask_stands {commits : Bool} (q : CatalogQuery) :
    Keeps (Stands commits before cols waiting) (onLink (Catalog.ask ed.logged.cursor q)) := by
  intro x hx
  refine ⟨?_, hx.waits⟩
  change (Logged.standing before (ed.cursor.logged.query (.catalog q) x.base.link).2.notes).Shows _ _
  rw [(ed.cursor.logged_query_apply (.catalog q) x.base.link).2, Logged.standing_append]
  exact hx.shows.catalog q _

/-- Besides changing columns an editor leaves them, and what waits, alone. -/
theorem runner_stands (ed : Editor σ) (before cols : Columns) (waiting : List Statement) :
    Runner ed.logged.sending (Stands ed.options.commitAfterDdl before cols waiting)
      (fun _ s => ∀ cols, s.columnsAfter cols = cols) where
  run table s hs := by
    have ran := run_stands ed before cols waiting table s
    rw [hs cols] at ran
    exact Action.keeps_iff_triple.mpr ran
  ask := ask_stands
  constraints := keeps_constraints (fun _ _ hx => ⟨hx.shows, hx.waits⟩) ask_stands ed.engine
  commit x hx := by
    refine ⟨?_, hx.waits⟩
    change (Logged.standing before (x.base.link.notes ++ [_])).Shows _ _
    rw [Logged.standing_append]
    exact hx.shows.commit _

theorem allowsQuiet_stands (ed : Editor σ) (table : String) :
    ed.AllowsQuiet (fun _ s => ∀ cols, s.columnsAfter cols = cols) table :=
  fun _ _ keeps => Statement.columnsAfter_of_keepsRows keeps

theorem defer_stands {commits : Bool} (keys : List Statement) {E : Error → State (Noted σ Logged) → Prop} :
    Triple (Stands commits before cols waiting) (defer keys)
      (fun _ => Stands commits before cols (waiting ++ keys)) E :=
  fun _ hx => ends_ok.mpr ⟨hx.shows, congrArg (· ++ keys) hx.waits⟩

/-- What is done with an editor while foreign keys wait. -/
inductive Change where
  | createModel (model : Model)
  | addField (model : Model) (field : Field)
  | removeField (model : Model) (field : Field)
  | deleteModel (model : Model)

namespace Change

def run (ed : Editor σ) : Change → Edit σ Unit
  | .createModel m => ed.createModel m
  | .addField m f => ed.addField m f
  | .removeField m f => ed.removeField m f
  | .deleteModel m => ed.deleteModel m

/-- The one statement by which columns come or go. -/
def statement (ed : Editor σ) : Change → Statement
  | .createModel m => ed.createTableStatement m
  | .addField m f => .addColumn (ed.quote m.table) (ed.quote f.column) (ColumnDefinition.ofField ed.engine f true)
  | .removeField m f => .dropColumn (ed.quote m.table) (ed.quote f.column)
  | .deleteModel m => .dropTable (ed.quote m.table)

/-- The keys that are put off before that statement is sent. -/
def early (ed : Editor σ) : Change → List Statement
  | .createModel m => ed.foreignKeyStatements m.table m.fields
  | _ => []

/-- The keys that are put off once that statement has succeeded. -/
def late (ed : Editor σ) : Change → List Statement
  | .addField m f => ed.foreignKeyStatements m.table [f]
  | _ => []

/-- However a change ends, its early keys wait. Its late ones wait only if the columns have changed. -/
theorem stands (change : Change) {x : State (Noted σ Logged)}
    (hx : Stands ed.options.commitAfterDdl before cols waiting x) :
    ∃ cols' keys,
      (cols' = cols ∧ keys = [] ∨ cols' = (change.statement ed).columnsAfter cols ∧ (keys = [] ∨ keys = change.late ed)) ∧
      Stands ed.options.commitAfterDdl before cols' (waiting ++ change.early ed ++ keys)
        (change.run ed.logged.sending x).2 := by
  let changed := (change.statement ed).columnsAfter cols
  let Unchanged := Stands (σ := σ) ed.options.commitAfterDdl before cols (waiting ++ change.early ed)
  let Changed := Stands (σ := σ) ed.options.commitAfterDdl before changed (waiting ++ change.early ed)
  let Complete := Stands (σ := σ) ed.options.commitAfterDdl before changed (waiting ++ change.early ed ++ change.late ed)
  suffices ends : Triple (Stands ed.options.commitAfterDdl before cols waiting) (change.run ed.logged.sending)
      (fun _ s => Changed s ∨ Complete s) (fun _ s => Unchanged s ∨ Changed s ∨ Complete s) by
    rcases Action.ends_always.mp ((ends x hx).mono (fun _ _ => .inr) fun _ _ => id) with h | h | h
    · exact ⟨cols, [], .inl ⟨rfl, rfl⟩, (List.append_nil _).symm ▸ h⟩
    · exact ⟨changed, [], .inr ⟨rfl, .inl rfl⟩, (List.append_nil _).symm ▸ h⟩
    · exact ⟨changed, change.late ed, .inr ⟨rfl, .inr rfl⟩, h⟩
  -- only this statement leads from one to the other, whatever the program does before and after it
  have sent (table : String) :
      Triple Unchanged (ed.logged.sending.run table (change.statement ed)) (fun _ => Changed)
        (fun _ s => Unchanged s ∨ Changed s ∨ Complete s) :=
    (run_stands ed before cols _ table _).weaken (fun _ => id) (fun _ _ => id) fun _ _ => .inl
  have runner := runner_stands ed before changed (waiting ++ change.early ed)
  have start (s : State (Noted σ Logged)) (h : Stands ed.options.commitAfterDdl before cols waiting s) :
      Stands ed.options.commitAfterDdl before cols (waiting ++ []) s := (List.append_nil waiting).symm ▸ h
  cases change with
  | createModel m =>
    have made := Runner.createModel_triple runner (allowsQuiet_stands _ _) (defer_stands _) (sent m.table)
      fun _ _ h => .inr (.inl h)
    exact made.weaken (fun _ => id) (fun _ _ => .inl) fun _ _ => id
  | addField m f =>
    have refresh : Keeps Complete ed.logged.sending.refresh := (runner_stands ed _ _ _).refresh
    have added := Runner.addField_triple runner (allowsQuiet_stands _ _) (fun _ => rfl) (sent m.table) (defer_stands _) refresh
      (fun _ _ h => .inr (.inl h)) fun _ _ h => .inr (.inr h)
    exact added.weaken start (fun _ _ => .inr) fun _ _ => id
  | removeField m f =>
    have removed := Runner.removeField_triple (f := f) (runner_stands ed before cols (waiting ++ [])) runner
      (allowsQuiet_stands _ _) (sent m.table) (fun _ _ => .inl) fun _ _ h => .inr (.inl h)
    exact removed.weaken start (fun _ _ => .inl) fun _ _ => id
  | deleteModel m =>
    have deleted := Runner.deleteModel_triple runner (allowsQuiet_stands _ _) (sent m.table) fun _ _ h => .inr (.inl h)
    exact deleted.weaken start (fun _ _ => .inl) fun _ _ => id

end Change

theorem supports_foreignKeyStatements {table : String} {fields : List Field} :
    cols.Supports (ed.foreignKeyStatements table fields) ↔
      ∀ f ∈ fields, f.foreignKey.isSome = true → cols ⟨ed.quote table, ed.quote f.column⟩ = true := by
  constructor
  · intro supports f hf declared
    obtain ⟨key, hk⟩ := Option.isSome_iff_exists.mp declared
    have waits : ed.foreignKeyStatement table f.column key ∈ ed.foreignKeyStatements table fields :=
      List.mem_filterMap.mpr ⟨f, hf, congrArg (Option.map _) hk⟩
    exact supports _ waits _ List.mem_cons_self
  · intro there s hs p hp
    obtain ⟨f, hf, made⟩ := List.mem_filterMap.mp hs
    obtain ⟨key, hk, rfl⟩ := Option.map_eq_some_iff.mp made
    obtain rfl := List.mem_singleton.mp hp
    exact there f hf (Option.isSome_iff_exists.mpr ⟨key, hk⟩)

/-- All columns that waiting keys are over are there. -/
def Supported (before : Columns) (s : State (Noted σ Logged)) : Prop :=
  (Logged.columns before s.base.link.notes).Supports s.deferred

/-- The change leaves a key waiting whose column is not there afterwards: a key of the model whose table it does not make,
or one that waited and is over what it removes. -/
def Change.Orphans (ed : Editor (Noted σ Logged)) (before : Columns) (change : Change) (s : State (Noted σ Logged)) :
    Prop :=
  let cols := Logged.columns before (change.run ed s).2.base.link.notes
  match change with
  | .createModel m =>
    ∃ f ∈ m.fields, f.foreignKey.isSome = true ∧ cols ⟨ed.quote m.table, ed.quote f.column⟩ = false
  | .addField _ _ => False
  | .removeField m f =>
    ∃ key ∈ s.deferred, ∃ p ∈ key.keyPlaces, p = ⟨ed.quote m.table, ed.quote f.column⟩ ∧ cols p = false
  | .deleteModel m => ∃ key ∈ s.deferred, ∃ p ∈ key.keyPlaces, p.table = ed.quote m.table ∧ cols p = false

instance (ed : Editor (Noted σ Logged)) (before : Columns) :
    (change : Change) → (s : State (Noted σ Logged)) → Decidable (change.Orphans ed before s)
  | .createModel _, _ | .removeField _ _, _ | .deleteModel _, _ => inferInstanceAs (Decidable (∃ _ ∈ _, _))
  | .addField _ _, _ => inferInstanceAs (Decidable False)

/-- If all waiting keys are supported before a change, they are afterwards just if it orphans none. -/
theorem Change.supported_iff (ed : Editor σ) (change : Change) {x : State (Noted σ Logged)}
    (hx : Stands ed.options.commitAfterDdl before cols waiting x) (supported : Supported before x) :
    Supported before (change.run ed.logged.sending x).2 ↔ ¬change.Orphans ed.logged.sending before x := by
  have live : cols.Supports waiting := by
    rw [Supported, hx.columns, hx.waits] at supported
    exact supported
  obtain ⟨cols', keys, done, next⟩ := change.stands hx
  have kept (p : Place) : (change.statement ed).columnsAfter cols p = true → cols p = true → cols' p = true := by
    intro hp hc
    rcases done with ⟨rfl, -⟩ | ⟨rfl, -⟩
    · exact hc
    · exact hp
  have quiet (none : change.late ed = []) : keys = [] := by
    rcases done with ⟨-, rfl⟩ | ⟨-, rfl | rfl⟩
    · rfl
    · rfl
    · exact none
  rw [Supported, next.columns, next.waits, Columns.supports_append, Columns.supports_append]
  unfold Orphans
  rw [next.columns, hx.waits]
  cases change with
  | createModel m =>
    obtain rfl := quiet rfl
    have waited : cols'.Supports waiting := live.mono fun p hc => kept p (Bool.or_eq_true_iff.mpr (.inl hc)) hc
    rw [and_iff_left Columns.supports_nil, and_iff_right waited]
    refine supports_foreignKeyStatements.trans ⟨?_, fun none f hf declared => ?_⟩
    · rintro there ⟨f, hf, declared, missing⟩
      exact Bool.false_ne_true (missing.symm.trans (there f hf declared))
    · exact (Bool.not_eq_false _).mp fun missing => none ⟨f, hf, declared, missing⟩
  | addField m f =>
    have waited : cols'.Supports waiting := live.mono fun p hc => kept p (Bool.or_eq_true_iff.mpr (.inl hc)) hc
    refine iff_of_true ⟨⟨waited, Columns.supports_nil⟩, ?_⟩ id
    rcases done with ⟨-, rfl⟩ | ⟨rfl, rfl | rfl⟩
    · exact Columns.supports_nil
    · exact Columns.supports_nil
    · refine supports_foreignKeyStatements.mpr fun g hg _ => ?_
      obtain rfl := List.mem_singleton.mp hg
      exact Bool.or_eq_true_iff.mpr (.inr (beq_self_eq_true _))
  | removeField m f | deleteModel m =>
    obtain rfl := quiet rfl
    refine (and_iff_left Columns.supports_nil).trans ((and_iff_left Columns.supports_nil).trans ?_)
    exact live.iff_of_kept fun p hp hc => kept p (Bool.and_eq_true_iff.mpr ⟨hc, bne_iff_ne.mpr hp⟩) hc

/-- The columns can be told from the log, and what waits are foreign keys over one column each. -/
def Tracked (commits : Bool) (before : Columns) (s : State (Noted σ Logged)) : Prop :=
  ∃ cols waiting, Stands commits before cols waiting s ∧ ∀ key ∈ waiting, ∃ p, key.keyPlaces = [p]

theorem keyPlaces_of_mem_foreignKeyStatements {table : String} {fields : List Field} :
    ∀ key ∈ ed.foreignKeyStatements table fields, ∃ p, key.keyPlaces = [p] := by
  intro s hs
  obtain ⟨f, -, made⟩ := List.mem_filterMap.mp hs
  obtain ⟨key, -, rfl⟩ := Option.map_eq_some_iff.mp made
  exact ⟨_, rfl⟩

theorem Change.keeps_tracked (ed : Editor σ) (before : Columns) (change : Change) :
    Keeps (Tracked ed.options.commitAfterDdl before) (change.run ed.logged.sending) := by
  rintro x ⟨cols, waiting, hx, keyed⟩
  obtain ⟨cols', keys, done, next⟩ := change.stands hx
  refine ⟨cols', _, next, List.forall_mem_append.mpr ⟨List.forall_mem_append.mpr ⟨keyed, ?_⟩, ?_⟩⟩
  · cases change with
    | createModel m => exact keyPlaces_of_mem_foreignKeyStatements
    | addField | removeField | deleteModel => exact List.forall_mem_nil _
  · rcases done with ⟨-, rfl⟩ | ⟨-, rfl | rfl⟩
    · exact List.forall_mem_nil _
    · exact List.forall_mem_nil _
    · cases change with
      | addField m f => exact keyPlaces_of_mem_foreignKeyStatements
      | createModel | removeField | deleteModel => exact List.forall_mem_nil _

/-- A statement is sent, unless values are missing for it. -/
theorem execute_sends (ed : Editor σ) {s : Statement} (change : s.isCatalogRead = false) (x : State (Noted σ Logged)) :
    Logged.sent (ed.logged.sending.execute s x).2.base.link.notes = Logged.sent x.base.link.notes ++ [s] ∨
      (ed.logged.sending.execute s x).1 ≠ .ok () ∧ (ed.logged.sending.execute s x).2 = x := by
  unfold Editor.execute
  rw [Action.bind_apply, Action.lift_apply]
  cases s.fragment.validate with
  | error e => exact .inr ⟨(nomatch ·), rfl⟩
  | ok _ => exact .inl (ed.logged_send_sent change x.base.link)

/-- Of several statements those up to the first that fails are sent. -/
theorem forEach_execute_sends (ed : Editor σ) {ss : List Statement} (changes : ∀ s ∈ ss, s.isCatalogRead = false)
    (x : State (Noted σ Logged)) :
    ∃ sent rest, ss = sent ++ rest ∧
      Logged.sent (Action.forEach ed.logged.sending.execute ss x).2.base.link.notes =
        Logged.sent x.base.link.notes ++ sent ∧
      ((Action.forEach ed.logged.sending.execute ss x).1 = .ok () → rest = []) := by
  induction ss generalizing x with
  | nil => exact ⟨[], [], rfl, (List.append_nil _).symm, fun _ => rfl⟩
  | cons s ss ih =>
    have first := execute_sends ed (changes s List.mem_cons_self) x
    rw [Action.forEach, Action.bind]
    revert first
    obtain ⟨r, t⟩ := ed.logged.sending.execute s x
    cases r with
    | error e =>
      have fails : (.error e : Except Error Unit) ≠ .ok () := fun h => by cases h
      rintro (sent | ⟨-, rfl⟩)
      · exact ⟨[s], ss, rfl, sent, fun done => absurd done fails⟩
      · exact ⟨[], s :: ss, rfl, (List.append_nil _).symm, fun done => absurd done fails⟩
    | ok _ =>
      rintro (first | ⟨failed, -⟩)
      · obtain ⟨sent, rest, rfl, notes, all⟩ := ih (fun s hs => changes s (List.mem_cons_of_mem _ hs)) t
        refine ⟨s :: sent, rest, rfl, ?_, all⟩
        rw [List.append_cons, ← first]
        exact notes
      · exact absurd rfl failed

/-- The keys that wait are all supported as long as no change orphans one. To finish sends them, up to the first that
fails, and nothing else; without an orphan every one that is sent is over a column that is there. -/
theorem finish_sends_supported (c : Cursor σ) (e : Engine) (o : Options) (before : Columns) (changes : List Change)
    (link : σ) (cache : Catalog.Cache) :
    let ed : Editor (Noted σ Logged) := ⟨c.logged, e, o, false⟩
    let start := State.ofBase ⟨⟨link, []⟩, cache⟩
    let changed := Action.after (Change.run ed) changes start
    let finished := Request.finish.run ed changed
    let NoneOrphans := Action.Each (fun change s => ¬change.Orphans ed before s) (Change.run ed) changes start
    (Action.Throughout (Supported before) (Change.run ed) changes start ↔ NoneOrphans) ∧
      ∃ sent rest, changed.deferred = sent ++ rest ∧
        Logged.sent finished.2.base.link.notes = Logged.sent changed.base.link.notes ++ sent ∧
        (finished.1 = .ok () → rest = []) ∧
        Logged.columns before finished.2.base.link.notes = Logged.columns before changed.base.link.notes ∧
        ∀ key ∈ sent, key.isForeignKey = true ∧ ∃ p, key.keyPlaces = [p] ∧
          (NoneOrphans → Logged.columns before changed.base.link.notes p = true) := by
  intro ed start changed finished NoneOrphans
  let plain : Editor σ := ⟨c, e, o, false⟩
  have tracked : Tracked o.commitAfterDdl before start :=
    ⟨before, [], ⟨⟨rfl, fun _ => rfl⟩, rfl⟩, List.forall_mem_nil _⟩
  have kept (change : Change) : Keeps (Tracked o.commitAfterDdl before) (change.run ed) :=
    change.keeps_tracked plain before
  have throughout : Action.Throughout (Supported before) (Change.run ed) changes start ↔ NoneOrphans := by
    refine Action.throughout_iff kept ?_ tracked (List.forall_mem_nil _)
    rintro change s ⟨cols, waiting, hs, -⟩ supported
    exact change.supported_iff plain hs supported
  refine ⟨throughout, ?_⟩
  obtain ⟨cols, waiting, stands, keyed⟩ : Tracked o.commitAfterDdl before changed :=
    Keeps.after (fun change _ => kept change) tracked
  rw [← stands.waits] at keyed
  have keys : ∀ key ∈ changed.deferred, key.isForeignKey = true := by
    intro key hk
    obtain ⟨p, place⟩ := keyed key hk
    exact Statement.isForeignKey_of_mem_keyPlaces (place ▸ List.mem_cons_self)
  have ended : finished = Action.forEach ed.execute changed.deferred { changed with deferred := [] } :=
    finish_apply ed changed
  obtain ⟨sent, rest, split, notes, all⟩ := forEach_execute_sends plain
    (fun key hk => Statement.isCatalogRead_of_isForeignKey (keys key hk)) { changed with deferred := [] }
  have still : Keeps (Stands o.commitAfterDdl before cols []) (Action.forEach ed.execute changed.deferred) := by
    refine Keeps.forEach fun key hk => ?_
    have executed := execute_stands plain before cols [] key
    rw [Statement.columnsAfter_of_keepsRows (Statement.keepsRows_of_isForeignKey (keys key hk)) cols] at executed
    exact Action.keeps_iff_triple.mpr executed
  have columns : Logged.columns before finished.2.base.link.notes = cols :=
    ended ▸ (still { changed with deferred := [] } ⟨stands.shows, rfl⟩).columns
  refine ⟨sent, rest, split, ended ▸ notes, ended ▸ all, columns.trans stands.columns.symm, fun key hk => ?_⟩
  have waited : key ∈ changed.deferred := split ▸ List.mem_append_left rest hk
  obtain ⟨p, place⟩ := keyed key waited
  refine ⟨keys key waited, p, place, fun none => ?_⟩
  exact (throughout.mpr none).last key waited p (place ▸ List.mem_cons_self)

namespace Waiting

def engine : Engine := ⟨⟨3, 0, 0, 0⟩⟩

def pages : Field := Field.ofType "pages" .integer

def books : Model where
  table := "book"
  fields := [{ Field.ofType "author" .integer with foreignKey := some ⟨"author", "id", .cascade⟩ }, pages]
  uniqueTogether := []
  indexTogether := []
  indexes := []

def editor : Field := { Field.ofType "editor" .integer with foreignKey := some ⟨"author", "id", .setNull⟩ }

/-- Of the authors only the column of their keys is there. -/
def authors : Columns := fun p => p = ⟨Identifier.quote engine "author", Identifier.quote engine "id"⟩

/-- Books get an editor and lose a column without a key: both keys that wait stay supported. -/
theorem finish_sends_supported_books :
    let ed : Editor (Noted Script Logged) := ⟨Script.cursor.logged, engine, Options.standard, false⟩
    let start := State.ofBase ⟨⟨⟨"", [], [], [], []⟩, []⟩, .empty⟩
    let changes := [Change.createModel books, .addField books editor, .removeField books pages]
    Action.Each (fun change s => ¬change.Orphans ed authors s) (Change.run ed) changes start ∧
      Action.Throughout (Supported authors) (Change.run ed) changes start ∧
      (Action.after (Change.run ed) changes start).deferred.length = 2 := by
  intro ed start changes
  have none : Action.Each (fun change s => ¬change.Orphans ed authors s) (Change.run ed) changes start := by
    decide +kernel
  obtain ⟨throughout, -⟩ :=
    finish_sends_supported Script.cursor engine Options.standard authors changes ⟨"", [], [], [], []⟩ .empty
  exact ⟨none, throughout.mpr none, by decide +kernel⟩

/-- Books whose table is refused get their key in the end nevertheless. -/
theorem finish_sends_unsupported :
    let refusing : Script := ⟨"", [], [⟨"CREATE TABLE", 0, some 1, ⟨-607, 335544351, ""⟩⟩], [], []⟩
    let ed : Editor (Noted Script Logged) := ⟨Script.cursor.logged, engine, Options.standard, false⟩
    let created := ed.createModel books (State.ofBase ⟨⟨refusing, []⟩, .empty⟩)
    let finished := Request.finish.run ed created.2
    let sent := (Logged.sent finished.2.base.link.notes).drop (Logged.sent created.2.base.link.notes).length
    sent.map (·.fragment.template) =
        ["ALTER TABLE \"BOOK\" ADD CONSTRAINT \"BOOK_AUTHOR_83727006_FK\" FOREIGN KEY (\"AUTHOR\") " ++
          "REFERENCES \"AUTHOR\" (\"ID\") ON DELETE CASCADE"] ∧
      ¬(Logged.columns authors created.2.base.link.notes).Supports sent := by
  decide +kernel

end Waiting

end FirebirdSql.Editor
