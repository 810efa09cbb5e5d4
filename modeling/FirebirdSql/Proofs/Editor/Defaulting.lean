import FirebirdSql.Proofs.Defaults
import FirebirdSql.Proofs.Editor.Keeper
import FirebirdSql.Proofs.Transaction

/-!
Defaults that are not to stay in the database. A field that is added or altered gives its column a default for a while
and takes it back; a table that is created keeps those of its columns.
-/

namespace FirebirdSql

namespace Catalog

/-- What the rows about a column tell of its default. -/
def toldDefault : List Row → Except Error Bool
  | r :: _ => Option.isSome <$> r.getName? 0
  | [] => .ok false

theorem hasDefault_eq (c : Cursor σ) (e : Engine) (table column : String) :
    hasDefault c e table column =
      ask c (.columnDefault (Identifier.catalogName e table) (Identifier.catalogName e column)) >>= fun rows =>
        Action.lift (toldDefault rows) := by
  refine congrArg (Bind.bind _) (funext fun rows => ?_)
  cases rows <;> rfl

end Catalog

/-- The connection takes every statement and every commit, statements give and take defaults in it, and its catalog
answers truly whether a column has one. -/
structure Cursor.Tells (c : Cursor σ) (defaults : σ → Defaults) : Prop extends c.Accepts where
  executed : ∀ s link, defaults (c.execute s link).2 = s.defaultsAfter (defaults link)
  committed : ∀ link, defaults (c.commit link).2 = defaults link
  fetched : ∀ link, defaults (c.fetchAll link).2 = defaults link
  answered : ∀ relation column link, ∃ rows told,
    (c.query (.catalog (.columnDefault relation column)) link).1 = .ok rows ∧
    Catalog.toldDefault rows = .ok told ∧ (told = true ↔ (defaults link).Has relation column)

namespace Editor

open Action (Keeps Triple ends_ok ends_error)

/-- These are the defaults in the database. -/
def Defaulted (defaults : σ → Defaults) (d : Defaults) (s : State σ) : Prop := defaults s.base.link = d

section Telling

variable {ed : Editor σ} {defaults : σ → Defaults} {d : Defaults} {E : Error → State σ → Prop}
variable (tells : ed.cursor.Tells defaults) (sends : ed.collects = false)

include tells

theorem send_defaults (s : Statement) (link : σ) : defaults (ed.send s link).2 = s.defaultsAfter (defaults link) := by
  have execute : Triple (defaults · = defaults link) (ed.cursor.execute s)
      (fun _ t => defaults t = s.defaultsAfter (defaults link)) fun _ _ => False :=
    Triple.of_accepted (tells.execute s) fun t ht => ht ▸ tells.executed s t
  have commit (d : Defaults) : Triple (defaults · = d) ed.cursor.commit (fun _ t => defaults t = d) fun _ _ => False :=
    Triple.of_accepted tells.commit fun t ht => (tells.committed t).trans ht
  have sent : Triple (defaults · = defaults link) (ed.send s) (fun _ t => defaults t = s.defaultsAfter (defaults link))
      fun _ _ => False := by
    unfold Editor.send
    split
    · exact Cursor.executeCommitted_triple execute (commit _) fun _ _ => False.elim
    · exact Cursor.executeClassified_triple execute
  have accepted : (ed.send s link).1.isOk = true := by
    rw [tells.toAccepts.send s link]
    rfl
  exact ((sent link rfl).of_isOk accepted).choose_spec

include sends

/-- A statement is sent, and its effect on defaults is there, unless values are missing for it. -/
theorem run_defaulted (table : String) (s : Statement) :
    Triple (Defaulted defaults d) (ed.run table s) (fun _ => Defaulted defaults (s.defaultsAfter d))
      (fun _ => Defaulted defaults d) := by
  intro x hx
  have sent := send_defaults tells s x.base.link
  have accepted : (ed.send s x.base.link).1 = .ok () := tells.toAccepts.send s x.base.link
  rw [run_apply, Editor.execute, Action.bind_apply, Action.lift_apply, sends]
  cases s.fragment.validate with
  | error e => exact ends_error.mpr hx
  | ok _ =>
    dsimp only
    rw [if_neg Bool.false_ne_true, onLink, onBase, Action.within_apply, Catalog.Cached.onLink, Action.within_apply,
      accepted]
    exact ends_ok.mpr (sent.trans (congrArg s.defaultsAfter hx))

theorem runAll_defaulted (table : String) (ss : List Statement) :
    Triple (Defaulted defaults d) (ed.runAll table ss)
      (fun _ => Defaulted defaults (ss.foldl Statement.defaultsAfter d)) (fun _ _ => True) := by
  induction ss generalizing d with
  | nil => exact Triple.pure fun _ => id
  | cons s ss ih =>
    refine Triple.bind ?_ fun _ => ih
    exact (run_defaulted tells sends table s).weaken (fun _ => id) (fun _ _ => id) fun _ _ _ => trivial

omit sends in
theorem ask_defaulted (q : CatalogQuery) : Keeps (Defaulted defaults d) (onLink (Catalog.ask ed.cursor q)) := by
  intro x hx
  have executed := tells.executed (.catalog q) x.base.link
  have fetched := tells.fetched (ed.cursor.execute (.catalog q) x.base.link).2
  have accepted := tells.execute (.catalog q) x.base.link
  change defaults (ed.cursor.query (.catalog q) x.base.link).2 = d
  rw [Cursor.query, Action.bind_apply]
  revert executed fetched accepted
  obtain ⟨r, link⟩ := ed.cursor.execute (.catalog q) x.base.link
  rintro executed fetched ⟨⟩
  exact fetched.trans (executed.trans hx)

/-- Besides what gives and takes defaults an editor leaves them alone. -/
theorem keeper_defaulted (d : Defaults) :
    Keeper ed (Defaulted defaults d) (fun _ s => ∀ d, s.defaultsAfter d = d) fun _ => True := by
  refine Keeper.of_blind (fun _ _ _ => id) (fun table s leaves => ?_) (ask_defaulted tells) fun x hx => ?_
  · have ran := run_defaulted tells sends (d := d) table s
    rw [leaves d] at ran
    exact Action.keeps_iff_triple.mpr ran
  · exact (tells.committed x.base.link).trans hx

omit tells sends in
theorem allowsQuiet_defaulted (ed : Editor σ) (table : String) :
    ed.AllowsQuiet (fun _ s => ∀ d, s.defaultsAfter d = d) table :=
  fun _ _ keeps => Statement.defaultsAfter_of_keepsRows keeps

/-- The question for a default is answered by what is in the database. -/
theorem hasDefault_told (table column : String) :
    Triple (Defaulted defaults d) (ed.hasDefault table column)
      (fun told s =>
        (told = true ↔ d.Has (Identifier.catalogName ed.engine table) (Identifier.catalogName ed.engine column)) ∧
          Defaulted defaults d s) E := by
  intro x hx
  have kept := (keeper_defaulted tells sends d).hasDefault table column x hx
  obtain ⟨rows, told, answer, reads, truly⟩ := tells.answered (Identifier.catalogName ed.engine table)
    (Identifier.catalogName ed.engine column) x.base.link
  have outcome : (ed.hasDefault table column x).1 = .ok told := by
    rw [Editor.hasDefault, Editor.unlessCollecting, sends, if_neg Bool.false_ne_true, Catalog.hasDefault_eq]
    change ((ed.cursor.query _ >>= _) x.base.link).1 = _
    rw [Action.bind_apply]
    revert answer
    obtain ⟨r, link⟩ := ed.cursor.query (.catalog _) x.base.link
    rintro ⟨⟩
    exact reads
  revert kept outcome
  obtain ⟨r, t⟩ := ed.hasDefault table column x
  rintro kept ⟨⟩
  exact ends_ok.mpr ⟨hx ▸ truly, kept⟩

end Telling

/-- What is done with an editor to tables and their fields. -/
inductive Migration where
  | createModel (model : Model)
  | addField (model : Model) (field : Field)
  | alterField (alteration : Alteration)

namespace Migration

def run (ed : Editor σ) : Migration → Edit σ Unit
  | .createModel m => ed.createModel m
  | .addField m f => ed.addField m f
  | .alterField a => ed.alterField a

/-- Every default that the migration gives is one that it takes back: a new table has none, and the column of a field
that is added with one is found in the catalog, as no name has a double quote in it. -/
def TakesBack (e : Engine) : Migration → Prop
  | .createModel m => ∀ f ∈ m.fields, f.default.isSome = false
  | .addField m f =>
    f.default.isSome = true → '"' ∉ Identifier.inherited e m.table ∧ '"' ∉ Identifier.inherited e f.column
  | .alterField _ => True

instance (e : Engine) : DecidablePred (TakesBack e)
  | .createModel m => inferInstanceAs (Decidable (∀ f ∈ m.fields, f.default.isSome = false))
  | .addField m f => inferInstanceAs (Decidable (f.default.isSome = true →
    '"' ∉ Identifier.inherited e m.table ∧ '"' ∉ Identifier.inherited e f.column))
  | .alterField _ => inferInstanceAs (Decidable True)

/-- The engine reads the identifier of a name as the name of the catalog. -/
theorem denoted?_quote_iff (e : Engine) (name : String) :
    (Identifier.quote e name).denoted? = some (Identifier.catalogName e name) ↔ '"' ∉ Identifier.inherited e name := by
  rw [← Identifier.ofCatalogName_catalogName, Identifier.denoted?_ofCatalogName, Identifier.quote_mem_catalogName]

variable {ed : Editor σ} {defaults : σ → Defaults}
variable (tells : ed.cursor.Tells defaults) (sends : ed.collects = false)

include tells sends

theorem createModel_clear (m : Model) :
    Triple (Defaulted defaults .none) (ed.createModel m)
      (fun _ s => Defaulted defaults .none s ↔ (createModel m).TakesBack ed.engine) (fun _ _ => True) := by
  let made := (ed.createTableStatement m).defaultsAfter .none
  have created : Triple (Defaulted defaults .none) (ed.createModel m) (fun _ => Defaulted defaults made)
      (fun _ _ => True) := by
    have deferred : Keeps (Defaulted defaults .none) (defer (ed.foreignKeyStatements m.table m.fields)) :=
      (keeper_defaulted tells sends .none).putOff _
    refine Runner.createModel_triple (keeper_defaulted tells sends made).toRunner (allowsQuiet_defaulted ed m.table)
      (deferred.ending fun _ _ _ => trivial) ?_ fun _ _ _ => trivial
    exact (run_defaulted tells sends _ _).weaken (fun _ => id) (fun _ _ => id) fun _ _ _ => trivial
  refine created.weaken (fun _ => id) (fun _ s hs => ?_) fun _ _ => id
  rw [Defaulted, show defaults s.base.link = made from hs, Statement.defaultsAfter_none_iff]
  simp only [createTableStatement, Statement.givesDefault, columnOf, List.any_map, List.any_eq_false,
    Function.comp_apply, ColumnDefinition.ofField_default, TakesBack, Bool.not_eq_true]

/-- What comes after the column of a new field leaves defaults alone. -/
theorem furnish_defaulted (d : Defaults) (m : Model) (f : Field) :
    Triple (Defaulted defaults d) (do
      if f.type.isAuto then ed.runAll m.table (Sequence.setUp ed.engine m.table f.column)
      ed.createAddedIndex m.table f
      defer (ed.foreignKeyStatements m.table [f])
      ed.refresh) (fun _ => Defaulted defaults d) (fun _ _ => True) := by
  have k := keeper_defaulted tells sends d
  have quiet := allowsQuiet_defaulted ed m.table
  have indexed : Keeps (Defaulted defaults d) (do
      ed.createAddedIndex m.table f
      defer (ed.foreignKeyStatements m.table [f])
      ed.refresh) := (k.createAddedIndex quiet f).bind fun _ => (k.putOff _).bind fun _ => k.refresh
  refine Keeps.ending ?_ fun _ _ _ => trivial
  exact Keeps.ite (fun _ => (k.setUp quiet _ _).bind fun _ => indexed) fun _ => indexed

theorem addField_clear (drops : ed.options.keepDbDefaults = false) (m : Model) (f : Field) :
    Triple (Defaulted defaults .none) (ed.addField m f)
      (fun _ s => Defaulted defaults .none s ↔ (addField m f).TakesBack ed.engine) (fun _ _ => True) := by
  let place : Place := ⟨ed.quote m.table, ed.quote f.column⟩
  let definition := ColumnDefinition.ofField ed.engine f true
  have added : Triple (Defaulted defaults .none) (ed.run m.table (.addColumn place.table place.column definition))
      (fun _ => Defaulted defaults ((Statement.addColumn place.table place.column definition).defaultsAfter .none))
      (fun _ _ => True) :=
    (run_defaulted tells sends _ _).weaken (fun _ => id) (fun _ _ => id) fun _ _ _ => trivial
  have rest (d : Defaults) := furnish_defaulted tells sends d m f
  cases given : f.default.isSome with
  | false =>
    have without : (Statement.addColumn place.table place.column definition).givesDefault = false :=
      (ColumnDefinition.ofField_default ed.engine f).trans given
    rw [Statement.defaultsAfter_none_iff.mpr without] at added
    refine Triple.weaken (added.bind fun _ => ?_) (fun _ => id) (fun _ s hs => ⟨fun _ => ?_, fun _ => hs⟩) fun _ _ => id
    · rw [given, Bool.false_and, if_neg Bool.false_ne_true]
      exact rest .none
    · exact fun gives => absurd (given.symm.trans gives) Bool.false_ne_true
  | true =>
    have declares : definition.default.isSome = true := (ColumnDefinition.ofField_default ed.engine f).trans given
    rw [Statement.addColumn_none declares] at added
    refine added.bind fun _ => ?_
    rw [given, drops, Bool.not_false, Bool.and_true, if_pos rfl]
    refine (hasDefault_told tells sends m.table f.column).bind fun told s hs => ?_
    have found := hs.1.trans (Defaults.has_only.trans
      (and_congr (denoted?_quote_iff ed.engine m.table) (denoted?_quote_iff ed.engine f.column)))
    cases told with
    | true =>
      have dropped : Triple (Defaulted defaults (.only place)) (ed.run m.table (.dropDefault place.table place.column))
          (fun _ => Defaulted defaults .none) (fun _ _ => True) := by
        rw [← Statement.dropDefault_only]
        exact (run_defaulted tells sends _ _).weaken (fun _ => id) (fun _ _ => id) fun _ _ _ => trivial
      have cleared := (dropped.bind fun _ => rest .none) s hs.2
      exact cleared.mono (fun _ _ hd => ⟨fun _ _ => found.mp rfl, fun _ => hd⟩) fun _ _ => id
    | false =>
      have left := rest (.only place) s hs.2
      refine left.mono (fun _ t ht => ⟨fun cleared => ?_, fun takes => ?_⟩) fun _ _ => id
      · have stays : defaults t.base.link = .only place := ht
        exact absurd (stays.symm.trans cleared) (Defaults.only_ne_none place)
      · exact absurd (found.mpr (takes given)) Bool.false_ne_true

theorem alterField_clear (drops : ed.options.keepDbDefaults = false) (a : Alteration) :
    Triple (Defaulted defaults .none) (ed.alterField a)
      (fun _ s => Defaulted defaults .none s ↔ (alterField a).TakesBack ed.engine) (fun _ _ => True) := by
  have k := keeper_defaulted tells sends .none
  have altered : Triple (Defaulted defaults .none) (ed.alterField a) (fun _ => Defaulted defaults .none)
      (fun _ _ => True) := by
    refine Keeper.alterField_triple k k (allowsQuiet_defaulted ed a.table)
      (fun _ _ _ _ keeps => Statement.defaultsAfter_of_keepsRows keeps) ?_ (fun _ _ _ => trivial) fun _ _ _ => trivial
    have changed := runAll_defaulted tells sends (d := .none) a.table (a.columnStatements ed.engine ed.options)
    rwa [Alteration.foldl_columnStatements drops] at changed
  exact altered.weaken (fun _ => id) (fun _ s hs => ⟨fun _ => trivial, fun _ => hs⟩) fun _ _ => id

/-- Without a default to start from, a migration that succeeds leaves none just if it takes back what it gives. -/
theorem run_clear (drops : ed.options.keepDbDefaults = false) (migration : Migration) :
    Triple (Defaulted defaults .none) (migration.run ed)
      (fun _ s => Defaulted defaults .none s ↔ migration.TakesBack ed.engine) (fun _ _ => True) := by
  cases migration with
  | createModel m => exact createModel_clear tells sends m
  | addField m f => exact addField_clear tells sends drops m f
  | alterField a => exact alterField_clear tells sends drops a

omit tells sends in
/-- A migration that succeeds takes back the defaults that it gives, and one that fails leaves none. -/
def Clean (ed : Editor σ) (defaults : σ → Defaults) (migration : Migration) (s : State σ) : Prop :=
  if (migration.run ed s).1.isOk then migration.TakesBack ed.engine
  else Defaulted defaults .none (migration.run ed s).2

theorem clear_iff_clean (drops : ed.options.keepDbDefaults = false) (migration : Migration) {s : State σ}
    (clear : Defaulted defaults .none s) :
    Defaulted defaults .none (migration.run ed s).2 ↔ migration.Clean ed defaults s := by
  have ends := run_clear tells sends drops migration s clear
  unfold Clean
  cases ok : (migration.run ed s).1.isOk with
  | true =>
    obtain ⟨-, iff⟩ := ends.of_isOk ok
    rw [if_pos rfl]
    exact iff
  | false => rw [if_neg Bool.false_ne_true]

end Migration

/-- Over a connection that takes everything, where no column had a default and none is to stay, no column has one all
along just if every migration that succeeds takes back the defaults that it gives and none that fails leaves one. An
alteration takes back its own, and so does a field that is added under names without a double quote in them; a table
that is created does not. -/
theorem defaults_throughout_iff {ed : Editor σ} {defaults : σ → Defaults} (tells : ed.cursor.Tells defaults)
    (sends : ed.collects = false) (drops : ed.options.keepDbDefaults = false) {s : State σ}
    (clear : Defaulted defaults .none s) (migrations : List Migration) :
    Action.Throughout (Defaulted defaults .none) (Migration.run ed) migrations s ↔
      Action.Each (Migration.Clean ed defaults) (Migration.run ed) migrations s :=
  Action.throughout_iff (I := fun _ => True) (fun _ _ _ => trivial)
    (fun migration _ _ clear => Migration.clear_iff_clean tells sends drops migration clear) trivial clear

namespace Stock

/-- The columns that the statement may give a default to. -/
def receivers : Statement → List Place
  | .createTable table columns => columns.map fun c => ⟨table, c.1⟩
  | .addColumn table column _ | .setDefault table column _ | .renameColumn table _ column => [⟨table, column⟩]
  | _ => []

theorem defaultsAfter_within {s : Statement} {d : Defaults} {p : Place} (h : s.defaultsAfter d p = true) :
    d p = true ∨ p ∈ receivers s := by
  cases s with
  | createTable table columns =>
    simp only [Statement.defaultsAfter] at h
    split at h
    · next same =>
      obtain ⟨c, hc, declares⟩ := List.any_eq_true.mp h
      have named : c.1 = p.column := beq_iff_eq.mp (Bool.and_eq_true_iff.mp declares).1
      exact .inr (List.mem_map.mpr ⟨c, hc, by rw [named, ← same]⟩)
    · exact .inl h
  | addColumn table column definition =>
    simp only [Statement.defaultsAfter] at h
    split at h
    · next same => exact .inr (List.mem_singleton.mpr same)
    · exact .inl h
  | renameColumn table old new =>
    simp only [Statement.defaultsAfter] at h
    split at h
    · next same => exact .inr (List.mem_singleton.mpr same)
    · exact .inl (Bool.and_eq_true_iff.mp h).1
  | setDefault table column literal =>
    rcases Bool.or_eq_true_iff.mp h with h | same
    · exact .inl h
    · exact .inr (List.mem_singleton.mpr (beq_iff_eq.mp same))
  | dropTable | dropColumn | dropDefault => exact .inl (Bool.and_eq_true_iff.mp h).1
  | _ => exact .inl h

/-- A server that remembers the statements which it executed, and the rows that it has to give out. -/
structure Memory where
  statements : List Statement
  rows : List Row

namespace Memory

/-- The defaults that there are, if there were none at first. -/
def defaults (m : Memory) : Defaults := m.statements.foldl Statement.defaultsAfter .none

theorem mem_receivers {m : Memory} {p : Place} (h : m.defaults p = true) : p ∈ m.statements.flatMap receivers := by
  have within (ss : List Statement) (d : Defaults) (h : ss.foldl Statement.defaultsAfter d p = true) :
      d p = true ∨ p ∈ ss.flatMap receivers := by
    induction ss generalizing d with
    | nil => exact .inl h
    | cons s ss ih =>
      rw [List.flatMap_cons, List.mem_append]
      rcases ih (s.defaultsAfter d) h with after | later
      · exact (defaultsAfter_within after).imp_right .inl
      · exact .inr (.inr later)
  exact (within m.statements .none h).resolve_left Bool.false_ne_true

def knows (m : Memory) (relation column : String) : Bool :=
  (m.statements.flatMap receivers).any fun p =>
    m.defaults p && (p.table.denoted? == some relation && p.column.denoted? == some column)

theorem knows_iff {m : Memory} {relation column : String} :
    m.knows relation column = true ↔ m.defaults.Has relation column := by
  simp only [knows, Defaults.Has, List.any_eq_true, Bool.and_eq_true, beq_iff_eq]
  exact exists_congr fun p => and_iff_right_of_imp fun h => mem_receivers h.1

/-- The rows that answer a question. -/
def answer (m : Memory) : CatalogQuery → List Row
  | .columnDefault relation column => [⟨[if m.knows relation column then .text "DEFAULT 0" else .null]⟩]
  | _ => []

/-- The connection to the server. -/
def cursor : Cursor Memory where
  execute
    | .catalog q => Action.modify fun m => ⟨m.statements ++ [.catalog q], m.answer q⟩
    | s => Action.modify fun m => ⟨m.statements ++ [s], []⟩
  fetchOne := return none
  fetchAll m := (.ok m.rows, m)
  start _ := return ()
  commit := return ()
  rollback := return ()
  serverVersion := return "WI-V3.0.5.33220 Firebird 3.0"

theorem cursor_tells : cursor.Tells defaults where
  execute s m := by cases s <;> rfl
  commit _ := rfl
  executed s m := by
    have appended : (m.statements ++ [s]).foldl Statement.defaultsAfter .none = s.defaultsAfter m.defaults :=
      List.foldl_append
    cases s <;> exact appended
  committed _ := rfl
  fetched _ := rfl
  answered relation column m := by
    refine ⟨_, m.knows relation column, rfl, ?_, knows_iff⟩
    change Catalog.toldDefault [⟨[if m.knows relation column then .text "DEFAULT 0" else .null]⟩] = _
    cases m.knows relation column <;> rfl

end Memory

def migrator : Editor Memory := ⟨Memory.cursor, ⟨⟨3, 0, 0, 0⟩⟩, Options.standard, false⟩

def empty : State Memory := ⟨⟨⟨[], []⟩, .empty⟩, [], []⟩

theorem empty_clear : Defaulted Memory.defaults .none empty := rfl

def pages : Field := { Field.ofType "pages" .integer with null := true }

/-- A field that is added with a default, and one that becomes required by way of it. -/
def book : Model := ⟨"book", [.autoKey "id", pages], [], [], []⟩

def counted : Field := { Field.ofType "pages" .integer with default := some (.int 0) }

def migrations : List Migration :=
  [.createModel book, .addField book { Field.ofType "status" (.char 20) with default := some (.text "draft") },
    .alterField ⟨book, pages, counted⟩]

theorem migrations_clean :
    Action.Each (Migration.Clean migrator Memory.defaults) (Migration.run migrator) migrations empty := by
  refine ⟨?_, ?_, ?_, trivial⟩
  · rw [Migration.Clean, if_pos (by decide +kernel)]
    decide +kernel
  · rw [Migration.Clean, if_pos (by decide +kernel)]
    decide +kernel
  · rw [Migration.Clean, if_pos (by decide +kernel)]
    trivial

end Stock

theorem defaults_throughout_book :
    Stock.Memory.cursor.Tells Stock.Memory.defaults ∧
      Action.Throughout (Defaulted Stock.Memory.defaults .none) (Migration.run Stock.migrator) Stock.migrations
        Stock.empty :=
  ⟨Stock.Memory.cursor_tells,
    (defaults_throughout_iff Stock.Memory.cursor_tells rfl rfl Stock.empty_clear Stock.migrations).mpr
      Stock.migrations_clean⟩

/-- The table of a model is created with the default of its field, which stays. -/
theorem defaults_left_created :
    let made : Migration := .createModel { Stock.book with fields := [.autoKey "id", Stock.counted] }
    Stock.Memory.cursor.Tells Stock.Memory.defaults ∧ Stock.migrator.options.keepDbDefaults = false ∧
      (made.run Stock.migrator Stock.empty).1.isOk = true ∧
      (made.run Stock.migrator Stock.empty).2.base.link.defaults ⟨⟨"\"BOOK\""⟩, ⟨"\"PAGES\""⟩⟩ = true :=
  ⟨Stock.Memory.cursor_tells, by decide +kernel⟩

end Editor

end FirebirdSql
