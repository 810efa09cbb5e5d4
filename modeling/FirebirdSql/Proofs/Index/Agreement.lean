import FirebirdSql.Proofs.Index.Altering

/-!
Whether altering a field of a new table leaves what creating the table with the new field puts there. It does so but in
five cases, which two flags of the alteration tell apart: it looks for an index that a key never had, or the indexes
that it leaves are others.
-/

namespace FirebirdSql.Store

open Action (Triple)
open Identifier (Simple catalogName)

variable {e : Engine} {o : Options} {a : Alteration}

/-- Creating a table in the empty store reaches this state. -/
def Created (e : Engine) (o : Options) (m : Model) (x : Editor.State Link) : Prop :=
  ∃ faults start, Has m.table Store.empty start ∧ (editor faults e o m.table).createModel m start = (.ok (), x)

theorem Created.at {m : Model} {x : Editor.State Link} (h : Created e o m x) (hm : m.SimpleNames) {f : Field}
    (hf : f ∈ m.fields) (ha : m.Alone e f.column) : At e m.table (catalogName e f.column) f.shapes x := by
  obtain ⟨faults, start, hs, hx⟩ := h
  exact (createModel_at hm hf ha start hs).of_ok () x hx

def shapesOver (x : Editor.State Link) (column : String) : List IndexShape := x.base.link.store.onColumn column

theorem At.shapesOver {table column : String} {shapes : List IndexShape} {x : Editor.State Link}
    (h : At e table column shapes x) : shapesOver x column = shapes := by
  obtain ⟨st, -, -, hs, hx⟩ := h
  rw [Store.shapesOver, hx.store, hs]

/-- Altering a field of a new table never misses an index, whatever calls fail, just if it drops none that a key never
had. After a success the column has the indexes and the key that the new field has in a new table just if the flags of
the two fields do not make them differ. -/
theorem alterField_agrees (hm : a.model.SimpleNames) (hf : a.old ∈ a.model.fields) (ha : a.model.Alone e a.old.column)
    (hn : a.SimpleNames e) {x : Editor.State Link} (hx : Created e o a.model x) :
    ((∀ faults what, ((editor faults e o a.table).alterField a x).1 ≠ .error (.catalogInconsistency what)) ↔
      a.dropsAbsentIndex e = false) ∧
    ∀ faults y, (editor faults e o a.table).alterField a x = (.ok (), y) →
      ∀ (m : Model) (z : Editor.State Link), m.SimpleNames → a.new ∈ m.fields → m.Alone e a.column → Created e o m z →
        (shapesOver y (catalogName e a.column) = shapesOver z (catalogName e a.column) ↔ a.differs e = false) := by
  have start : At e a.table (catalogName e a.old.column) a.old.shapes x := hx.at hm hf ha
  refine ⟨⟨fun h => ?_, fun h faults what hr => ?_⟩, fun faults y hy m z hm' hf' ha' hz => ?_⟩
  · -- Without a fault the alteration would fail for want of the index.
    by_contra hd
    have missing : Triple _ ((editor (fun _ => none) e o a.table).alterField a) _ _ :=
      alterField_missing hn ((Bool.not_eq_false _).mp hd)
    have ends := missing x start
    have silent := h fun _ => none
    revert ends silent
    obtain ⟨r, y⟩ := (editor (fun _ => none) e o a.table).alterField a x
    cases r with
    | ok _ => exact fun ends _ => Action.ends_ok.mp ends
    | error error =>
      intro ends silent
      rcases Action.ends_error.mp ends with rfl | ⟨_, fault, hfault, _⟩
      · exact silent _ rfl
      · exact absurd hfault (by simp)
  · have ends := (alterField_at hn h : Triple _ ((editor faults e o a.table).alterField a) _ _) x start
    exact (ends.of_error (.catalogInconsistency what) _ (Prod.ext hr rfl)).consistent what rfl
  · have present : a.dropsAbsentIndex e = false := by
      by_contra hd
      exact (alterField_missing hn ((Bool.not_eq_false _).mp hd) x start).of_ok () y hy
    have reached : At e a.table (catalogName e a.column) (a.finalShapes e) y :=
      (alterField_at hn present x start).of_ok () y hy
    have created : At e m.table (catalogName e a.column) a.new.shapes z := hz.at hm' hf' ha'
    rw [reached.shapesOver, created.shapesOver]
    exact a.finalShapes_eq_iff e present

namespace Sample

def engine : Engine := ⟨⟨3, 0, 0, 0⟩⟩

/-- An empty store, to which no call fails. -/
def start : Editor.State Link := ⟨⟨⟨empty, [], 0⟩, .empty⟩, [], []⟩

def calm (table : String) : Editor Link := editor (fun _ => none) engine Options.standard table

def note : Field := { Field.ofType "note" (.char 10) with indexed := true }

def page (f : Field) : Model := ⟨"page", [f], [], [], []⟩

def created (f : Field) : Editor.State Link := ((calm "page").createModel (page f) start).2

/-- The field becomes one of another name, of which there is no second value. -/
def title : Field := { Field.ofType "title" (.char 10) with unique := true }

def key : Field := { Field.ofType "id" .integer with primaryKey := true, indexed := true }

def bareKey : Field := { Field.ofType "id" .integer with primaryKey := true }

theorem has_start : Has "page" empty start := ⟨rfl, fun _ h => absurd h (by simp [start, Catalog.Cache.empty, Catalog.Cache.constraints?])⟩

theorem created_of_isOk {f : Field} (h : ((calm "page").createModel (page f) start).1 = .ok ()) :
    Created engine Options.standard (page f) (created f) := by
  refine ⟨fun _ => none, start, has_start, ?_⟩
  have pair {r : Except Error Unit × Editor.State Link} (h : r.1 = .ok ()) : r = (.ok (), r.2) := Prod.ext h rfl
  exact pair h

theorem simpleNames_page {f : Field} (h : Simple f.column) : (page f).SimpleNames where
  table := (by decide : Simple "page")
  columns g hg := by rwa [List.mem_singleton.mp hg]
  lists columns h := absurd h (by simp [page])
  indexes i h := absurd h (by simp [page])

theorem alone_page (f : Field) (column : String) : (page f).Alone engine column := by
  intro columns h
  exact absurd h (by simp [page])

def renamed : Editor.State Link := ((calm "page").alterField ⟨page note, note, title⟩ (created note)).2

end Sample

theorem alterField_agrees_page :
    (∀ faults what, ((editor faults Sample.engine Options.standard "page").alterField
      ⟨Sample.page Sample.note, Sample.note, Sample.title⟩ (Sample.created Sample.note)).1 ≠
        .error (.catalogInconsistency what)) ∧
    shapesOver Sample.renamed "TITLE" = shapesOver (Sample.created Sample.title) "TITLE" := by
  have names : Alteration.SimpleNames Sample.engine ⟨Sample.page Sample.note, Sample.note, Sample.title⟩ :=
    ⟨by decide, by decide, by decide, by decide⟩
  have note := Sample.created_of_isOk (f := Sample.note) (by decide +kernel)
  have title := Sample.created_of_isOk (f := Sample.title) (by decide +kernel)
  have agrees := alterField_agrees (Sample.simpleNames_page names.old) List.mem_cons_self (Sample.alone_page _ _) names note
  refine ⟨agrees.1.mpr (by decide +kernel), ?_⟩
  have ok : ((Sample.calm "page").alterField ⟨Sample.page Sample.note, Sample.note, Sample.title⟩
      (Sample.created Sample.note)).1 = .ok () := by decide +kernel
  have altered : (Sample.calm "page").alterField ⟨Sample.page Sample.note, Sample.note, Sample.title⟩
      (Sample.created Sample.note) = (.ok (), Sample.renamed) := Prod.ext ok rfl
  have column : catalogName Sample.engine "title" = "TITLE" := by decide +kernel
  have same := agrees.2 _ _ altered (Sample.page Sample.title) _ (Sample.simpleNames_page names.new) List.mem_cons_self
    (Sample.alone_page _ _) title
  exact column ▸ same.mpr (by decide +kernel)

/-- A key with a declared index loses the declaration. No new table has an index for it beside the key, but one is to
be dropped. -/
theorem alterField_misses_index :
    ((Sample.calm "page").createModel (Sample.page Sample.key) Sample.start).1 = .ok () ∧
    ((Sample.calm "page").alterField ⟨Sample.page Sample.key, Sample.key, Sample.bareKey⟩ (Sample.created Sample.key)).1 =
      .error (.catalogInconsistency (.missingIndex false "page" ["id"])) := by
  decide +kernel

end FirebirdSql.Store
