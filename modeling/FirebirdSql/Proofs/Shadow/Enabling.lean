import FirebirdSql.Proofs.Shadow.Disabling
import FirebirdSql.Proofs.Shadow.Restoring

/-!
Enabling after a disabling that any one call may have broken off brings back what there was.
-/

namespace FirebirdSql.Shadow

open Action (Triple)
open Server (Rests Calm)

variable {u : Usage} {start db : Database}

/-! The constraints one after the other -/

section Restoring

variable {d : Declared} {rest : List Declared}

theorem restore_gone (h : start.Sound) (hw : Underway u start (d :: rest) db) (hn : d.name ∉ db.names) :
    Triple (Calm db) (restore (Server.cursor u) (d.toConstraint u)) (fun _ => Calm (db.declare (d.renewed u)))
      (fun _ _ => False) := by
  refine (referencedKey_declares h hw).bind fun r => ?_
  rintro s ⟨⟨definition, read, made⟩, hs⟩
  rw [Constraint.restoreStatement, read]
  have fresh := hw.keyOver?_gone h (Reading.mem_user.mp (hw.user d List.mem_cons_self)).1 hn
  exact Server.executeCommitted_calm (fun _ hc => by cases hc) (exec_add hn made fresh) s hs

theorem restore_live (hn : d.name ∈ db.names) :
    Triple (Calm db) (restore (Server.cursor u) (d.toConstraint u)) (fun _ _ => False) (fun _ => Calm db) := by
  refine (referencedKey_calm _).bind fun r s hs => ?_
  rw [Constraint.restoreStatement]
  cases (d.toConstraint u).definition r with
  | error e => exact Action.ends_error.mpr hs
  | ok definition => exact Server.executeCommitted_refused (fun _ hc => by cases hc) (exec_taken hn) s hs

theorem restore_underway (h : start.Sound) (hw : Underway u start (d :: rest) db) :
    Triple (Calm db) (restore (Server.cursor u) (d.toConstraint u)).attempt
      (fun _ s => ∃ after, Underway u start rest after ∧ Calm after s) (fun _ _ => False) := by
  by_cases hn : d.name ∈ db.names
  · refine (restore_live hn).attempt.weaken (fun _ => id) (fun r s hr => ?_) fun _ _ => id
    exact ⟨db, hw.kept hn, Action.ends_always.mp (hr.mono (fun _ _ => False.elim) fun _ _ => id)⟩
  · refine (restore_gone h hw hn).attempt.weaken (fun _ => id) (fun r s hr => ?_) fun _ _ => id
    exact ⟨_, hw.declare hn, Action.ends_always.mp (hr.mono (fun _ _ => id) fun _ _ => False.elim)⟩

theorem restoreAll_underway (h : start.Sound) (ds : List Declared) :
    Triple (fun s => ∃ db, Underway u start ds db ∧ Calm db s)
      (restoreAll (Server.cursor u) (ds.map (·.toConstraint u)))
      (fun _ s => ∃ db, Underway u start [] db ∧ Calm db s) (fun _ _ => False) := by
  induction ds with
  | nil => exact Triple.pure fun _ hs => hs
  | cons d ds ih =>
    rintro s ⟨db, hw, hs⟩
    refine Triple.bind (restore_underway h hw) (fun r => ?_) s hs
    exact ih.bind fun n => Triple.pure fun _ hs => hs

end Restoring

/-! What was put aside -/

theorem PutAside.underway (h : start.Sound) (hp : PutAside u start db) {ds : List Declared} (perm : ds.Perm start.user)
    (ordered : ds.Pairwise fun a b => restoreRank a.declaration.kind ≤ restoreRank b.declaration.kind) :
    Underway u start ds db where
  origin c hc := ⟨c, hp.sublist.subset hc, .inl rfl⟩
  names := h.names.sublist (hp.sublist.map _)
  covered := by
    intro o ho
    by_cases hu : o.isUser = true
    · exact .inr (perm.mem_iff.mpr (Reading.mem_user.mpr ⟨ho, hu⟩))
    · exact .inl (List.mem_map_of_mem (hp.others o ho ((Bool.not_eq_true _).mp hu)))
  user d hd := perm.mem_iff.mp hd
  ordered := ordered
  asides := by rw [hp.asides]; rfl
  segments := by rw [hp.segments]; rfl

def Reads (u : Usage) (start : Database) (cs : List Constraint) (s : Server) : Prop :=
  ∃ ds, cs = ds.map (·.toConstraint u) ∧ ∃ db, Underway u start ds db ∧ Calm db s

theorem stored_putAside (h : start.Sound) (hp : PutAside u start db) :
    Triple (Calm db) (stored (Server.cursor u)) (Reads u start) (fun _ _ => False) := by
  let segments := (start.user.flatMap (·.segments)).mergeSort u.segmentPrecedes
  have perm : segments.Perm (start.user.flatMap (·.segments)) := List.mergeSort_perm _ _
  obtain ⟨cs, ds, read, whole, user, ordered⟩ := Reading.assemble_user (u := u) h perm
  have constraintRows : db.answer u .storedConstraints =
      some (((start.user.map (·.aside u)).mergeSort fun a b => u.precedes a.name b.name).map Database.asideRow) := by
    rw [Database.answer, hp.asides]
    rfl
  have segmentRows : db.answer u .storedSegments = some (segments.map Database.segmentRow) := by
    rw [Database.answer, hp.segments]
    rfl
  have readSegments : (segments.map Database.segmentRow).mapM Segment.ofRow = .ok segments := by
    rw [List.mapM_map, Reading.mapM_ok (g := id), List.map_id]
    exact fun s hs => Reading.ofRow_segment h (perm.mem_iff.mp hs)
  refine (Server.ask_calm constraintRows).bind fun rows => ?_
  rintro s ⟨rfl, hs⟩
  rw [read]
  refine Triple.bind (Server.ask_calm segmentRows) (fun rows => ?_) s hs
  rintro t ⟨rfl, ht⟩
  rw [readSegments]
  exact Action.ends_ok.mpr ⟨ds, whole, db, hp.underway h user ordered, ht⟩

theorem answer_nothing (ha : db.asides = some []) : db.answer u .storedConstraints = some [] := by
  rw [Database.answer, ha, Option.map_some, List.mergeSort_nil]
  rfl

theorem stored_nothing (h : start.Sound) (hu : Untouched start db) (ha : db.asides = some [])
    (hg : db.segments = some []) :
    Triple (Calm db) (stored (Server.cursor u)) (Reads u start) (fun _ _ => False) := by
  have segmentRows : db.answer u .storedSegments = some [] := by
    rw [Database.answer, hg, Option.map_some, List.mergeSort_nil]
    rfl
  refine (Server.ask_calm (answer_nothing ha)).bind fun rows => ?_
  rintro s ⟨rfl, hs⟩
  refine Triple.bind (Server.ask_calm segmentRows) (fun rows => ?_) s hs
  rintro t ⟨rfl, ht⟩
  refine Action.ends_ok.mpr ⟨[], List.mergeSort_nil, db, ?_, ht⟩
  constructor
  · exact fun c hc => ⟨c, hu.declared ▸ hc, .inl rfl⟩
  · rw [Database.names, hu.declared]
    exact h.names
  · intro o ho
    rw [Database.names, hu.declared]
    exact .inl (List.mem_map_of_mem ho)
  · exact fun d hd => absurd hd List.not_mem_nil
  · exact List.Pairwise.nil
  · rw [ha]; rfl
  · rw [hg]; rfl

theorem stored_missing (ha : db.asides = some []) (hg : db.segments = none) :
    Triple (Calm db) (stored (Server.cursor u)) (fun _ _ => False) (fun _ => Calm db) := by
  have segmentRows : db.answer u .storedSegments = none := by
    rw [Database.answer, hg]
    rfl
  refine (Server.ask_calm (answer_nothing ha)).unfailing.bind fun rows => ?_
  rintro s ⟨rfl, hs⟩
  exact Triple.bind (Server.ask_refused segmentRows) (fun _ _ => False.elim) s hs

/-! Enabling -/

/-- All constraints of the start are in force and no others, up to the spelling of a rule, and exactly so where the
engine chooses the spelling that was there. Nothing is put aside any more. -/
structure Restored (u : Usage) (start db : Database) : Prop where
  declared : (db.declared.map (·.renewed u)).Perm (start.declared.map (·.renewed u))
  exact : (∀ d ∈ start.declared, d.renewed u = d) → db.declared.Perm start.declared
  asides : db.asides = none ∨ db.asides = some []
  segments : db.segments = none ∨ db.segments = some []

theorem Untouched.restored (h : Untouched start db) : Restored u start db where
  declared := by rw [h.declared]
  exact := fun _ => by rw [h.declared]
  asides := h.asides
  segments := h.segments

theorem Underway.declared_perm (h : start.Sound) (hw : Underway u start [] db) :
    (db.declared.map (·.renewed u)).Perm (start.declared.map (·.renewed u)) := by
  have nodup {ds : List Declared} (hn : (ds.map (·.name)).Nodup) : (ds.map (·.renewed u)).Nodup := by
    refine List.Nodup.of_map (f := Declared.name) ?_
    rw [List.map_map]
    exact hn
  refine (List.perm_ext_iff_of_nodup (nodup hw.names) (nodup h.names)).mpr fun c => ?_
  rw [List.mem_map, List.mem_map]
  constructor
  · rintro ⟨e, he, rfl⟩
    obtain ⟨o, ho, rfl | rfl⟩ := hw.origin e he
    · exact ⟨e, ho, rfl⟩
    · exact ⟨o, ho, Declared.renewed_renewed.symm⟩
  · rintro ⟨o, ho, rfl⟩
    have there : o.name ∈ db.names := (hw.covered o ho).resolve_right List.not_mem_nil
    obtain ⟨e, he, name⟩ := List.mem_map.mp there
    obtain ⟨p, hp, hep⟩ := hw.origin e he
    have same : p = o := by
      refine List.inj_on_of_nodup_map h.names hp ho ?_
      rcases hep with rfl | rfl <;> exact name
    subst same
    rcases hep with rfl | rfl
    · exact ⟨e, he, rfl⟩
    · exact ⟨_, he, Declared.renewed_renewed⟩

theorem Underway.restored (h : start.Sound) (hw : Underway u start [] db) : Restored u start db.prepared := by
  have perm := hw.declared_perm h
  refine ⟨perm, fun spelled => ?_, .inr rfl, .inr rfl⟩
  have own : db.declared.map (·.renewed u) = db.declared.map id := by
    refine List.map_congr_left fun c hc => ?_
    obtain ⟨o, ho, rfl | rfl⟩ := hw.origin c hc
    · exact spelled c ho
    · exact Declared.renewed_renewed
  have all : start.declared.map (·.renewed u) = start.declared.map id := List.map_congr_left spelled
  rwa [own, all, List.map_id, List.map_id] at perm

theorem constraintTable_calm :
    Triple (Calm db) (tableExists (Server.cursor u) CatalogQuery.constraintTable)
      (fun b s => b = db.asides.isSome ∧ Calm db s) (fun _ _ => False) := by
  refine (Server.ask_calm answer_constraintTable).bind fun rows => ?_
  rintro s ⟨rfl, hs⟩
  exact Action.ends_ok.mpr ⟨isEmpty_tableRows _ _, hs⟩

/-- What was put aside is forgotten when nothing of it is left to come. -/
theorem forget_restored (h : start.Sound) (hw : Underway u start [] db) (n : Nat) :
    Triple (Calm db) (do
        (Server.cursor u).executeCommitted (.deleteRows (.ofStored CatalogQuery.segmentTable))
        (Server.cursor u).executeCommitted (.deleteRows (.ofStored CatalogQuery.constraintTable))
        return n)
      (fun _ s => ∃ last, Restored u start last ∧ Calm last s) (fun _ _ => False) := by
  obtain ⟨asides, ha⟩ := Option.isSome_iff_exists.mp hw.asides
  obtain ⟨segments, hg⟩ := Option.isSome_iff_exists.mp hw.segments
  have first : db.exec u (.deleteRows (.ofStored CatalogQuery.segmentTable)) = some { db with segments := some [] } := by
    rw [Database.exec, Identifier.stored_ofStored, if_neg (by decide), if_pos rfl, hg]
    rfl
  have second : { db with segments := some [] }.exec u (.deleteRows (.ofStored CatalogQuery.constraintTable)) =
      some db.prepared := by
    rw [Database.exec, Identifier.stored_ofStored, if_pos rfl, ha]
    rfl
  refine (Server.executeCommitted_calm (fun _ hc => by cases hc) first).bind fun _ => ?_
  refine (Server.executeCommitted_calm (fun _ hc => by cases hc) second).bind fun _ => ?_
  exact Triple.pure fun s hs => ⟨db.prepared, hw.restored h, hs⟩

theorem enable_reads (h : start.Sound) (ha : db.asides.isSome = true)
    (hr : Triple (Calm db) (stored (Server.cursor u)) (Reads u start) (fun _ _ => False)) :
    Triple (Calm db) (enable (Server.cursor u)) (fun _ s => ∃ last, Restored u start last ∧ Calm last s)
      (fun _ _ => False) := by
  refine constraintTable_calm.bind fun b => ?_
  rintro s ⟨rfl, hs⟩
  rw [if_pos ha]
  refine Triple.bind hr (fun cs => ?_) s hs
  rintro t ⟨ds, rfl, hw⟩
  refine Triple.bind (restoreAll_underway h ds) (fun n => ?_) t hw
  rintro v ⟨last, hw, hv⟩
  exact forget_restored h hw n v hv

theorem enable_untouched (h : start.Sound) (hu : Untouched start db) :
    Triple (Calm db) (enable (Server.cursor u)) (fun _ s => ∃ last, Restored u start last ∧ Calm last s)
      (fun _ s => ∃ last, Restored u start last ∧ Calm last s) := by
  rcases hu.asides with ha | ha
  · refine constraintTable_calm.unfailing.bind fun b => ?_
    rintro s ⟨rfl, hs⟩
    rw [ha]
    exact Action.ends_ok.mpr ⟨db, hu.restored, hs⟩
  · have there : db.asides.isSome = true := by rw [ha]; rfl
    rcases hu.segments with hg | hg
    · refine constraintTable_calm.unfailing.bind fun b => ?_
      rintro s ⟨rfl, hs⟩
      rw [if_pos there]
      refine Triple.bind ((stored_missing ha hg).weaken (fun _ => id) (fun _ _ => id) ?_) (fun _ _ => False.elim) s hs
      exact fun _ t ht => ⟨db, hu.restored, ht⟩
    · exact (enable_reads h there (stored_nothing h hu ha hg)).unfailing

theorem enable_between (h : start.Sound) {s : Server} (hb : Between u start s) (hf : s.failing = none) :
    ∃ last, Restored u start last ∧ Calm last (enable (Server.cursor u) s).2 := by
  obtain ⟨db, hu | hp, hs⟩ := hb
  · exact Action.ends_always.mp (enable_untouched h hu s ⟨hs, hf⟩)
  · have there : db.asides.isSome = true := by rw [hp.asides]; rfl
    have ends := enable_reads h there (stored_putAside h hp) s ⟨hs, hf⟩
    exact Action.ends_always.mp (ends.mono (fun _ _ => id) fun _ _ => False.elim)

/-- Whichever call of a disabling fails, or none, enabling brings back what there was before. -/
theorem enable_restores (e : Engine) (h : start.Sound) (ha : start.asides = none ∨ start.asides = some [])
    (hg : start.segments = none ∨ start.segments = some []) {s : Server} (hs : Rests start s) :
    ∃ last, Restored u start last ∧
      Rests last (enable (Server.cursor u) { (disable (Server.cursor u) e s).2 with failing := none }).2 := by
  have between : Between u start (disable (Server.cursor u) e s).2 :=
    Action.ends_always.mp (disable_between e h s ⟨start, ⟨rfl, ha, hg⟩, hs⟩)
  obtain ⟨db, hdb, hr⟩ := between
  obtain ⟨last, restored, calm⟩ := enable_between h ⟨db, hdb, Server.holds_of_failing _ none hr⟩ rfl
  exact ⟨last, restored, calm.1⟩

namespace Sample

def engine : Engine := ⟨⟨3, 0, 0, 0⟩⟩

def usage : Usage where
  rule := .restrict
  rule_eq := .inl rfl
  index _ := none
  precedes a b := decide (a ≤ b)
  lost := .invalidVersion "lost"
  refusal := .invalidVersion "refused"

def author : Declared := ⟨"AUTHOR_PK", "AUTHOR", .primary ["ID"]⟩

def title : Declared := ⟨"BOOK_TITLE_UQ", "BOOK", .unique ["TITLE", "YEAR"]⟩

def pages : Declared := ⟨"BOOK_PAGES_CK", "BOOK", .check "CHECK (PAGES > 0)"⟩

def written (onUpdate : Rule) : Declared := ⟨"BOOK_AUTHOR_FK", "BOOK", .foreign ["AUTHOR"] "AUTHOR_PK" onUpdate .cascade⟩

def books : Database := ⟨[author, title, pages, written .restrict], none, none⟩

/-- A key that restricts, spelled otherwise than the engine does. -/
def spelled : Database := ⟨[author, written .noAction], none, none⟩

def server (db : Database) (failing : Option Nat) : Server := ⟨db, db, [], failing⟩

theorem sound_books : books.Sound := ⟨by decide +kernel, by decide +kernel, by decide +kernel⟩

theorem sound_spelled : spelled.Sound := ⟨by decide +kernel, by decide +kernel, by decide +kernel⟩

end Sample

/-- The foreign key is gone and the rest still in force when the drop of the condition fails. -/
theorem enable_restores_books :
    Sample.books.Sound ∧ ∃ last, Restored Sample.usage Sample.books last ∧
      Rests last (enable (Server.cursor Sample.usage)
        { (disable (Server.cursor Sample.usage) Sample.engine (Sample.server Sample.books (some 16))).2 with
          failing := none }).2 :=
  ⟨Sample.sound_books, enable_restores Sample.engine Sample.sound_books (.inl rfl) (.inl rfl) ⟨rfl, rfl⟩⟩

/-- A rule that restricts comes back in the spelling of the engine, though no call fails. -/
theorem enable_respells :
    Sample.spelled.Sound ∧ Sample.spelled.asides = none ∧ Sample.spelled.segments = none ∧
      (enable (Server.cursor Sample.usage)
        { (disable (Server.cursor Sample.usage) Sample.engine (Sample.server Sample.spelled none)).2 with
          failing := none }).2.committed.declared = [Sample.author, Sample.written .restrict] ∧
      ¬[Sample.author, Sample.written .restrict].Perm Sample.spelled.declared :=
  ⟨Sample.sound_spelled, rfl, rfl, by decide +kernel, by decide +kernel⟩

end FirebirdSql.Shadow
