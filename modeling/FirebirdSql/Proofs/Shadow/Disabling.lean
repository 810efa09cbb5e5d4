import FirebirdSql.Proofs.Shadow.Reading
import FirebirdSql.Proofs.Shadow.Resting

/-!
However disabling ends, the database rests in one of two phases: nothing has been put aside and no constraint is gone,
or all constraints have been put aside, and some of them may be gone.
-/

namespace FirebirdSql.Shadow

open Action (Triple Keeps)
open Server (Rests)

variable {u : Usage} {start db after : Database}

/-- No constraint is gone, and nothing has been put aside. -/
structure Untouched (start db : Database) : Prop where
  declared : db.declared = start.declared
  asides : db.asides = none ∨ db.asides = some []
  segments : db.segments = none ∨ db.segments = some []

/-- All constraints have been put aside, whether or not they are gone. -/
structure PutAside (u : Usage) (start db : Database) : Prop where
  asides : db.asides = some (start.user.map (·.aside u))
  segments : db.segments = some (start.user.flatMap (·.segments))
  sublist : db.declared.Sublist start.declared
  others : ∀ d ∈ start.declared, d.isUser = false → d ∈ db.declared

def Between (u : Usage) (start : Database) (s : Server) : Prop :=
  ∃ db, (Untouched start db ∨ PutAside u start db) ∧ Rests db s

namespace Database

theorem foldl_put {α : Type} {same : α → α → Bool} {rows before : List α}
    (hr : rows.Pairwise fun a b => same b a = false) (hb : ∀ a ∈ before, ∀ b ∈ rows, same b a = false) :
    rows.foldl (put same) before = before ++ rows := by
  induction rows generalizing before with
  | nil => exact (List.append_nil _).symm
  | cons row rows ih =>
    rw [List.pairwise_cons] at hr
    have none : before.any (same row) = false := by
      rw [List.any_eq_false]
      intro a ha
      rw [hb a ha row List.mem_cons_self]
      exact Bool.false_ne_true
    rw [List.foldl_cons, put, none, if_neg Bool.false_ne_true, ih hr.2, List.append_assoc]
    · rfl
    · intro a ha b hrow
      rcases List.mem_append.mp ha with ha | ha
      · exact hb a ha b (List.mem_cons_of_mem row hrow)
      · obtain rfl := List.mem_singleton.mp ha
        exact hr.1 b hrow

theorem pairwise_asides (h : start.Sound) :
    (start.user.map (·.aside u)).Pairwise fun a b => sameAside b a = false := by
  have names := Reading.nodup_user h
  rw [List.Nodup, List.pairwise_map] at names
  rw [List.pairwise_map]
  exact names.imp fun hne => decide_eq_false (Ne.symm hne)

theorem pairwise_segments (h : start.Sound) :
    (start.user.flatMap (·.segments)).Pairwise fun a b => sameSegment b a = false := by
  rw [List.pairwise_flatMap]
  constructor
  · intro d hd
    have columns : (d.segments.map (·.column)).Nodup := by
      rw [Reading.map_column]
      exact (h.each d (Reading.mem_user.mp hd).1).nodup
    rw [List.Nodup, List.pairwise_map] at columns
    exact columns.imp fun hne => decide_eq_false fun he => hne he.2.symm
  · have names := Reading.nodup_user h
    rw [List.Nodup, List.pairwise_map] at names
    refine names.imp fun hne a ha b hb => decide_eq_false fun he => hne ?_
    obtain ⟨_, -, rfl⟩ := List.mem_map.mp ha
    obtain ⟨_, -, rfl⟩ := List.mem_map.mp hb
    exact he.1.symm

end Database

def Database.prepared (db : Database) : Database := { db with asides := some [], segments := some [] }

/-- Into empty tables the constraints are copied as they are. -/
theorem exec_capture (h : start.Sound) :
    ∃ next last, start.prepared.exec u .captureConstraints = some next ∧ next.exec u .captureSegments = some last ∧
      PutAside u start last := by
  let next : Database := { start.prepared with asides := some (start.user.map (·.aside u)) }
  refine ⟨next, { next with segments := some (start.user.flatMap (·.segments)) }, ?_, ?_, rfl, rfl, ?_, ?_⟩
  · have user : start.prepared.user = start.user := rfl
    rw [Database.exec, Database.prepared, Option.map_some]
    rw [Database.prepared] at user
    rw [user, Database.foldl_put (Database.pairwise_asides h) (by simp)]
    rfl
  · have user : next.user = start.user := rfl
    have empty : next.segments = some [] := rfl
    rw [Database.exec, empty, Option.map_some, user, Database.foldl_put (Database.pairwise_segments h) (by simp)]
    rfl
  · exact List.Sublist.refl _
  · exact fun d hm _ => hm

theorem isEmpty_tableRows {α : Type} (name : String) (rows : Option α) :
    (!(Database.tableRows name rows).isEmpty) = rows.isSome := by
  unfold Database.tableRows
  cases rows <;> rfl

theorem answer_constraintTable :
    db.answer u (.table CatalogQuery.constraintTable) =
      some (Database.tableRows CatalogQuery.constraintTable db.asides) := by
  rw [Database.answer, if_pos rfl]

theorem answer_segmentTable :
    db.answer u (.table CatalogQuery.segmentTable) =
      some (Database.tableRows CatalogQuery.segmentTable db.segments) := by
  rw [Database.answer, if_neg (by decide), if_pos rfl]

theorem tableExists_rests {α : Type} {name : String} {rows : Option α}
    (h : db.answer u (.table name) = some (Database.tableRows name rows)) :
    Triple (Rests db) (tableExists (Server.cursor u) name) (fun b s => b = rows.isSome ∧ Rests db s)
      (fun _ => Rests db) := by
  refine (Server.ask_rests _).bind fun r => ?_
  rintro s ⟨hr, hs⟩
  obtain rfl := Option.some.inj (h.symm.trans hr)
  exact Action.ends_ok.mpr ⟨isEmpty_tableRows _ _, hs⟩

theorem executeCommitted_exec {statement : Statement} (hs : ∀ q, statement ≠ .catalog q)
    (he : db.exec u statement = some after) :
    Triple (Rests db) ((Server.cursor u).executeCommitted statement) (fun _ => Rests after) (fun _ => Rests db) := by
  refine (Server.executeCommitted_rests hs).weaken (fun _ => id) ?_ fun _ _ => id
  rintro - s ⟨last, hlast, hs⟩
  obtain rfl := Option.some.inj (hlast.symm.trans he)
  exact hs

/-- After a success both tables are there. A failure may leave the one without the other. -/
theorem ensureTables_rests (e : Engine) (h : Untouched start db) :
    Triple (Rests db) (ensureTables (Server.cursor u) e) (fun _ => Rests start.prepared)
      (fun _ s => ∃ last, Untouched start last ∧ Rests last s) := by
  obtain ⟨declared, asides, segments⟩ := db
  obtain ⟨rfl, ha, hg⟩ := h
  have second : Triple (Rests ⟨start.declared, some [], segments⟩) (do
      if !(← tableExists (Server.cursor u) CatalogQuery.segmentTable) then
        (Server.cursor u).executeCommitted (.createSegmentTable e.identifierLimit))
      (fun _ => Rests start.prepared) (fun _ => Rests ⟨start.declared, some [], segments⟩) := by
    refine (tableExists_rests answer_segmentTable).bind fun b => ?_
    rintro s ⟨rfl, hs⟩
    rcases hg with rfl | rfl
    · exact executeCommitted_exec (fun _ hc => by cases hc) rfl s hs
    · exact Action.ends_ok.mpr hs
  have whole : Triple (Rests ⟨start.declared, some [], segments⟩) _ _
      (fun _ s => ∃ last, Untouched start last ∧ Rests last s) :=
    second.weaken (fun _ => id) (fun _ _ => id) fun _ _ hs =>
      ⟨⟨start.declared, some [], segments⟩, ⟨rfl, .inr rfl, hg⟩, hs⟩
  have failed : ∀ (_ : Error) s, Rests ⟨start.declared, asides, segments⟩ s →
      ∃ last, Untouched start last ∧ Rests last s := fun _ _ hs =>
    ⟨⟨start.declared, asides, segments⟩, ⟨rfl, ha, hg⟩, hs⟩
  refine ((tableExists_rests answer_constraintTable).weaken (fun _ => id) (fun _ _ => id) failed).bind fun b => ?_
  rintro s ⟨rfl, hs⟩
  rcases ha with rfl | rfl
  · have created : Triple (Rests ⟨start.declared, none, segments⟩)
        ((Server.cursor u).executeCommitted (.createConstraintTable e.identifierLimit))
        (fun _ => Rests ⟨start.declared, some [], segments⟩) (fun _ => Rests ⟨start.declared, none, segments⟩) :=
      executeCommitted_exec (fun _ hc => by cases hc) rfl
    exact Triple.bind (created.weaken (fun _ => id) (fun _ _ => id) failed) (fun _ => whole) s hs
  · exact whole s hs

/-! Dropping -/

theorem exec_drop {name relation : String} (h : start.Sound) (hp : PutAside u start db) {d : Declared}
    (hd : d ∈ start.user) (hn : name = d.name)
    (he : db.exec u (.dropConstraint (.ofStored relation) (.ofStored name)) = some after) : PutAside u start after := by
  rw [Database.exec, Identifier.stored_ofStored] at he
  split at he
  case isFalse => exact absurd he (by simp)
  obtain rfl := Option.some.inj he
  refine ⟨hp.asides, hp.segments, List.filter_sublist.trans hp.sublist, fun other hm ho => ?_⟩
  refine List.mem_filter.mpr ⟨hp.others other hm ho, ?_⟩
  have hne : other.name ≠ name := by
    rintro rfl
    have same : other = d := List.inj_on_of_nodup_map h.names hm (Reading.mem_user.mp hd).1 hn
    rw [same, (Reading.mem_user.mp hd).2] at ho
    exact absurd ho (by simp)
  exact decide_eq_true hne

theorem liveConstraints_rests (h : start.Sound) (hp : PutAside u start db) :
    Triple (Rests db) (liveConstraints (Server.cursor u))
      (fun live s => (∀ l ∈ live, ∃ d ∈ start.user, l.name = d.name) ∧ Rests db s) (fun _ => Rests db) := by
  have user : ∀ d ∈ db.user, d ∈ start.user := by
    intro d hd
    obtain ⟨hm, hu⟩ := Reading.mem_user.mp hd
    exact Reading.mem_user.mpr ⟨hp.sublist.subset hm, hu⟩
  let ds := db.user.mergeSort fun a b => u.precedes a.name b.name
  have mem : ∀ d ∈ ds, d ∈ start.user := fun d hd => user d (List.mem_mergeSort.mp hd)
  have read : Live.ofRows (ds.map Database.liveRow) = .ok ((ds.map Declared.toLive).mergeSort Live.precedes) :=
    Reading.ofRows_liveRow fun d hd => h.each d (Reading.mem_user.mp (mem d hd)).1
  refine (Server.ask_rests _).bind fun rows => ?_
  rintro s ⟨hr, hs⟩
  obtain rfl : ds.map Database.liveRow = rows := Option.some.inj hr
  rw [read]
  refine Action.ends_ok.mpr ⟨fun l hl => ?_, hs⟩
  obtain ⟨d, hd, rfl⟩ := List.mem_map.mp (List.mem_mergeSort.mp hl)
  exact ⟨d, mem d hd, rfl⟩

theorem drop_keeps (h : start.Sound) {l : Live} (hl : ∃ d ∈ start.user, l.name = d.name) :
    Keeps (fun s => ∃ db, PutAside u start db ∧ Rests db s) ((Server.cursor u).executeCommitted l.dropStatement) := by
  obtain ⟨d, hd, hn⟩ := hl
  rw [Action.keeps_iff_triple]
  rintro s ⟨db, hp, hs⟩
  refine (Server.executeCommitted_rests (fun _ hc => by cases hc) s hs).mono ?_ fun _ t ht => ⟨db, hp, ht⟩
  rintro - t ⟨after, he, ht⟩
  exact ⟨after, exec_drop h hp hd hn he, ht⟩

/-- Disabling ends in one of the two phases, whichever of its calls fails. -/
theorem disable_between (e : Engine) (h : start.Sound) :
    Triple (fun s => ∃ db, Untouched start db ∧ Rests db s) (disable (Server.cursor u) e) (fun _ => Between u start)
      (fun _ => Between u start) := by
  rintro s ⟨db, hu, hs⟩
  refine Triple.bind ((ensureTables_rests e hu).weaken (fun _ => id) (fun _ _ => id) ?_) (fun _ => ?_) s hs
  · rintro _ t ⟨last, hl, ht⟩
    exact ⟨last, .inl hl, ht⟩
  obtain ⟨next, last, hc, hg, hp⟩ := exec_capture (u := u) h
  refine Triple.bind ((Server.capture_rests hc hg).weaken (fun _ => id) (fun _ _ => id) ?_) fun _ => ?_
  · exact fun _ t ht => ⟨start.prepared, .inl ⟨rfl, .inr rfl, .inr rfl⟩, ht⟩
  refine Triple.bind ((liveConstraints_rests h hp).weaken (fun _ => id) (fun _ _ => id) ?_) fun live => ?_
  · exact fun _ t ht => ⟨last, .inr hp, ht⟩
  rintro t ⟨hl, ht⟩
  have dropped := Keeps.forEach (I := fun s => ∃ db, PutAside u start db ∧ Rests db s)
    (g := fun l : Live => (Server.cursor u).executeCommitted l.dropStatement) fun l hm => drop_keeps h (hl l hm)
  have between : ∀ s, (∃ db, PutAside u start db ∧ Rests db s) → Between u start s :=
    fun _ ⟨db, hp, hs⟩ => ⟨db, .inr hp, hs⟩
  refine Triple.bind ((Action.keeps_iff_triple.mp dropped).weaken (fun _ => id) (fun _ => between) fun _ => between)
    (fun _ => ?_) t ⟨last, hp, ht⟩
  exact Triple.pure fun _ h => h

end FirebirdSql.Shadow
