import FirebirdSql.Proofs.Shadow.Reading
import FirebirdSql.Proofs.Unfailing
import FirebirdSql.Shadow.Store
import Mathlib.Data.List.ReduceOption

/-!
The order in which constraints are dropped and made again. Sorting by rank is stable, so those of one kind stay as they
were read, and so do the columns of a constraint that have one position.
-/

namespace FirebirdSql

def Statement.dropsConstraint : Statement → Bool
  | .dropConstraint .. => true
  | _ => false

namespace Shadow

open Noted (Achieves)

/-! Stable sorting -/

section Sorting

variable {α : Type}

/-- Sorting is stable: what has one key stays in its order. -/
theorem filter_mergeSort_by {κ : Type} [LE κ] [DecidableLE κ] [DecidableEq κ]
    (trans : ∀ {a b c : κ}, a ≤ b → b ≤ c → a ≤ c) (total : ∀ a b : κ, a ≤ b ∨ b ≤ a) (f : α → κ) (k : κ) (as : List α) :
    (as.mergeSort fun a b => decide (f a ≤ f b)).filter (f · == k) = as.filter (f · == k) := by
  have level : (as.filter (f · == k)).Pairwise fun a b => decide (f a ≤ f b) = true := by
    refine (List.pairwise_of_forall (R := fun _ _ => True) fun _ _ => trivial).imp_of_mem fun {a b} ha hb _ => ?_
    rw [beq_iff_eq.mp (List.mem_filter.mp ha).2, beq_iff_eq.mp (List.mem_filter.mp hb).2, decide_eq_true_eq]
    exact (total k k).elim id id
  have within : (as.filter (f · == k)).Sublist ((as.mergeSort fun a b => decide (f a ≤ f b)).filter (f · == k)) := by
    have sublist : (as.filter (f · == k)).Sublist (as.mergeSort fun a b => decide (f a ≤ f b)) := by
      refine List.sublist_mergeSort (fun a b c hab hbc => ?_) (fun a b => ?_) level List.filter_sublist
      · rw [decide_eq_true_eq] at *
        exact trans hab hbc
      · rw [Bool.or_eq_true, decide_eq_true_eq, decide_eq_true_eq]
        exact total _ _
    have kept := sublist.filter (f · == k)
    rwa [List.filter_filter, List.filter_congr fun a _ => Bool.and_self (f a == k)] at kept
  exact (within.eq_of_length ((List.mergeSort_perm as _).filter _).length_eq.symm).symm

/-- A list in which those of one sort come first. -/
theorem eq_filter_append {p : α → Bool} {as : List α} (h : as.Pairwise fun a b => p b = true → p a = true) :
    as = as.filter p ++ as.filter (!p ·) := by
  induction as with
  | nil => rfl
  | cons a as ih =>
    obtain ⟨first, rest⟩ := List.pairwise_cons.mp h
    by_cases ha : p a = true
    · rw [List.filter_cons_of_pos ha, List.filter_cons_of_neg (by simp [ha]), List.cons_append, ← ih rest]
    · have none : as.filter p = [] := List.filter_eq_nil_iff.mpr fun b hb later => ha (first b hb later)
      have all : as.filter (!p ·) = as := List.filter_eq_self.mpr fun b hb => by simpa using fun later => ha (first b hb later)
      rw [List.filter_cons_of_neg ha, List.filter_cons_of_pos (by simpa using ha), none, all]
      rfl

/-- Sorted by three ranks, a list is that of the least, the middle and the last, each as it was. -/
theorem mergeSort_by_rank {rank : α → Nat} {as : List α} (bound : ∀ a ∈ as, rank a ≤ 2) :
    (as.mergeSort fun a b => decide (rank a ≤ rank b)) =
      as.filter (rank · == 0) ++ (as.filter (rank · == 1) ++ as.filter (rank · == 2)) := by
  let sorted := as.mergeSort fun a b => decide (rank a ≤ rank b)
  have ascending : sorted.Pairwise fun a b => rank a ≤ rank b :=
    Reading.pairwise_mergeSort_by Nat.le_trans Nat.le_total rank as
  have stable (k : Nat) : sorted.filter (rank · == k) = as.filter (rank · == k) :=
    filter_mergeSort_by Nat.le_trans Nat.le_total rank k as
  -- The sorted list is cut behind the least rank, and what is left of it behind the next.
  have least : sorted = sorted.filter (rank · == 0) ++ sorted.filter (!rank · == 0) := by
    refine eq_filter_append (ascending.imp fun {a b} h => ?_)
    simp only [beq_iff_eq]
    omega
  have middle : sorted.filter (!rank · == 0) = sorted.filter (rank · == 1) ++ sorted.filter (rank · == 2) := by
    have order : (sorted.filter (!rank · == 0)).Pairwise fun a b => (rank b == 1) = true → (rank a == 1) = true := by
      refine (ascending.filter _).imp_of_mem fun {a b} ha _ h => ?_
      have positive := (List.mem_filter.mp ha).2
      simp only [Bool.not_eq_true', beq_eq_false_iff_ne, beq_iff_eq] at positive ⊢
      omega
    rw [eq_filter_append order, List.filter_filter, List.filter_filter]
    congr 1
    · exact List.filter_congr fun a _ => by
        rw [Bool.eq_iff_iff]
        simp only [Bool.and_eq_true, Bool.not_eq_true', beq_eq_false_iff_ne, beq_iff_eq]
        omega
    · exact List.filter_congr fun a ha => by
        have most := bound a (List.mem_mergeSort.mp ha)
        rw [Bool.eq_iff_iff]
        simp only [Bool.and_eq_true, Bool.not_eq_true', beq_eq_false_iff_ne, beq_iff_eq]
        omega
  change sorted = _
  rw [least, middle, stable, stable, stable]

end Sorting

/-! What comes before the drops -/

section Preparing

variable {c : Cursor σ} (h : c.Unfailing)

include h

theorem tableExists_achieves (name : String) : Achieves (tableExists c.logged name) fun _ sent => sent = [] := by
  refine (h.ask_achieves (.table name)).bind ?_
  rintro rows - rfl
  exact Achieves.pure rfl

/-- Whichever of the two tables are missing, no constraint is dropped to make them. -/
theorem ensureTables_achieves (e : Engine) :
    Achieves (ensureTables c.logged e) fun _ sent => ∀ s ∈ sent, s.dropsConstraint = false := by
  have second : Achieves (do
      if !(← tableExists c.logged CatalogQuery.segmentTable) then
        c.logged.executeCommitted (.createSegmentTable e.identifierLimit))
      fun _ sent => ∀ s ∈ sent, s.dropsConstraint = false := by
    refine (tableExists_achieves h _).bind ?_
    rintro (_ | _) - rfl
    · refine (h.executeCommitted_achieves (.createSegmentTable e.identifierLimit) rfl).mono ?_
      rintro - - rfl
      exact List.forall_mem_singleton.mpr rfl
    · exact Achieves.pure fun s hs => absurd hs List.not_mem_nil
  refine (tableExists_achieves h _).bind ?_
  rintro (_ | _) - rfl
  · refine (h.executeCommitted_achieves (.createConstraintTable e.identifierLimit) rfl).bind ?_
    rintro - - rfl
    exact second.mono fun _ _ rest => List.forall_mem_cons.mpr ⟨rfl, rest⟩
  · exact second

theorem capture_achieves :
    Achieves (capture c.logged) fun _ sent => sent = [.captureConstraints, .captureSegments] := by
  refine h.inTransaction_achieves ?_
  refine (h.executeClassified_achieves .captureConstraints rfl).bind ?_
  rintro - - rfl
  refine (h.executeClassified_achieves .captureSegments rfl).mono ?_
  rintro - - rfl
  rfl

end Preparing

/-! The orders -/

section Orders

variable {α : Type} {kind : α → ConstraintKind} {as : List α}

def foreignKeys (kind : α → ConstraintKind) (as : List α) : List α := as.filter (kind · = .foreignKey)

def checks (kind : α → ConstraintKind) (as : List α) : List α := as.filter (kind · = .check)

def keys (kind : α → ConstraintKind) (as : List α) : List α := as.filter fun a => kind a = .unique ∨ kind a = .primaryKey

theorem filter_dropRank (declared : ∀ a ∈ as, kind a ≠ .index) :
    as.filter (fun a => dropRank (kind a) == 0) = foreignKeys kind as ∧
      as.filter (fun a => dropRank (kind a) == 1) = checks kind as ∧
      as.filter (fun a => dropRank (kind a) == 2) = keys kind as := by
  refine ⟨List.filter_congr fun a _ => ?_, List.filter_congr fun a _ => ?_, List.filter_congr fun a ha => ?_⟩
  · cases kind a <;> rfl
  · cases kind a <;> rfl
  · have other := declared a ha
    revert other
    cases kind a <;> simp [dropRank]

theorem mergeSort_dropRank (declared : ∀ a ∈ as, kind a ≠ .index) :
    (as.mergeSort fun a b => decide (dropRank (kind a) ≤ dropRank (kind b))) =
      foreignKeys kind as ++ (checks kind as ++ keys kind as) := by
  obtain ⟨first, second, third⟩ := filter_dropRank declared
  have bound : ∀ a ∈ as, dropRank (kind a) ≤ 2 := fun a _ => by cases kind a <;> decide
  rw [mergeSort_by_rank bound, first, second, third]

theorem mergeSort_restoreRank (declared : ∀ a ∈ as, kind a ≠ .index) :
    (as.mergeSort fun a b => decide (restoreRank (kind a) ≤ restoreRank (kind b))) =
      keys kind as ++ (checks kind as ++ foreignKeys kind as) := by
  obtain ⟨first, second, third⟩ := filter_dropRank declared
  -- The ranks of the opposite order are the same ones, counted from the other end.
  have reversed (k : Nat) (hk : k ≤ 2) :
      as.filter (fun a => restoreRank (kind a) == 2 - k) = as.filter fun a => dropRank (kind a) == k := by
    refine List.filter_congr fun a _ => ?_
    have most : dropRank (kind a) ≤ 2 := by cases kind a <;> decide
    rw [Bool.eq_iff_iff, beq_iff_eq, beq_iff_eq, restoreRank]
    omega
  have bound : ∀ a ∈ as, restoreRank (kind a) ≤ 2 := fun _ _ => Nat.sub_le ..
  rw [mergeSort_by_rank bound, ← third, ← second, ← first, ← reversed 2 (by omega), ← reversed 1 (by omega),
    ← reversed 0 (by omega)]

end Orders

/-- The rows say just this, one after the other. -/
def Told (ofRow : Row → Except Error α) (rows : List Row) (said : List α) : Prop :=
  List.Forall₂ (fun r a => ofRow r = .ok a) rows said

theorem Told.mapM {ofRow : Row → Except Error α} {rows : List Row} {said : List α} (h : Told ofRow rows said) :
    rows.mapM ofRow = .ok said := by
  induction h with
  | nil => rfl
  | cons first _ ih =>
    rw [List.mapM_cons, first, ih]
    rfl

theorem Told.mem {ofRow? : Row → Except Error (Option α)} {rows : List Row} {said : List (Option α)}
    (h : Told ofRow? rows said) {a : α} (ha : a ∈ said.reduceOption) : ∃ r, ofRow? r = .ok (some a) := by
  obtain ⟨k, hk, he⟩ := List.getElem_of_mem (List.reduceOption_mem_iff.mp ha)
  exact ⟨_, (h.get (h.length_eq.symm ▸ hk) hk).trans (congrArg Except.ok he)⟩

theorem ofCatalog?_ne_index {type : String} {k : ConstraintKind} (h : ConstraintKind.ofCatalog? type = some k) :
    k ≠ .index := by
  rintro rfl
  unfold ConstraintKind.ofCatalog? at h
  split at h <;> cases h

/-! Dropping -/

/-- Disabling first makes sure of the two tables and copies the constraints. Of the constraints that are then in force
it drops those of a known type, each once: foreign keys, then conditions, then keys, and those of one kind as they were
read. -/
def DropsInOrder (c : Cursor σ) (e : Engine) : Prop := ∀ s : Noted σ Logged, ∃ rows before u v,
  (do ensureTables c.logged e; capture c.logged) s = (.ok (), u) ∧
    Catalog.ask c.logged .liveConstraints u = (.ok rows, v) ∧
    Logged.sent v.notes = Logged.sent s.notes ++ before ∧ (∀ t ∈ before, t.dropsConstraint = false) ∧
    ∀ said, Told Live.ofRow? rows said →
      let known := said.reduceOption
      let ordered := foreignKeys Live.kind known ++ (checks Live.kind known ++ keys Live.kind known)
      ordered.Perm known ∧ ∃ w, disable c.logged e s = (.ok known.length, w) ∧
        Logged.sent w.notes = Logged.sent v.notes ++ ordered.map Live.dropStatement

theorem kind_ne_index {r : Row} {l : Live} (h : Live.ofRow? r = .ok (some l)) : l.kind ≠ .index := by
  obtain ⟨type, -, h⟩ := bind_eq_ok_iff.mp h
  cases known : ConstraintKind.ofCatalog? type with
  | none =>
    rw [known] at h
    cases h
  | some k =>
    rw [known] at h
    obtain ⟨name, -, h⟩ := bind_eq_ok_iff.mp h
    obtain ⟨relation, -, ⟨⟩⟩ := bind_eq_ok_iff.mp h
    exact ofCatalog?_ne_index known

theorem ofRows_eq {rows : List Row} {said : List (Option Live)} (h : Told Live.ofRow? rows said) :
    Live.ofRows rows = .ok (said.reduceOption.mergeSort Live.precedes) := by
  rw [Live.ofRows, h.mapM]
  rfl

theorem disable_dropsInOrder {c : Cursor σ} (h : c.Unfailing) (e : Engine) : DropsInOrder c e := by
  intro s
  have prepares : Achieves (do ensureTables c.logged e; capture c.logged)
      fun _ sent => ∀ t ∈ sent, t.dropsConstraint = false := by
    refine (ensureTables_achieves h e).bind fun _ sent spared => (capture_achieves h).mono ?_
    rintro - - rfl t ht
    rcases List.mem_append.mp ht with ht | ht
    · exact spared t ht
    · simp only [List.mem_cons, List.not_mem_nil, or_false] at ht
      rcases ht with rfl | rfl <;> rfl
  obtain ⟨⟨⟩, u, before, prepared, sent, spared⟩ := prepares s
  obtain ⟨rows, v, -, asked, nothing, rfl⟩ := h.ask_achieves .liveConstraints u
  refine ⟨rows, before, u, v, prepared, asked, ?_, spared, fun said told => ?_⟩
  · rw [nothing, sent, List.append_nil]
  intro known ordered
  have sorted : known.mergeSort Live.precedes = ordered := mergeSort_dropRank fun l hl => by
    obtain ⟨r, hr⟩ := told.mem hl
    exact kind_ne_index hr
  have perm : ordered.Perm known := sorted ▸ List.mergeSort_perm known Live.precedes
  have drops : Achieves (Action.forEach (fun l : Live => c.logged.executeCommitted l.dropStatement) ordered)
      fun _ sent => sent = ordered.map Live.dropStatement :=
    Achieves.forEach (g := Live.dropStatement) (fun l => h.executeCommitted_achieves l.dropStatement rfl) ordered
  obtain ⟨⟨⟩, w, -, dropped, gone, rfl⟩ := drops v
  have live : liveConstraints c.logged u = (.ok ordered, v) := by
    rw [liveConstraints, Action.bind_of_ok asked, Action.lift_apply, ofRows_eq told, sorted]
  -- The program is cut where the drops begin, as what comes before them depends on other answers.
  have whole : disable c.logged e = (do ensureTables c.logged e; capture c.logged) >>= fun _ => do
      let live ← liveConstraints c.logged
      Action.forEach (fun l => c.logged.executeCommitted l.dropStatement) live
      return live.length := (bind_assoc ..).symm
  refine ⟨perm, w, ?_, gone⟩
  rw [whole, Action.bind_of_ok prepared, Action.bind_of_ok live, Action.bind_of_ok dropped, perm.length_eq]
  rfl

/-! Listing what was put aside -/

/-- The same segments by ascending position, those of one position as they were. -/
structure Positioned (segments sorted : List Segment) : Prop where
  perm : sorted.Perm segments
  ascending : sorted.Pairwise fun a b => a.position ≤ b.position
  stable : ∀ p, sorted.filter (·.position == p) = segments.filter (·.position == p)

/-- Of the constraints that were put aside those of a known type are listed, each once: keys, then conditions, then
foreign keys, and those of one kind as they were read. Each has the columns of its own segments by position. -/
def ListsInOrder (c : Cursor σ) : Prop := ∀ s t u rows segmentRows said segments,
  Catalog.ask c .storedConstraints s = (.ok rows, t) → Catalog.ask c .storedSegments t = (.ok segmentRows, u) →
  Told Constraint.ofRow? rows said → Told Segment.ofRow segmentRows segments →
  let known := said.reduceOption
  let ordered := keys Constraint.kind known ++ (checks Constraint.kind known ++ foreignKeys Constraint.kind known)
  (known.map (·.name)).Nodup → ordered.Perm known ∧ ∃ cs, stored c s = (.ok cs, u) ∧
    cs.map (fun k => { k with columns := [] }) = ordered ∧
    ∀ k ∈ cs, ∃ own, Positioned (segments.filter (·.constraintName == k.name)) own ∧ k.columns = own.map (·.column)

theorem kind_and_columns {r : Row} {k : Constraint} (h : Constraint.ofRow? r = .ok (some k)) :
    k.kind ≠ .index ∧ k.columns = [] := by
  obtain ⟨type, -, h⟩ := bind_eq_ok_iff.mp h
  cases known : ConstraintKind.ofCatalog? type with
  | none =>
    rw [known] at h
    cases h
  | some kind =>
    rw [known] at h
    obtain ⟨name, -, h⟩ := bind_eq_ok_iff.mp h
    obtain ⟨relation, -, h⟩ := bind_eq_ok_iff.mp h
    obtain ⟨index, -, h⟩ := bind_eq_ok_iff.mp h
    obtain ⟨key, -, h⟩ := bind_eq_ok_iff.mp h
    obtain ⟨onUpdate, -, h⟩ := bind_eq_ok_iff.mp h
    obtain ⟨onDelete, -, h⟩ := bind_eq_ok_iff.mp h
    obtain ⟨source, -, ⟨⟩⟩ := bind_eq_ok_iff.mp h
    exact ⟨ofCatalog?_ne_index known, rfl⟩

theorem positioned_mergeSort (segments : List Segment) : Positioned segments (segments.mergeSort Segment.precedes) where
  perm := List.mergeSort_perm ..
  ascending := Reading.pairwise_mergeSort_by Int.le_trans Int.le_total Segment.position segments
  stable p := filter_mergeSort_by Int.le_trans Int.le_total Segment.position p segments

theorem assemble_eq {known : List Constraint} {segments : List Segment} (names : (known.map (·.name)).Nodup) :
    Constraint.assemble known segments = (known.mergeSort Constraint.precedes).map fun k =>
      { k with columns := Segment.columnsOf k.name segments } := by
  rw [Constraint.assemble, Reading.attach_eq_map names, List.map_mergeSort]
  exact fun _ _ _ _ => rfl

theorem stored_listsInOrder (c : Cursor σ) : ListsInOrder c := by
  intro s t u rows segmentRows said segments asked asked' told told' known ordered names
  have sorted : known.mergeSort Constraint.precedes = ordered := mergeSort_restoreRank fun k hk => by
    obtain ⟨r, hr⟩ := told.mem hk
    exact (kind_and_columns hr).1
  have perm : ordered.Perm known := sorted ▸ List.mergeSort_perm known Constraint.precedes
  have read : Constraint.ofRows rows = .ok known := by rw [Constraint.ofRows, told.mapM]; rfl
  refine ⟨perm, Constraint.assemble known segments, ?_, ?_, ?_⟩
  · rw [stored, Action.bind_of_ok asked, Action.bind_apply, Action.lift_apply, read]
    dsimp only
    rw [Action.bind_of_ok asked', Action.bind_apply, Action.lift_apply, told'.mapM]
    rfl
  · rw [assemble_eq names, sorted, List.map_map]
    refine (List.map_congr_left fun k hk => ?_).trans (List.map_id ordered)
    obtain ⟨r, hr⟩ := told.mem (perm.mem_iff.mp hk)
    exact congrArg (fun columns => { k with columns := columns }) (kind_and_columns hr).2.symm
  · rw [assemble_eq names]
    intro k hk
    obtain ⟨k, -, rfl⟩ := List.mem_map.mp hk
    exact ⟨_, positioned_mergeSort _, rfl⟩

/-- Constraints go in the order in which nothing that goes is still referenced, and come back in the opposite order. -/
theorem drops_and_lists_in_order (c : Cursor σ) (e : Engine) : (c.Unfailing → DropsInOrder c e) ∧ ListsInOrder c :=
  ⟨fun h => disable_dropsInOrder h e, stored_listsInOrder c⟩

namespace Shelf

def engine : Engine := ⟨⟨3, 0, 0, 0⟩⟩

/-- Name, type and relation of constraints, one of them of a type that is not known. -/
def declared : List (String × String × String) :=
  [("BOOK_AUTHOR_FK", "FOREIGN KEY", "BOOK"), ("BOOK_ID_NN", "NOT NULL", "BOOK"), ("BOOK_PAGES_CK", "CHECK", "BOOK"),
    ("BOOK_TITLE_UQ", "UNIQUE", "BOOK"), ("LOAN_BOOK_FK", "FOREIGN KEY", "LOAN")]

/-- The columns of the unique constraint do not stand together, nor by position. -/
def catalog : CatalogQuery → List Row
  | .liveConstraints => declared.map fun (name, type, relation) => ⟨[.text name, .text type, .text relation]⟩
  | .storedConstraints => declared.map fun (name, type, relation) =>
    ⟨[.text name, .text type, .text relation, .null, .null, .null, .null, .null]⟩
  | .storedSegments =>
    [⟨[.text "BOOK_TITLE_UQ", .text "YEAR", .int 1]⟩, ⟨[.text "BOOK_AUTHOR_FK", .text "AUTHOR", .int 0]⟩,
      ⟨[.text "BOOK_TITLE_UQ", .text "TITLE", .int 0]⟩]
  | _ => []

def live : List (Option Live) :=
  [some ⟨"BOOK_AUTHOR_FK", .foreignKey, "BOOK"⟩, none, some ⟨"BOOK_PAGES_CK", .check, "BOOK"⟩,
    some ⟨"BOOK_TITLE_UQ", .unique, "BOOK"⟩, some ⟨"LOAN_BOOK_FK", .foreignKey, "LOAN"⟩]

def aside : List (Option Constraint) :=
  live.map (Option.map fun l => ⟨l.name, l.kind, l.relationName, none, none, none, none, none, []⟩)

def segments : List Segment := [⟨"BOOK_TITLE_UQ", 1, "YEAR"⟩, ⟨"BOOK_AUTHOR_FK", 0, "AUTHOR"⟩, ⟨"BOOK_TITLE_UQ", 0, "TITLE"⟩]

theorem clerk_unfailing (reply : CatalogQuery → List Row) : (Catalog.clerk reply).Unfailing where
  toAccepts := (Editor.Rehearsal.clerk_obliges reply).accepts
  start _ _ := rfl
  fetchAll link := ⟨link, rfl⟩

theorem told_live : Told Live.ofRow? (catalog .liveConstraints) live :=
  .cons rfl (.cons rfl (.cons rfl (.cons rfl (.cons rfl .nil))))

theorem told_aside : Told Constraint.ofRow? (catalog .storedConstraints) aside :=
  .cons rfl (.cons rfl (.cons rfl (.cons rfl (.cons rfl .nil))))

theorem told_segments : Told Segment.ofRow (catalog .storedSegments) segments := .cons rfl (.cons rfl (.cons rfl .nil))

theorem eq_of_title {own : List Segment} (h : Positioned (segments.filter (·.constraintName == "BOOK_TITLE_UQ")) own) :
    own = [⟨"BOOK_TITLE_UQ", 0, "TITLE"⟩, ⟨"BOOK_TITLE_UQ", 1, "YEAR"⟩] := by
  have members : ∀ a ∈ own, a = ⟨"BOOK_TITLE_UQ", 1, "YEAR"⟩ ∨ a = ⟨"BOOK_TITLE_UQ", 0, "TITLE"⟩ := fun a ha => by
    simpa [segments] using h.perm.mem_iff.mp ha
  refine List.Perm.eq_of_pairwise (fun a b ha hb hab hba => ?_) h.ascending (by simp) (h.perm.trans (.swap ..))
  simp only [List.mem_cons, List.not_mem_nil, or_false] at hb
  rcases members a ha with rfl | rfl <;> rcases hb with rfl | rfl
  · exact absurd hab (by decide)
  · rfl
  · rfl
  · exact absurd hba (by decide)

/-- Both keys that reference go first and come back last. -/
theorem drops_and_lists_in_order_books :
    (Catalog.clerk catalog).Unfailing ∧
      (∃ w, disable (Catalog.clerk catalog).logged engine ⟨[], []⟩ = (.ok 4, w) ∧
        (Logged.sent w.notes).filter (·.dropsConstraint) =
          [.dropConstraint (.ofStored "BOOK") (.ofStored "BOOK_AUTHOR_FK"),
            .dropConstraint (.ofStored "LOAN") (.ofStored "LOAN_BOOK_FK"),
            .dropConstraint (.ofStored "BOOK") (.ofStored "BOOK_PAGES_CK"),
            .dropConstraint (.ofStored "BOOK") (.ofStored "BOOK_TITLE_UQ")]) ∧
      ∃ cs u, stored (Catalog.clerk catalog) [] = (.ok cs, u) ∧
        cs.map (·.name) = ["BOOK_TITLE_UQ", "BOOK_PAGES_CK", "BOOK_AUTHOR_FK", "LOAN_BOOK_FK"] ∧
        ∀ k ∈ cs, k.name = "BOOK_TITLE_UQ" → k.columns = ["TITLE", "YEAR"] := by
  obtain ⟨drops, lists⟩ := drops_and_lists_in_order (Catalog.clerk catalog) engine
  refine ⟨clerk_unfailing catalog, ?_, ?_⟩
  · obtain ⟨rows, before, u, v, -, asked, sent, spared, disables⟩ := drops (clerk_unfailing catalog) ⟨[], []⟩
    obtain rfl : catalog .liveConstraints = rows := Except.ok.inj (congrArg Prod.fst asked)
    obtain ⟨-, w, disabled, gone⟩ := disables live told_live
    refine ⟨w, disabled, ?_⟩
    have none : before.filter (·.dropsConstraint) = [] := List.filter_eq_nil_iff.mpr fun t ht => by simp [spared t ht]
    rw [gone, sent, List.filter_append, List.filter_append, none]
    rfl
  · obtain ⟨-, cs, done, bare, placed⟩ := lists [] _ _ _ _ aside segments rfl rfl told_aside told_segments (by decide)
    refine ⟨cs, _, done, ?_, fun k hk named => ?_⟩
    · have names := congrArg (List.map Constraint.name) bare
      rw [List.map_map] at names
      exact names
    · obtain ⟨own, positioned, columns⟩ := placed k hk
      rw [named] at positioned
      rw [columns, eq_of_title positioned]
      rfl

end Shelf

end Shadow

end FirebirdSql
