import FirebirdSql.Proofs.Shadow.Server
import FirebirdSql.Shadow.Live
import Mathlib.Data.List.Nodup

/-!
What is read back: of the constraints that are in force their names and kinds, and of those that were put aside what
they declared.
-/

namespace FirebirdSql.Shadow

structure Named (name : String) : Prop where
  trimmed : Text.trimmed name = name
  ne_empty : name ≠ ""

instance (name : String) : Decidable (Named name) :=
  decidable_of_iff (Text.trimmed name = name ∧ name ≠ "") ⟨fun ⟨h, g⟩ => ⟨h, g⟩, fun ⟨h, g⟩ => ⟨h, g⟩⟩

/-- A constraint as an engine has it: each column once, a condition in its clause, a key that a foreign key can
reference. -/
structure Declared.Sound (db : Database) (d : Declared) : Prop where
  name : Named d.name
  relation : Named d.relation
  columns : ∀ c ∈ d.declaration.columns, Named c
  nodup : d.declaration.columns.Nodup
  few : d.declaration.columns.length ≤ 0x8000
  nonempty : d.declaration.kind ≠ .check → d.declaration.columns ≠ []
  source : ∀ s ∈ d.declaration.source?,
    Text.trimmed s = s ∧ Text.sameAsciiLetters (s.toList.take 5) "CHECK".toList = true
  key : ∀ name ∈ d.declaration.key?, ∃ k ∈ db.declared, k.declaration.isKey = true ∧ k.name = name ∧
    k.declaration.columns.length = d.declaration.columns.length

instance (db : Database) (d : Declared) : Decidable (d.Sound db) :=
  decidable_of_iff (Named d.name ∧ Named d.relation ∧ (∀ c ∈ d.declaration.columns, Named c) ∧
      d.declaration.columns.Nodup ∧ d.declaration.columns.length ≤ 0x8000 ∧
      (d.declaration.kind ≠ .check → d.declaration.columns ≠ []) ∧
      (∀ s ∈ d.declaration.source?,
        Text.trimmed s = s ∧ Text.sameAsciiLetters (s.toList.take 5) "CHECK".toList = true) ∧
      ∀ name ∈ d.declaration.key?, ∃ k ∈ db.declared, k.declaration.isKey = true ∧ k.name = name ∧
        k.declaration.columns.length = d.declaration.columns.length)
    ⟨fun ⟨h₁, h₂, h₃, h₄, h₅, h₆, h₇, h₈⟩ => ⟨h₁, h₂, h₃, h₄, h₅, h₆, h₇, h₈⟩,
      fun ⟨h₁, h₂, h₃, h₄, h₅, h₆, h₇, h₈⟩ => ⟨h₁, h₂, h₃, h₄, h₅, h₆, h₇, h₈⟩⟩

/-- Names differ, and so do the columns of the keys of one table. -/
structure Database.Sound (db : Database) : Prop where
  each : ∀ d ∈ db.declared, d.Sound db
  names : db.names.Nodup
  keys : ∀ k ∈ db.declared, ∀ l ∈ db.declared, k.declaration.isKey = true → l.declaration.isKey = true →
    k.relation = l.relation → k.declaration.columns = l.declaration.columns → k = l

namespace Declared

variable {u : Usage} {db : Database} {d : Declared}

def toConstraint (u : Usage) (d : Declared) : Constraint where
  name := d.name
  kind := d.declaration.kind
  relationName := d.relation
  indexName := ((u.index d).map Text.trimmed).filter (· != "")
  keyName := d.declaration.key?
  updateRule := d.declaration.rules?.map (·.1.text)
  deleteRule := d.declaration.rules?.map (·.2.text)
  source := d.declaration.source?
  columns := d.declaration.columns

def toLive (d : Declared) : Live := ⟨d.name, d.declaration.kind, d.relation⟩

end Declared

namespace Reading

variable {u : Usage} {db : Database} {d : Declared}

theorem mapM_ok {α β ε : Type} {f : α → Except ε β} {g : α → β} {as : List α} (h : ∀ a ∈ as, f a = .ok (g a)) :
    as.mapM f = .ok (as.map g) := by
  induction as with
  | nil => rfl
  | cons a as ih =>
    rw [List.mapM_cons, h a List.mem_cons_self, ih fun b hb => h b (List.mem_cons_of_mem a hb)]
    rfl

theorem reduceOption_map_some {α β : Type} (g : α → β) (as : List α) :
    (as.map fun a => some (g a)).reduceOption = as.map g := by
  change (as.map fun a => some (g a)).filterMap id = as.map g
  simp [List.filterMap_map]

theorem getName_of_text {n : String} (hn : Text.trimmed n = n) {values : List Value} {k : Nat}
    (hk : values[k]? = some (.text n)) : (Row.mk values).getName k = .ok n := by
  rw [Row.getName, Row.get, hk]
  exact congrArg Except.ok hn

theorem getName?_optional (name? : Option String) {values : List Value} {k : Nat}
    (hk : values[k]? = some (Database.optional name?)) :
    (Row.mk values).getName? k = .ok ((name?.map Text.trimmed).filter (· != "")) := by
  rw [Row.getName?, Row.get, hk]
  cases name? <;> rfl

theorem trimmed_typeText (k : ConstraintKind) : Text.trimmed (typeText k) = typeText k := by
  cases k <;> decide +kernel

theorem ofCatalog?_typeText (d : Declaration) : ConstraintKind.ofCatalog? (typeText d.kind) = some d.kind := by
  cases d <;> rfl

/-! The constraints that are in force -/

theorem ofRow?_liveRow (h : d.Sound db) : Live.ofRow? (Database.liveRow d) = .ok (some d.toLive) := by
  have type : (Database.liveRow d).getName 1 = .ok (typeText d.declaration.kind) :=
    getName_of_text (trimmed_typeText _) rfl
  have name : (Database.liveRow d).getName 0 = .ok d.name := getName_of_text h.name.trimmed rfl
  have relation : (Database.liveRow d).getName 2 = .ok d.relation := getName_of_text h.relation.trimmed rfl
  unfold Live.ofRow?
  rw [type, name, relation]
  simp only [bind, Except.bind, ofCatalog?_typeText]
  rfl

theorem ofRows_liveRow {ds : List Declared} (h : ∀ d ∈ ds, d.Sound db) :
    Live.ofRows (ds.map Database.liveRow) = .ok ((ds.map Declared.toLive).mergeSort Live.precedes) := by
  have rows : (ds.map Database.liveRow).mapM Live.ofRow? = .ok (ds.map fun d => some d.toLive) := by
    rw [List.mapM_map]
    exact mapM_ok fun d hd => ofRow?_liveRow (h d hd)
  unfold Live.ofRows
  rw [rows]
  exact congrArg (fun live => Except.ok (live.mergeSort Live.precedes)) (reduceOption_map_some _ _)

/-! The key of a name -/

theorem filter_name {ds : List Declared} (hn : (ds.map (·.name)).Nodup) (hd : d ∈ ds) :
    ds.filter (·.name = d.name) = [d] := by
  have nodup : (ds.filter (·.name = d.name)).Nodup := hn.of_map.filter _
  refine List.perm_singleton.mp ((List.perm_ext_iff_of_nodup nodup (List.nodup_singleton d)).mpr fun e => ?_)
  rw [List.mem_filter, List.mem_singleton, decide_eq_true_eq]
  constructor
  · exact fun h => List.inj_on_of_nodup_map hn h.1 hd h.2
  · rintro rfl
    exact ⟨hd, rfl⟩

theorem ofRows_keyRows (h : d.Sound db) (hc : d.declaration.columns ≠ []) :
    Key.ofRows (Database.keyRows d) = .ok (some ⟨d.relation, d.declaration.columns⟩) := by
  have columns : (Database.keyRows d).mapM (·.getName 1) = .ok d.declaration.columns := by
    rw [Database.keyRows, List.mapM_map, mapM_ok (g := id), List.map_id]
    exact fun c hm => getName_of_text (h.columns c hm).trimmed rfl
  obtain ⟨c, rest, he⟩ := List.exists_cons_of_ne_nil hc
  have rows : Database.keyRows d = ⟨[.text d.relation, .text c]⟩ :: (Database.keyRows d).tail := by
    rw [Database.keyRows, he]
    rfl
  have table : (Row.mk [.text d.relation, .text c]).getName 0 = .ok d.relation :=
    getName_of_text h.relation.trimmed rfl
  rw [rows] at columns ⊢
  rw [Key.ofRows, table, columns]
  rfl

/-! The constraints that were put aside -/

theorem trimmed_text (r : Rule) : Text.trimmed r.text = r.text ∧ r.text ≠ "" := by
  cases r <;> decide +kernel

theorem filter_named {name? : Option String} (h : ∀ n, name? = some n → Named n) :
    (name?.map Text.trimmed).filter (· != "") = name? := by
  cases name? with
  | none => rfl
  | some n =>
    have named := h n rfl
    simp [named.trimmed, named.ne_empty]

theorem ofRow?_asideRow (hdb : db.Sound) (hd : d ∈ db.declared) :
    Constraint.ofRow? (Database.asideRow (d.aside u)) = .ok (some { d.toConstraint u with columns := [] }) := by
  have sound := hdb.each d hd
  have type : (Database.asideRow (d.aside u)).getName 1 = .ok (typeText d.declaration.kind) :=
    getName_of_text (trimmed_typeText _) rfl
  have name : (Database.asideRow (d.aside u)).getName 0 = .ok d.name := getName_of_text sound.name.trimmed rfl
  have relation : (Database.asideRow (d.aside u)).getName 2 = .ok d.relation :=
    getName_of_text sound.relation.trimmed rfl
  have index : (Database.asideRow (d.aside u)).getName? 3 = .ok (d.toConstraint u).indexName := getName?_optional (u.index d) rfl
  have key : (Database.asideRow (d.aside u)).getName? 4 = .ok d.declaration.key? := by
    rw [getName?_optional d.declaration.key? rfl, filter_named]
    intro n hn
    obtain ⟨k, hk, -, rfl, -⟩ := sound.key n hn
    exact (hdb.each k hk).name
  have rule (k : Nat) (rule? : Option Rule)
      (hk : (Database.asideRow (d.aside u)).values[k]? = some (Database.optional (rule?.map Rule.text))) :
      (Database.asideRow (d.aside u)).getName? k = .ok (rule?.map Rule.text) := by
    rw [getName?_optional _ hk, filter_named]
    intro n hn
    obtain ⟨r, -, rfl⟩ := Option.map_eq_some_iff.mp hn
    exact ⟨(trimmed_text r).1, (trimmed_text r).2⟩
  have onUpdate := rule 5 (d.declaration.rules?.map (·.1)) (by simp [Database.asideRow, Declared.aside, Function.comp_def])
  have onDelete := rule 6 (d.declaration.rules?.map (·.2)) (by simp [Database.asideRow, Declared.aside, Function.comp_def])
  have source : (Database.asideRow (d.aside u)).get (Value.toOption Value.toText) 7 = .ok d.declaration.source? := by
    change Value.toOption Value.toText (Database.optional d.declaration.source?) = _
    cases d.declaration.source? <;> rfl
  unfold Constraint.ofRow?
  rw [type, name, relation, index, key, onUpdate, onDelete, source]
  simp only [bind, Except.bind, ofCatalog?_typeText, Option.map_map]
  rfl

theorem ofRow_segmentRow {s : Segment} (hn : Named s.constraintName) (hc : Named s.column) (least : 0 ≤ s.position)
    (greatest : s.position < 0x8000) : Segment.ofRow (Database.segmentRow s) = .ok s := by
  have name : (Database.segmentRow s).getName 0 = .ok s.constraintName := getName_of_text hn.trimmed rfl
  have column : (Database.segmentRow s).getName 1 = .ok s.column := getName_of_text hc.trimmed rfl
  have position : (Database.segmentRow s).get Value.toInt16 2 = .ok s.position := by
    change Value.toIntBetween (-0x8000) 0x7FFF (.int s.position) = _
    simp only [Value.toIntBetween, Value.toInt64, Value.int64?, bind, Except.bind]
    rw [if_neg (by omega), if_neg (by omega)]
  unfold Segment.ofRow
  rw [name, column, position]
  rfl

/-- Attaching gives each of the constraints its own columns, as their names differ. -/
theorem attach_eq_map {segments : List Segment} {cs : List Constraint} (h : (cs.map (·.name)).Nodup) :
    Constraint.attach segments cs = cs.map fun c => { c with columns := Segment.columnsOf c.name segments } := by
  induction cs generalizing segments with
  | nil => rfl
  | cons c cs ih =>
    rw [List.map_cons, List.nodup_cons] at h
    rw [Constraint.attach, ih h.2, List.map_cons]
    refine congrArg _ (List.map_congr_left fun b hb => ?_)
    have other : b.name ≠ c.name := fun he => h.1 (he ▸ List.mem_map_of_mem hb)
    have same : (segments.filter (·.constraintName != c.name)).filter (·.constraintName == b.name) =
        segments.filter (·.constraintName == b.name) := by
      rw [List.filter_filter]
      refine List.filter_congr fun s _ => ?_
      by_cases hs : s.constraintName = b.name <;> simp [hs, other]
    rw [Segment.columnsOf, Segment.columnsOf, same]

theorem filter_segments {ds : List Declared} (hn : (ds.map (·.name)).Nodup) (hd : d ∈ ds) :
    (ds.flatMap (·.segments)).filter (·.constraintName == d.name) = d.segments := by
  have own (e : Declared) (b : Bool) (h : (e.name == d.name) = b) :
      e.segments.filter (·.constraintName == d.name) = if b then e.segments else [] := by
    subst h
    by_cases he : e.name = d.name
    · rw [if_pos (beq_iff_eq.mpr he), List.filter_eq_self]
      intro s hs
      obtain ⟨c, -, rfl⟩ := List.mem_map.mp hs
      exact beq_iff_eq.mpr he
    · rw [if_neg (by simpa using he), List.filter_eq_nil_iff]
      intro s hs
      obtain ⟨c, -, rfl⟩ := List.mem_map.mp hs
      simpa using he
  induction ds with
  | nil => exact absurd hd List.not_mem_nil
  | cons e ds ih =>
    rw [List.map_cons, List.nodup_cons] at hn
    rw [List.flatMap_cons, List.filter_append]
    rcases List.mem_cons.mp hd with rfl | hd
    · have rest : (ds.flatMap (·.segments)).filter (·.constraintName == d.name) = [] := by
        rw [List.filter_flatMap]
        refine List.flatMap_eq_nil_iff.mpr fun e he => own e false ?_
        exact beq_eq_false_iff_ne.mpr fun h => hn.1 (h ▸ List.mem_map_of_mem he)
      rw [own d true (beq_self_eq_true _), rest]
      exact List.append_nil _
    · have other : (e.name == d.name) = false :=
        beq_eq_false_iff_ne.mpr fun h => hn.1 (h ▸ List.mem_map_of_mem hd)
      rw [own e false other, ih hn.2 hd]
      rfl

theorem pairwise_segments (d : Declared) : d.segments.Pairwise fun a b => a.position < b.position := by
  have positions := List.pairwise_lt_range' (s := 0) (n := d.declaration.columns.length)
  rw [← List.zipIdx_map_snd, List.pairwise_map] at positions
  rw [Declared.segments, List.pairwise_map]
  exact positions.imp fun h => Int.ofNat_lt.mpr h

theorem map_column (d : Declared) : d.segments.map (·.column) = d.declaration.columns := by
  rw [Declared.segments, List.map_map]
  exact List.zipIdx_map_fst 0 _

theorem pairwise_mergeSort_by {α κ : Type} [LE κ] [DecidableLE κ] (trans : ∀ {a b c : κ}, a ≤ b → b ≤ c → a ≤ c)
    (total : ∀ a b : κ, a ≤ b ∨ b ≤ a) (f : α → κ) (as : List α) :
    (as.mergeSort fun a b => decide (f a ≤ f b)).Pairwise fun a b => f a ≤ f b := by
  have le_trans (a b c : α) (hab : decide (f a ≤ f b) = true) (hbc : decide (f b ≤ f c) = true) :
      decide (f a ≤ f c) = true := by
    rw [decide_eq_true_eq] at *
    exact trans hab hbc
  have le_total (a b : α) : (decide (f a ≤ f b) || decide (f b ≤ f a)) = true := by
    rw [Bool.or_eq_true, decide_eq_true_eq, decide_eq_true_eq]
    exact total _ _
  exact (List.pairwise_mergeSort le_trans le_total as).imp of_decide_eq_true

/-- In whatever order segments are read, the columns of a constraint come in theirs. -/
theorem columnsOf_perm {segments : List Segment} {ds : List Declared} (hp : segments.Perm (ds.flatMap (·.segments)))
    (hn : (ds.map (·.name)).Nodup) (hd : d ∈ ds) : Segment.columnsOf d.name segments = d.declaration.columns := by
  have own : (segments.filter (·.constraintName == d.name)).Perm d.segments :=
    (hp.filter _).trans (List.Perm.of_eq (filter_segments hn hd))
  have increasing := pairwise_segments d
  have positions : (d.segments.map (·.position)).Nodup :=
    List.pairwise_map.mpr (increasing.imp fun h he => by omega)
  have sorted : (segments.filter (·.constraintName == d.name)).mergeSort Segment.precedes = d.segments := by
    have perm := (List.mergeSort_perm _ Segment.precedes).trans own
    have ordered := pairwise_mergeSort_by Int.le_trans Int.le_total Segment.position (segments.filter (·.constraintName == d.name))
    refine perm.eq_of_pairwise (fun a b ha hb hab hba => ?_) ordered (increasing.imp Int.le_of_lt)
    exact List.inj_on_of_nodup_map positions (perm.mem_iff.mp ha) hb (Int.le_antisymm hab hba)
  rw [Segment.columnsOf, sorted, map_column]

theorem mem_user : d ∈ db.user ↔ d ∈ db.declared ∧ d.isUser = true := List.mem_filter

theorem nodup_user (hdb : db.Sound) : (db.user.map (·.name)).Nodup := hdb.names.sublist (List.filter_sublist.map _)

theorem ofRow_segment (hdb : db.Sound) {s : Segment} (hs : s ∈ db.user.flatMap (·.segments)) :
    Segment.ofRow (Database.segmentRow s) = .ok s := by
  obtain ⟨d, hd, hs⟩ := List.mem_flatMap.mp hs
  obtain ⟨⟨c, i⟩, hc, rfl⟩ := List.mem_map.mp hs
  have sound := hdb.each d (mem_user.mp hd).1
  have bound := List.snd_lt_of_mem_zipIdx hc
  have few := sound.few
  refine ofRow_segmentRow sound.name (sound.columns c (List.fst_mem_of_mem_zipIdx hc)) (Int.natCast_nonneg i) ?_
  simp only at bound ⊢
  omega

/-- The constraints that were put aside are read back as they were, in an order in which they can be made again. -/
theorem assemble_user (hdb : db.Sound) {segments : List Segment} (hs : segments.Perm (db.user.flatMap (·.segments))) :
    ∃ (cs : List Constraint) (ds : List Declared),
      Constraint.ofRows (((db.user.map (·.aside u)).mergeSort fun a b => u.precedes a.name b.name).map
        Database.asideRow) = .ok cs ∧
      Constraint.assemble cs segments = ds.map (·.toConstraint u) ∧ ds.Perm db.user ∧
      ds.Pairwise fun a b => restoreRank a.declaration.kind ≤ restoreRank b.declaration.kind := by
  let ds := db.user.mergeSort fun a b => u.precedes a.name b.name
  let rank := fun d : Declared => restoreRank d.declaration.kind
  have perm : ds.Perm db.user := List.mergeSort_perm _ _
  have rows : ((db.user.map (·.aside u)).mergeSort fun a b => u.precedes a.name b.name) = ds.map (·.aside u) :=
    (List.map_mergeSort (f := Declared.aside u) fun _ _ _ _ => rfl).symm
  refine ⟨ds.map fun d => { d.toConstraint u with columns := [] }, ds.mergeSort fun a b => decide (rank a ≤ rank b),
    ?_, ?_, (List.mergeSort_perm _ _).trans perm, pairwise_mergeSort_by Nat.le_trans Nat.le_total rank ds⟩
  · have read : ((ds.map (·.aside u)).map Database.asideRow).mapM Constraint.ofRow? =
        .ok (ds.map fun d => some { d.toConstraint u with columns := [] }) := by
      rw [List.mapM_map, List.mapM_map]
      exact mapM_ok fun d hd => ofRow?_asideRow hdb (mem_user.mp (perm.mem_iff.mp hd)).1
    rw [rows, Constraint.ofRows, read]
    exact congrArg Except.ok (reduceOption_map_some _ _)
  · have names : ((ds.map fun d => { d.toConstraint u with columns := [] }).map (·.name)).Nodup := by
      rw [List.map_map]
      exact (perm.map _).nodup_iff.mpr (nodup_user hdb)
    have whole : ∀ d ∈ ds, ((fun c : Constraint => { c with columns := Segment.columnsOf c.name segments }) ∘
        fun d : Declared => { d.toConstraint u with columns := [] }) d = d.toConstraint u := by
      intro d hd
      have columns := columnsOf_perm hs (nodup_user hdb) (perm.mem_iff.mp hd)
      exact congrArg (fun columns => { d.toConstraint u with columns := columns }) columns
    rw [Constraint.assemble, attach_eq_map names, List.map_map, List.map_congr_left whole]
    exact (List.map_mergeSort (f := Declared.toConstraint u) fun _ _ _ _ => rfl).symm

end Reading

end FirebirdSql.Shadow
