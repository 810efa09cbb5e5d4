import FirebirdSql.Proofs.Catalog.Describing
import FirebirdSql.Proofs.Catalog.Sharing

/-!
Constraints as groups of rows. The rows of one name make one description, wherever they stand among the others; each of
the two lists that are read is gathered by itself, and they are merged by name.
-/

namespace FirebirdSql

namespace Catalog

/-! Rows in groups -/

namespace Constraints

variable {cs : List Constraint} {c : Constraint} {name : String}

theorem find?_put (cs : List Constraint) (c : Constraint) (name : String) :
    find? (put cs c) name = if c.name = name then some c else find? cs name := by
  induction cs with
  | nil => simp [put, find?, List.find?_singleton]
  | cons d cs ih =>
    rw [put]
    by_cases same : d.name = c.name
    · rw [if_pos same]
      by_cases hit : c.name = name
      · simp [find?, hit]
      · simp [find?, hit, same]
    · rw [if_neg same]
      by_cases hit : d.name = name
      · have other : c.name ≠ name := fun h => same (hit.trans h.symm)
        simp [find?, hit, other]
      · simpa [find?, hit] using ih

theorem map_name_put (cs : List Constraint) (c : Constraint) :
    (put cs c).map (·.name) = if c.name ∈ cs.map (·.name) then cs.map (·.name) else cs.map (·.name) ++ [c.name] := by
  induction cs with
  | nil => rfl
  | cons d cs ih =>
    rw [put]
    by_cases same : d.name = c.name
    · simp [same]
    · rw [if_neg same, List.map_cons, ih]
      by_cases known : c.name ∈ cs.map (·.name)
      · simp only [List.map_cons, List.mem_cons, known, or_true, if_true]
      · simp only [List.map_cons, List.mem_cons, known, or_false, if_false, Ne.symm same, List.cons_append]

end Constraints

/-- How rows are told to belong together, and what those of one name say. -/
structure Grouping where
  key : Row → String
  gathered : Row → List Row → Constraint
  /-- After these rows of its name, what is to be read of a row can be read. -/
  Readable : List Row → Row → Prop

namespace Grouping

variable (g : Grouping)

def group (rows : List Row) (name : String) : List Row := rows.filter (g.key · == name)

/-- What the rows of a name say, if there are any. -/
def described (rows : List Row) (name : String) : Option Constraint :=
  (g.group rows name).head?.map fun first => g.gathered first (g.group rows name)

/-- All that is to be read of the rows can be read. -/
def Legible (rows : List Row) : Prop :=
  ∀ before r after, rows = before ++ r :: after → g.Readable (g.group before (g.key r)) r

/-- There is one description for each name, of all the rows of the name. -/
structure Gathers (rows : List Row) (cs : List Constraint) : Prop where
  names : cs.map (·.name) = (rows.map g.key).eraseDups
  found : ∀ name, Constraints.find? cs name = g.described rows name

variable {g} {rows : List Row} {r : Row} {cs : List Constraint} {name : String}

theorem group_concat_self : g.group (rows ++ [r]) (g.key r) = g.group rows (g.key r) ++ [r] := by
  simp [group, List.filter_append]

theorem group_concat_other (other : g.key r ≠ name) : g.group (rows ++ [r]) name = g.group rows name := by
  simp [group, List.filter_append, other]

/-- What is known by the name of a row, or begins with it, is what the rows of the name before it say. -/
theorem Gathers.known (h : g.Gathers rows cs) (r : Row) :
    (Constraints.find? cs (g.key r)).getD (g.gathered r []) =
      g.gathered ((g.group rows (g.key r)).head?.getD r) (g.group rows (g.key r)) := by
  rw [h.found, described]
  cases g.group rows (g.key r) with
  | nil => rfl
  | cons first rest => rfl

theorem described_concat_self : g.described (rows ++ [r]) (g.key r) =
    some (g.gathered ((g.group rows (g.key r)).head?.getD r) (g.group rows (g.key r) ++ [r])) := by
  rw [described, group_concat_self]
  cases g.group rows (g.key r) with
  | nil => rfl
  | cons first rest => rfl

theorem legible_concat :
    g.Legible (rows ++ [r]) ↔ g.Legible rows ∧ g.Readable (g.group rows (g.key r)) r := by
  constructor
  · intro h
    refine ⟨fun before q after split => h before q (after ++ [r]) ?_, h rows r [] rfl⟩
    rw [split, List.append_assoc, List.cons_append]
  · rintro ⟨h, last⟩ before q after split
    rcases List.eq_nil_or_concat after with rfl | ⟨after, p, rfl⟩
    · obtain ⟨rfl, same⟩ := List.append_inj' split rfl
      obtain rfl := List.singleton_inj.mp same
      exact last
    · rw [List.concat_eq_append, ← List.cons_append, ← List.append_assoc] at split
      exact h before q after (List.append_inj' split rfl).1

theorem legible_nil : g.Legible [] := fun before r after split => by simp at split

/-- The first row of a group has the name of the group. -/
theorem key_first (rows : List Row) (r : Row) : g.key ((g.group rows (g.key r)).head?.getD r) = g.key r := by
  cases first : (g.group rows (g.key r)).head? with
  | none => rfl
  | some q => exact beq_iff_eq.mp (List.mem_filter.mp (List.mem_of_mem_head? first)).2

theorem Gathers.put {c : Constraint} (h : g.Gathers rows cs) (hc : g.described (rows ++ [r]) (g.key r) = some c)
    (named : c.name = g.key r) : g.Gathers (rows ++ [r]) (Constraints.put cs c) where
  names := by
    rw [Constraints.map_name_put, List.map_append, List.map_singleton, eraseDups_concat, h.names, named]
    simp only [List.mem_eraseDups]
  found name := by
    rw [Constraints.find?_put, named]
    by_cases same : g.key r = name
    · rw [if_pos same, ← same, hc]
    · rw [if_neg same, h.found, described, described, group_concat_other same]

/-- If each row puts the description of its name, of all rows so far, in the place of the one before, then in the end
there is one for each name. -/
theorem foldlM_gathers {add : List Constraint → Row → Except Error (List Constraint)} {P : List Row → Prop}
    (front : ∀ rows r, P (rows ++ [r]) → P rows) (named : ∀ first rows, (g.gathered first rows).name = g.key first)
    (step : ∀ rows r cs ds, P (rows ++ [r]) → g.Gathers rows cs → (add cs r = .ok ds ↔
      g.Readable (g.group rows (g.key r)) r ∧ ds = Constraints.put cs
        (g.gathered ((g.group rows (g.key r)).head?.getD r) (g.group rows (g.key r) ++ [r])))) (hp : P rows) :
    ((∃ cs, rows.foldlM add [] = .ok cs) ↔ g.Legible rows) ∧ ∀ cs, rows.foldlM add [] = .ok cs → g.Gathers rows cs := by
  -- From the end, as what a row adds depends on all rows before it.
  induction rows using List.reverseRecOn with
  | nil =>
    refine ⟨⟨fun _ => legible_nil, fun _ => ⟨[], rfl⟩⟩, ?_⟩
    rintro _ ⟨⟩
    exact ⟨rfl, fun _ => rfl⟩
  | append_singleton rows r ih =>
    obtain ⟨reads, gathers⟩ := ih (front rows r hp)
    have split (ds : List Constraint) : (rows ++ [r]).foldlM add [] = .ok ds ↔
        ∃ cs, rows.foldlM add [] = .ok cs ∧ add cs r = .ok ds := by
      rw [List.foldlM_append, bind_eq_ok_iff]
      simp only [List.foldlM_cons, List.foldlM_nil, bind_pure]
    refine ⟨?_, fun ds h => ?_⟩
    · rw [legible_concat, ← reads]
      constructor
      · rintro ⟨ds, h⟩
        obtain ⟨cs, before, last⟩ := (split ds).mp h
        exact ⟨⟨cs, before⟩, ((step rows r cs ds hp (gathers cs before)).mp last).1⟩
      · rintro ⟨⟨cs, before⟩, readable⟩
        exact ⟨_, (split _).mpr ⟨cs, before, (step rows r cs _ hp (gathers cs before)).mpr ⟨readable, rfl⟩⟩⟩
    · obtain ⟨cs, before, last⟩ := (split ds).mp h
      obtain ⟨-, rfl⟩ := (step rows r cs ds hp (gathers cs before)).mp last
      exact (gathers cs before).put described_concat_self ((named _ _).trans (key_first rows r))

end Grouping

/-- The rows of indexes and of the constraints that they belong to. -/
def indexRows : Grouping := ⟨IndexRow.key, IndexRow.gathered, IndexRow.Readable⟩

/-- Rows that go by one name are of one kind. -/
def SameKinds (rows : List Row) : Prop :=
  ∀ r ∈ rows, ∀ q ∈ rows, IndexRow.key r = IndexRow.key q → IndexRow.kind r = IndexRow.kind q

instance (rows : List Row) : Decidable (SameKinds rows) :=
  inferInstanceAs (Decidable (∀ r ∈ rows, ∀ q ∈ rows, IndexRow.key r = IndexRow.key q → IndexRow.kind r = IndexRow.kind q))

theorem ofIndexRows_gathers {rows : List Row} (kinds : SameKinds rows) :
    ((∃ cs, Constraints.ofIndexRows rows = .ok cs) ↔ indexRows.Legible rows) ∧
      ∀ cs, Constraints.ofIndexRows rows = .ok cs → indexRows.Gathers rows cs := by
  refine Grouping.foldlM_gathers (P := SameKinds) ?_ (fun _ _ => rfl) ?_ kinds
  · exact fun rows r kinds q hq p hp => kinds q (List.mem_append_left _ hq) p (List.mem_append_left _ hp)
  · intro rows r cs ds kinds gathers
    have same : IndexRow.kind r = IndexRow.kind ((indexRows.group rows (indexRows.key r)).head?.getD r) := by
      cases first : (indexRows.group rows (indexRows.key r)).head? with
      | none => rfl
      | some q =>
        obtain ⟨member, named⟩ := List.mem_filter.mp (List.mem_of_mem_head? first)
        exact kinds r (by simp) q (List.mem_append_left _ member) (beq_iff_eq.mp named).symm
    have known : (Constraints.find? cs (IndexRow.key r)).getD (IndexRow.gathered r []) =
        IndexRow.gathered ((indexRows.group rows (indexRows.key r)).head?.getD r)
          (indexRows.group rows (indexRows.key r)) := gathers.known r
    rw [IndexRow.addRow_eq_ok_iff, known, IndexRow.gathered_concat same, ← IndexRow.readable_iff same]
    rfl

/-! Rows of checks in groups -/

def checkRows : Grouping := ⟨CheckRow.key, CheckRow.gathered, CheckRow.Readable⟩

/-- A name that comes again comes next. -/
def Adjacent : List String → Prop
  | [] => True
  | name :: names => (name ∈ names → names.head? = some name) ∧ Adjacent names

instance decidableAdjacent : (names : List String) → Decidable (Adjacent names)
  | [] => inferInstanceAs (Decidable True)
  | name :: names =>
    have := decidableAdjacent names
    inferInstanceAs (Decidable ((name ∈ names → names.head? = some name) ∧ Adjacent names))

theorem Adjacent.of_concat {names : List String} {name : String} (h : Adjacent (names ++ [name])) :
    Adjacent names ∧ (name ∈ names → names.getLast? = some name) := by
  induction names with
  | nil => exact ⟨trivial, fun known => absurd known List.not_mem_nil⟩
  | cons n names ih =>
    obtain ⟨next, rest⟩ : (n ∈ names ++ [name] → (names ++ [name]).head? = some n) ∧ Adjacent (names ++ [name]) := h
    obtain ⟨adjacent, last⟩ := ih rest
    constructor
    · refine ⟨fun again => ?_, adjacent⟩
      have head := next (List.mem_append_left _ again)
      rwa [List.head?_append_of_ne_nil _ (List.ne_nil_of_mem again)] at head
    · intro known
      rcases List.mem_cons.mp known with rfl | later
      · cases names with
        | nil => rfl
        | cons m names =>
          obtain rfl : m = name := Option.some.inj (next (by simp))
          exact last List.mem_cons_self
      · rw [List.getLast?_cons_of_ne_nil (List.ne_nil_of_mem later)]
        exact last later

theorem getLast?_eraseDups {names : List String} (h : Adjacent names) : names.eraseDups.getLast? = names.getLast? := by
  induction names using List.reverseRecOn with
  | nil => rfl
  | append_singleton names name ih =>
    obtain ⟨adjacent, next⟩ := h.of_concat
    rw [eraseDups_concat, List.getLast?_concat]
    split
    · next known => rw [ih adjacent, next known]
    · exact List.getLast?_concat

theorem mem_group_key {g : Grouping} {rows : List Row} {r : Row} :
    g.group rows (g.key r) ≠ [] ↔ g.key r ∈ rows.map g.key := by
  rw [Grouping.group, Ne, List.filter_eq_nil_iff, List.mem_map]
  simp

/-- Where the names stand together, the check of a row that has rows before is the one that came last. -/
theorem addCheckRow_eq_ok_iff {rows : List Row} {r : Row} {cs ds : List Constraint} (gathers : checkRows.Gathers rows cs)
    (adjacent : Adjacent (rows.map CheckRow.key))
    (next : CheckRow.key r ∈ rows.map CheckRow.key → (rows.map CheckRow.key).getLast? = some (CheckRow.key r)) :
    Constraints.addCheckRow cs r = .ok ds ↔
      CheckRow.Readable (checkRows.group rows (checkRows.key r)) r ∧ ds = Constraints.put cs
        (CheckRow.gathered ((checkRows.group rows (checkRows.key r)).head?.getD r)
          (checkRows.group rows (checkRows.key r) ++ [r])) := by
  have nodup : (cs.map (·.name)).Nodup := gathers.names ▸ nodup_eraseDups _
  by_cases known : CheckRow.key r ∈ rows.map CheckRow.key
  · have lastName : (cs.map (·.name)).getLast? = some (CheckRow.key r) := by
      rw [gathers.names]
      exact (getLast?_eraseDups adjacent).trans (next known)
    -- So the last check is the one of the row, and it is not among the others.
    rcases List.eq_nil_or_concat cs with rfl | ⟨others, last, rfl⟩
    · cases lastName
    · rw [List.concat_eq_append] at gathers nodup lastName ⊢
      have same : last.name = CheckRow.key r := by simpa using lastName
      have fresh : last.name ∉ others.map (·.name) := by
        rw [List.map_append, List.nodup_append] at nodup
        exact fun h => nodup.2.2 _ h last.name (by simp) rfl
      have hit : Constraints.find? (others ++ [last]) (CheckRow.key r) = some last := same ▸ StoredIndex.find?_append fresh
      have said : last = CheckRow.gathered ((checkRows.group rows (checkRows.key r)).head?.getD r)
          (checkRows.group rows (checkRows.key r)) := by
        have found := gathers.known r
        rwa [show Constraints.find? (others ++ [last]) (checkRows.key r) = some last from hit] at found
      have named : (CheckRow.gathered ((checkRows.group rows (checkRows.key r)).head?.getD r)
          (checkRows.group rows (checkRows.key r) ++ [r])).name = last.name :=
        (Grouping.key_first (g := checkRows) rows r).trans same.symm
      rw [CheckRow.addCheckRow_next same, StoredIndex.put_append fresh named, ← CheckRow.gathered_concat, ← said]
      refine and_congr_left fun _ => ?_
      constructor
      · rintro ⟨name, column⟩
        exact ⟨name, fun none => absurd none (mem_group_key.mpr known), column⟩
      · exact fun h => ⟨h.name, h.column⟩
  · have none : checkRows.group rows (checkRows.key r) = [] := not_not.mp fun h => known (mem_group_key.mp h)
    have fresh : CheckRow.key r ∉ cs.map (·.name) := by
      rw [gathers.names]
      exact fun h => known (List.mem_eraseDups.mp h)
    have other : ∀ last ∈ cs.getLast?, last.name ≠ CheckRow.key r := fun last hl same =>
      fresh (List.mem_map.mpr ⟨last, List.mem_of_getLast? hl, same⟩)
    rw [CheckRow.addCheckRow_first other, none, CheckRow.gathered_concat]
    refine and_congr ?_ ?_
    · constructor
      · exact fun ⟨name, source, column⟩ => ⟨name, fun _ => source, column⟩
      · exact fun h => ⟨h.name, h.source rfl, h.column⟩
    · have put : Constraints.put cs (CheckRow.gathered r ([] ++ [r])) = _ := StoredIndex.put_of_notMem fresh
      rw [← put]
      rfl

theorem ofCheckRows_gathers {rows : List Row} (adjacent : Adjacent (rows.map CheckRow.key)) :
    ((∃ cs, Constraints.ofCheckRows rows = .ok cs) ↔ checkRows.Legible rows) ∧
      ∀ cs, Constraints.ofCheckRows rows = .ok cs → checkRows.Gathers rows cs := by
  refine Grouping.foldlM_gathers (P := fun rows => Adjacent (rows.map CheckRow.key)) ?_ (fun _ _ => rfl) ?_ adjacent
  · intro rows r h
    rw [List.map_append] at h
    exact h.of_concat.1
  · intro rows r cs ds h gathers
    rw [List.map_append] at h
    obtain ⟨adjacent, next⟩ := h.of_concat
    exact addCheckRow_eq_ok_iff gathers adjacent next

/-! All constraints of a table -/

namespace Constraints

variable {cs ds : List Constraint} {name : String}

theorem find?_foldl_put (nodup : (ds.map (·.name)).Nodup) (cs : List Constraint) (name : String) :
    find? (ds.foldl put cs) name = (find? ds name).or (find? cs name) := by
  induction ds generalizing cs with
  | nil => rfl
  | cons d ds ih =>
    obtain ⟨fresh, nodup⟩ : d.name ∉ ds.map (·.name) ∧ (ds.map (·.name)).Nodup := List.nodup_cons.mp nodup
    rw [List.foldl_cons, ih nodup, find?_put]
    by_cases same : d.name = name
    · have none : find? ds name = none := StoredIndex.find?_of_notMem (same ▸ fresh)
      rw [if_pos same, none]
      simp [find?, same]
    · rw [if_neg same]
      simp [find?, same]

theorem nodup_foldl_put (nodup : (cs.map (·.name)).Nodup) (ds : List Constraint) :
    ((ds.foldl put cs).map (·.name)).Nodup := by
  induction ds generalizing cs with
  | nil => exact nodup
  | cons d ds ih =>
    refine ih ?_
    rw [map_name_put]
    split
    · exact nodup
    · next fresh =>
      rw [← List.concat_eq_append]
      exact nodup.concat fresh

theorem find?_eq_some_iff {c : Constraint} (nodup : (cs.map (·.name)).Nodup) :
    find? cs name = some c ↔ c ∈ cs ∧ c.name = name := by
  have sound {d : Constraint} {other : String} (h : find? cs other = some d) : d ∈ cs ∧ d.name = other := by
    rw [find?, List.find?_eq_some_iff_append] at h
    obtain ⟨same, before, after, split, -⟩ := h
    exact ⟨by simp [split], beq_iff_eq.mp same⟩
  constructor
  · exact sound
  · rintro ⟨member, rfl⟩
    cases found : find? cs c.name with
    | none => exact absurd (beq_self_eq_true _) (List.find?_eq_none.mp found c member)
    | some d => rw [List.inj_on_of_nodup_map nodup (sound found).1 member (sound found).2]

theorem find?_perm (perm : cs.Perm ds) (nodup : (cs.map (·.name)).Nodup) (name : String) : find? cs name = find? ds name := by
  refine Option.ext fun c => ?_
  rw [find?_eq_some_iff nodup, find?_eq_some_iff ((perm.map _).nodup_iff.mp nodup), perm.mem_iff]

theorem find?_merge (nodup : (cs.map (·.name)).Nodup) (nodup' : (ds.map (·.name)).Nodup) (name : String) :
    find? (merge cs ds) name = (find? ds name).or (find? cs name) := by
  have perm : (merge cs ds).Perm (ds.foldl put cs) := List.mergeSort_perm ..
  have distinct := (perm.map (·.name)).nodup_iff.mpr (nodup_foldl_put nodup ds)
  rw [find?_perm perm distinct, find?_foldl_put nodup']

theorem isSome_find? : (find? cs name).isSome ↔ name ∈ cs.map (·.name) := by
  rw [find?, List.find?_isSome, List.mem_map]
  simp

/-- The constraints come in order of their names, each name once. -/
theorem merge_sorted (nodup : (cs.map (·.name)).Nodup) (ds : List Constraint) :
    ((merge cs ds).map (·.name)).Pairwise (· < ·) := by
  have perm : (merge cs ds).Perm (ds.foldl put cs) := List.mergeSort_perm ..
  have distinct : ((merge cs ds).map (·.name)).Nodup := (perm.map (·.name)).nodup_iff.mpr (nodup_foldl_put nodup ds)
  have sorted : (merge cs ds).Pairwise fun a b => (!decide (b.name < a.name)) = true := by
    refine List.pairwise_mergeSort (fun a b c hab hbc => ?_) (fun a b => ?_) _
    · simp only [Bool.not_eq_true', decide_eq_false_iff_not, String.not_lt] at *
      exact String.le_trans hab hbc
    · simp only [Bool.or_eq_true, Bool.not_eq_true', decide_eq_false_iff_not, String.not_lt]
      exact String.le_total ..
  rw [List.pairwise_map]
  refine (sorted.and (List.pairwise_map.mp distinct)).imp fun {a b} h => ?_
  have least := h.1
  rw [Bool.not_eq_true', decide_eq_false_iff_not, String.not_lt] at least
  exact Decidable.byContradiction fun most => h.2 (String.le_antisymm least (String.not_lt.mp most))

end Constraints

/-- The constraints of a table that is not remembered. They can be read just if all that is to be read of the rows can
be. There is one for each name in order of the names: a check as its rows say, anything else as the rows say that go by
the name. They are remembered. -/
theorem constraints_grouped (c : Cursor σ) (e : Engine) (table : String) {b : Cached σ}
    (unknown : b.cache.constraints? table = none) {rows checks : List Row} {t u : σ}
    (asked : ask c (.indexes (Identifier.catalogName e table)) b.link = (.ok rows, t))
    (asked' : ask c (.checks (Identifier.catalogName e table)) t = (.ok checks, u))
    (kinds : SameKinds rows) (adjacent : Adjacent (checks.map CheckRow.key)) :
    ((∃ cs b', Cached.constraints c e table b = (.ok cs, b')) ↔ indexRows.Legible rows ∧ checkRows.Legible checks) ∧
    ∀ cs b', Cached.constraints c e table b = (.ok cs, b') →
      b' = ⟨u, b.cache.putConstraints table cs⟩ ∧ (cs.map (·.name)).Pairwise (· < ·) ∧
      (∀ name, name ∈ cs.map (·.name) ↔ name ∈ rows.map IndexRow.key ∨ name ∈ checks.map CheckRow.key) ∧
      ∀ name, Constraints.find? cs name = (checkRows.described checks name).or (indexRows.described rows name) := by
  obtain ⟨reads, gathers⟩ := ofIndexRows_gathers kinds
  obtain ⟨reads', gathers'⟩ := ofCheckRows_gathers adjacent
  have run (cs : List Constraint) (b' : Cached σ) : Cached.constraints c e table b = (.ok cs, b') ↔
      ∃ found more, Constraints.ofIndexRows rows = .ok found ∧ Constraints.ofCheckRows checks = .ok more ∧
        cs = Constraints.merge found more ∧ b' = ⟨u, b.cache.putConstraints table cs⟩ := by
    rw [Cached.constraints_miss _ _ _ _ unknown, readConstraints, Action.bind_of_ok asked, Action.bind_apply,
      Action.lift_apply]
    cases Constraints.ofIndexRows rows with
    | error error => simp
    | ok found =>
      dsimp only
      rw [Action.bind_of_ok asked', Action.bind_apply, Action.lift_apply]
      cases Constraints.ofCheckRows checks with
      | error error => simp
      | ok more =>
        constructor
        · intro h
          obtain ⟨hr, rfl⟩ := Prod.mk.inj h
          obtain rfl := Except.ok.inj hr
          exact ⟨found, more, rfl, rfl, rfl, rfl⟩
        · rintro ⟨_, _, ⟨⟩, ⟨⟩, rfl, rfl⟩
          rfl
  refine ⟨?_, fun cs b' h => ?_⟩
  · rw [← reads, ← reads']
    constructor
    · rintro ⟨cs, b', h⟩
      obtain ⟨found, more, hf, hm, -, -⟩ := (run cs b').mp h
      exact ⟨⟨found, hf⟩, more, hm⟩
    · rintro ⟨⟨found, hf⟩, more, hm⟩
      exact ⟨_, _, (run _ _).mpr ⟨found, more, hf, hm, rfl, rfl⟩⟩
  · obtain ⟨found, more, hf, hm, rfl, rfl⟩ := (run cs b').mp h
    have gathered := gathers found hf
    have gathered' := gathers' more hm
    have nodup : (found.map (·.name)).Nodup := gathered.names ▸ nodup_eraseDups _
    have nodup' : (more.map (·.name)).Nodup := gathered'.names ▸ nodup_eraseDups _
    have merged := Constraints.find?_merge nodup nodup'
    refine ⟨rfl, Constraints.merge_sorted nodup more, fun name => ?_, fun name => ?_⟩
    · rw [← Constraints.isSome_find?, merged, Option.isSome_or, Bool.or_eq_true, Constraints.isSome_find?,
        Constraints.isSome_find?, gathered.names, gathered'.names, List.mem_eraseDups, List.mem_eraseDups]
      exact or_comm
    · rw [merged, gathered.found, gathered'.found]

namespace Sample

def server : Engine := ⟨⟨3, 0, 0, 0⟩⟩

/-- A key of two columns, around a foreign key and an index of an expression. -/
def keyRows : List Row :=
  [⟨[.text "BOOK_KEY  ", .text "UNIQUE", .text "BOOK_KEY", .text "TITLE", .int 1, .null, .null, .null, .null]⟩,
    ⟨[.text "BOOK_WRITER", .text "FOREIGN KEY", .text "RDB$FOREIGN2", .text "WRITER", .null, .int 1, .null, .null, .null]⟩,
    ⟨[.text "BOOK_KEY", .text "UNIQUE", .text "BOOK_KEY", .text "EDITION", .int 1, .int 1, .null, .null, .null]⟩,
    ⟨[.null, .null, .text "BOOK_HASH", .null, .int 0, .null, .null, .null, .text "HASH(\"TITLE\")"]⟩,
    ⟨[.text "BOOK_KEY", .text "UNIQUE", .text "BOOK_KEY", .text "TITLE", .int 1, .int 1, .null, .null, .null]⟩,
    ⟨[.text "BOOK_WRITER", .text "FOREIGN KEY", .text "RDB$FOREIGN2", .text "WRITER", .null, .int 1, .text "PERSON",
      .text "ID", .null]⟩]

def checkedRows : List Row :=
  [⟨[.text "BOOK_PAGES", .text "CHECK (\"PAGES\" > 0)", .text "PAGES"]⟩, ⟨[.text "BOOK_PAGES", .text "", .text "PAGES"]⟩]

def reply : CatalogQuery → List Row
  | .indexes _ => keyRows
  | .checks _ => checkedRows
  | _ => []

end Sample

open Sample in
theorem constraints_grouped_books : ∃ cs b',
    Cached.constraints (clerk reply) server "book" ⟨[], .empty⟩ = (.ok cs, b') ∧
      (Constraints.find? cs "book_key").map (fun c => (c.columns, c.orders)) =
        some (["title", "edition"], [.ascending, .descending]) ∧
      (Constraints.find? cs "book_writer").map (fun c => (c.columns, c.referencedTable, c.referencedColumn)) =
        some (["writer"], some "person", some "id") ∧
      (Constraints.find? cs "book_pages").map (fun c => (c.kind, c.columns, c.checkSource)) =
        some (.check, ["pages"], some "CHECK (\"PAGES\" > 0)") := by
  have kinds : SameKinds keyRows := by decide +kernel
  have adjacent : Adjacent (checkedRows.map CheckRow.key) := by decide +kernel
  have asked (q : CatalogQuery) (s : List Row) : ask (clerk reply) q s = (.ok (reply q), reply q) := rfl
  obtain ⟨-, grouped⟩ := constraints_grouped (clerk reply) server "book" (b := ⟨[], .empty⟩) rfl
    (asked (.indexes _) []) (asked (.checks _) keyRows) kinds adjacent
  cases read : Cached.constraints (clerk reply) server "book" ⟨[], .empty⟩ with
  | mk r b' =>
    cases r with
    | error error =>
      have failed : (Cached.constraints (clerk reply) server "book" ⟨[], .empty⟩).1.isOk = true := by decide +kernel
      rw [read] at failed
      cases failed
    | ok cs =>
      obtain ⟨-, -, -, found⟩ := grouped cs b' read
      exact ⟨cs, b', rfl, by rw [found]; decide +kernel, by rw [found]; decide +kernel, by rw [found]; decide +kernel⟩

end Catalog

end FirebirdSql
