import FirebirdSql.Proofs.Index.Reading
import Mathlib.Data.List.Nodup

/-!
How statements change a store: the store stays a proper one, and what is over a column changes only where the statement
is about that column.
-/

namespace FirebirdSql.Store

open Identifier (Canonical)

/-- The shapes of the indexes over just one column. -/
def onColumn (st : Store) (column : String) : List IndexShape :=
  (st.indexes.filter (·.columns = [column])).map (·.shape)

variable {e : Engine} {st st' : Store} {i : StoredIndex} {column : String}

theorem insert_eq_some_iff : st.insert i = some st' ↔
    (i.name ∉ st.indexes.map (·.name) ∧ (i.columns ≠ [] ∧ i.columns.Nodup ∧ ∀ c ∈ i.columns, c ∈ st.columns) ∧
      (i.shape = .primary → ∀ j ∈ st.indexes, j.shape ≠ .primary)) ∧
    { st with indexes := st.indexes ++ [i] } = st' := by
  unfold insert
  split
  · next h => exact ⟨fun he => ⟨h, Option.some.inj he⟩, fun he => congrArg some he.2⟩
  · next h => exact ⟨fun he => absurd he (by simp), fun he => absurd he.1 h⟩

theorem insert_columns (h : st.insert i = some st') : st'.columns = st.columns := by
  obtain ⟨-, rfl⟩ := insert_eq_some_iff.mp h
  rfl

theorem Proper.insert (hp : st.Proper e) (hn : Canonical e i.name) (h : st.insert i = some st') : st'.Proper e := by
  obtain ⟨⟨hname, ⟨hne, hnodup, hcovered⟩, hprimary⟩, rfl⟩ := insert_eq_some_iff.mp h
  have hi : i.Proper e := ⟨hn, fun c hc => hp.columns c (hcovered c hc), hne, hnodup⟩
  refine ⟨?_, hp.columns, ?_, ?_, ?_⟩
  · intro j hj
    rcases List.mem_append.mp hj with hj | hj
    · exact hp.indexes j hj
    · obtain rfl := List.mem_singleton.mp hj
      exact hi
  · rw [List.map_append, List.nodup_append]
    refine ⟨hp.names, by simp, ?_⟩
    intro a ha b hb hab
    obtain rfl := List.mem_singleton.mp hb
    subst hab
    exact hname ha
  · intro j hj
    rcases List.mem_append.mp hj with hj | hj
    · exact hp.covered j hj
    · obtain rfl := List.mem_singleton.mp hj
      exact hcovered
  · rw [List.filter_append, List.length_append]
    by_cases hs : i.shape = .primary
    · have none : st.indexes.filter (·.shape = .primary) = [] := by
        rw [List.filter_eq_nil_iff]
        intro j hj
        simpa using hprimary hs j hj
      simp [none, hs]
    · simpa [hs] using hp.primary

theorem onColumn_insert (h : st.insert i = some st') :
    st'.onColumn column = st.onColumn column ++ if i.columns = [column] then [i.shape] else [] := by
  obtain ⟨-, rfl⟩ := insert_eq_some_iff.mp h
  by_cases hc : i.columns = [column] <;> simp [onColumn, List.filter_append, hc]

theorem Proper.filter (hp : st.Proper e) (p : StoredIndex → Bool) :
    Proper e { st with indexes := st.indexes.filter p } where
  indexes i hi := hp.indexes i (List.mem_filter.mp hi).1
  columns := hp.columns
  names := hp.names.sublist (List.filter_sublist.map _)
  covered i hi := hp.covered i (List.mem_filter.mp hi).1
  primary := by
    rw [List.filter_filter]
    simp only [Bool.and_comm]
    rw [← List.filter_filter]
    exact Nat.le_trans (List.length_filter_le _ _) hp.primary

theorem Proper.addColumn (hp : st.Proper e) (hc : Canonical e column) :
    Proper e { st with columns := st.columns ++ [column] } where
  indexes := hp.indexes
  columns c hm := by
    rcases List.mem_append.mp hm with hm | hm
    · exact hp.columns c hm
    · obtain rfl := List.mem_singleton.mp hm
      exact hc
  names := hp.names
  covered i hi c hm := List.mem_append_left _ (hp.covered i hi c hm)
  primary := hp.primary

theorem Proper.dropColumn (hp : st.Proper e) (column : String) : (st.dropColumn column).Proper e := by
  have rest := hp.filter fun i => column ∉ i.columns
  refine ⟨rest.indexes, fun c hm => hp.columns c (List.mem_filter.mp hm).1, rest.names, ?_, rest.primary⟩
  intro i hi c hm
  have hi := List.mem_filter.mp hi
  refine List.mem_filter.mpr ⟨hp.covered i hi.1 c hm, ?_⟩
  simp only [decide_not, Bool.not_eq_eq_eq_not, Bool.not_true, decide_eq_false_iff_not]
  rintro rfl
  simp [hm] at hi

theorem rename_injective {old new a b : String} (ha : a ≠ new) (hb : b ≠ new) (h : rename old new a = rename old new b) :
    a = b := by
  unfold rename at h
  split at h <;> split at h <;> simp_all

theorem Proper.renameColumn {old new : String} (hp : st.Proper e) (hn : Canonical e new) (hnew : new ∉ st.columns) :
    (st.renameColumn old new).Proper e := by
  have canonical {c : String} (hc : c ∈ st.columns) : Canonical e (rename old new c) := by
    unfold rename
    split
    · exact hn
    · exact hp.columns c hc
  refine ⟨?_, ?_, ?_, ?_, ?_⟩
  · intro i hi
    obtain ⟨j, hj, rfl⟩ := List.mem_map.mp hi
    have proper := hp.indexes j hj
    refine ⟨proper.name, ?_, by simpa using proper.nonempty, ?_⟩
    · intro c hc
      obtain ⟨d, hd, rfl⟩ := List.mem_map.mp hc
      exact canonical (hp.covered j hj d hd)
    · refine List.Nodup.map_on (fun a ha b hb hab => ?_) proper.nodup
      refine rename_injective (fun h => hnew ?_) (fun h => hnew ?_) hab
      · exact h ▸ hp.covered j hj a ha
      · exact h ▸ hp.covered j hj b hb
  · intro c hc
    obtain ⟨d, hd, rfl⟩ := List.mem_map.mp hc
    exact canonical hd
  · simpa [Store.renameColumn, Function.comp_def] using hp.names
  · intro i hi c hc
    obtain ⟨j, hj, rfl⟩ := List.mem_map.mp hi
    obtain ⟨d, hd, rfl⟩ := List.mem_map.mp hc
    exact List.mem_map_of_mem (hp.covered j hj d hd)
  · simpa [Store.renameColumn, List.filter_map, Function.comp_def] using hp.primary

theorem onColumn_renameColumn {old new : String} (hp : st.Proper e) (hnew : new ∉ st.columns) :
    (st.renameColumn old new).onColumn new = st.onColumn old := by
  have same : ∀ i ∈ st.indexes, i.columns.map (rename old new) = [new] ↔ i.columns = [old] := by
    intro i hi
    constructor
    · intro h
      obtain ⟨c, hc, hr⟩ := List.map_eq_singleton_iff.mp h
      have hcn : c ≠ new := fun h => hnew (h ▸ hp.covered i hi c (by simp [hc]))
      unfold rename at hr
      split at hr
      · next ho => rw [hc, ho]
      · exact absurd hr hcn
    · intro h
      simp [h, rename]
  have filtered : st.indexes.filter (fun i => i.columns.map (rename old new) = [new]) =
      st.indexes.filter (·.columns = [old]) :=
    List.filter_congr fun i hi => by simp [same i hi]
  simp only [onColumn, Store.renameColumn, List.filter_map, List.map_map, Function.comp_def, filtered]

end FirebirdSql.Store
