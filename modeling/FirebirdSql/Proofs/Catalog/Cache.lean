import FirebirdSql.Catalog.Reader

/-!
What the cache answers after it was told something, and how descriptions are read through it.
-/

namespace FirebirdSql.Catalog

theorem lookup_filter {β : Type} (p : String → Bool) (k : String) (entries : List (String × β)) :
    (entries.filter fun entry => p entry.1).lookup k = if p k then entries.lookup k else none := by
  induction entries with
  | nil => simp
  | cons entry entries ih =>
    obtain ⟨name, value⟩ := entry
    by_cases hk : k = name
    · subst hk
      cases hp : p k with
      | true => simp [hp]
      | false => simpa [hp] using ih
    · have hne : (k == name) = false := by simpa using hk
      cases hp : p name with
      | true => simp [hp, List.lookup_cons, hne, ih]
      | false => simp [hp, List.lookup_cons, hne, ih]

namespace Cache

variable (c : Cache) (table other : String)

theorem columns?_invalidate :
    (c.invalidate table).columns? other = if key other = key table then none else c.columns? other := by
  have h := lookup_filter (· != key table) (key other) c.columns
  simp only [bne_iff_ne, ne_eq, ite_not] at h
  exact h

theorem constraints?_invalidate :
    (c.invalidate table).constraints? other = if key other = key table then none else c.constraints? other := by
  have h := lookup_filter (· != key table) (key other) c.constraints
  simp only [bne_iff_ne, ne_eq, ite_not] at h
  exact h

theorem columns?_putColumns (columns : List Column) :
    (c.putColumns table columns).columns? other =
      if key other = key table then some columns else c.columns? other := by
  rw [columns?, putColumns, List.lookup_cons]
  by_cases h : key other = key table
  · simp [h]
  · rw [if_neg h, beq_false_of_ne h]
    rfl

theorem constraints?_putConstraints (constraints : List Constraint) :
    (c.putConstraints table constraints).constraints? other =
      if key other = key table then some constraints else c.constraints? other := by
  rw [constraints?, putConstraints, List.lookup_cons]
  by_cases h : key other = key table
  · simp [h]
  · rw [if_neg h, beq_false_of_ne h]
    rfl

end Cache

namespace Cached

variable (c : Cursor σ) (e : Engine) (table : String) (b : Cached σ)

/-- What the cache has is given out; nothing is asked. -/
theorem columns_hit {columns : List Column} (h : b.cache.columns? table = some columns) :
    Cached.columns c e table b = (.ok columns, b) := by
  simp [Cached.columns, Action.bind_apply, h]

theorem columns_miss (h : b.cache.columns? table = none) :
    Cached.columns c e table b = match readColumns c e table b.link with
      | (.ok columns, link) => (.ok columns, ⟨link, b.cache.putColumns table columns⟩)
      | (.error error, link) => (.error error, ⟨link, b.cache⟩) := by
  simp only [Cached.columns, Action.bind_apply, Action.get_apply, h, Cached.onLink, Action.within_apply]
  obtain ⟨r, link⟩ := readColumns c e table b.link
  cases r <;> rfl

theorem constraints_hit {constraints : List Constraint} (h : b.cache.constraints? table = some constraints) :
    Cached.constraints c e table b = (.ok constraints, b) := by
  simp [Cached.constraints, Action.bind_apply, h]

theorem constraints_miss (h : b.cache.constraints? table = none) :
    Cached.constraints c e table b = match readConstraints c e table b.link with
      | (.ok constraints, link) => (.ok constraints, ⟨link, b.cache.putConstraints table constraints⟩)
      | (.error error, link) => (.error error, ⟨link, b.cache⟩) := by
  simp only [Cached.constraints, Action.bind_apply, Action.get_apply, h, Cached.onLink, Action.within_apply]
  obtain ⟨r, link⟩ := readConstraints c e table b.link
  cases r <;> rfl

end Cached

end FirebirdSql.Catalog
