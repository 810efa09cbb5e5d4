import FirebirdSql.Proofs.Shadow.Reading
import FirebirdSql.Proofs.Shadow.Resting

/-!
Making constraints again, one after the other. What is still in force cannot be made again, and all else is, keys
before the foreign keys that reference them.
-/

namespace FirebirdSql.Shadow

open Action (Triple)
open Server (Calm)

variable {u : Usage} {start db : Database} {d k : Declared}

/-! A rule that restricts has two spellings, of which the engine chooses one for a key that is declared without. -/

def Rule.renewed (u : Usage) (r : Rule) : Rule := if r = .restrict ∨ r = .noAction then u.rule else r

def Declaration.renewed (u : Usage) : Declaration → Declaration
  | .foreign columns key onUpdate onDelete => .foreign columns key (onUpdate.renewed u) (onDelete.renewed u)
  | declaration => declaration

def Declared.renewed (u : Usage) (d : Declared) : Declared := { d with declaration := d.declaration.renewed u }

theorem Rule.renewed_renewed (r : Rule) : (r.renewed u).renewed u = r.renewed u := by
  unfold Rule.renewed
  split
  · rw [if_pos u.rule_eq]
  · rfl

theorem Declaration.renewed_renewed (d : Declaration) : (d.renewed u).renewed u = d.renewed u := by
  cases d with
  | foreign columns key onUpdate onDelete =>
    rw [Declaration.renewed, Declaration.renewed, Rule.renewed_renewed, Rule.renewed_renewed]
  | primary | unique | check => rfl

namespace Declared

theorem renewed_renewed : (d.renewed u).renewed u = d.renewed u :=
  congrArg (fun declaration => { d with declaration := declaration }) d.declaration.renewed_renewed

theorem isKey_renewed : (d.renewed u).declaration.isKey = d.declaration.isKey := by
  obtain ⟨name, relation, declaration⟩ := d
  cases declaration <;> rfl

theorem renewed_of_isKey (h : d.declaration.isKey = true) : d.renewed u = d := by
  obtain ⟨name, relation, declaration⟩ := d
  cases declaration with
  | foreign => cases h
  | primary | unique | check => rfl

end Declared

/-- The default stands for both spellings, and all other rules are read back. -/
theorem rule?_text (r : Rule) : Database.rule? u (explicitRule? r.text) = some (r.renewed u) := by
  cases r <;> rfl

/-! What is declared again -/

/-- The constraint that was put aside declares what it did before, given the key that it references. -/
def Declares (u : Usage) (db : Database) (d : Declared) (referenced : Option Key) : Prop :=
  ∃ definition, (d.toConstraint u).definition referenced = .ok definition ∧
    db.declaration? u definition = some (d.declaration.renewed u)

theorem map_stored_identifiers (names : List String) : (Constraint.identifiers names).map (·.stored) = names := by
  have stored : (fun i : Identifier => i.stored) ∘ Identifier.ofStored = id := funext Identifier.stored_ofStored
  rw [Constraint.identifiers, List.map_map, stored, List.map_id]

theorem declares_unique {columns : List String} {referenced : Option Key} (hd : d.declaration = .unique columns)
    (hc : columns ≠ []) : Declares u db d referenced := by
  refine ⟨.unique (Constraint.identifiers columns), ?_, ?_⟩
  · have kind : (d.toConstraint u).kind = .unique := by rw [Declared.toConstraint, hd]; rfl
    have own : (d.toConstraint u).columns = columns := by rw [Declared.toConstraint, hd]; rfl
    simp only [Constraint.definition, kind, own]
    exact if_neg (by simpa using hc)
  · rw [Database.declaration?, map_stored_identifiers, hd]
    rfl

theorem declares_check {source : String} {referenced : Option Key} (hd : d.declaration = .check source)
    (trimmed : Text.trimmed source = source)
    (clause : Text.sameAsciiLetters (source.toList.take 5) "CHECK".toList = true) : Declares u db d referenced := by
  have chars : Text.trim source.toList = source.toList := by
    have same := congrArg String.toList trimmed
    rwa [Text.trimmed, String.toList_ofList] at same
  refine ⟨.check source, ?_, ?_⟩
  · have kind : (d.toConstraint u).kind = .check := by rw [Declared.toConstraint, hd]; rfl
    have own : (d.toConstraint u).source = some source := by rw [Declared.toConstraint, hd]; rfl
    have some_char : source.toList.isEmpty = false := by
      cases h : source.toList with
      | nil =>
        rw [h] at clause
        exact absurd clause (by decide)
      | cons => rfl
    simp only [Constraint.definition, kind, own, Option.getD_some, chars, some_char]
    rw [Constraint.checkClause, if_pos clause, String.ofList_toList]
    rfl
  · rw [hd]
    rfl

theorem declares_foreign {columns : List String} {name : String} {onUpdate onDelete : Rule}
    (hd : d.declaration = .foreign columns name onUpdate onDelete)
    (hk : db.keyOver? k.relation k.declaration.columns = some k) (hn : k.name = name)
    (hl : k.declaration.columns.length = columns.length) :
    Declares u db d (some ⟨k.relation, k.declaration.columns⟩) := by
  refine ⟨.foreignKey (Constraint.identifiers columns) (.ofStored k.relation)
    (Constraint.identifiers k.declaration.columns) (explicitRule? onUpdate.text) (explicitRule? onDelete.text), ?_, ?_⟩
  · have kind : (d.toConstraint u).kind = .foreignKey := by rw [Declared.toConstraint, hd]; rfl
    have own : (d.toConstraint u).columns = columns := by rw [Declared.toConstraint, hd]; rfl
    have update : (d.toConstraint u).updateRule = some onUpdate.text := by rw [Declared.toConstraint, hd]; rfl
    have delete : (d.toConstraint u).deleteRule = some onDelete.text := by rw [Declared.toConstraint, hd]; rfl
    rw [Constraint.definition, kind, own, update, delete]
    exact if_pos hl
  · have lengths : (Constraint.identifiers columns).length = (Constraint.identifiers k.declaration.columns).length := by
      rw [Constraint.identifiers, Constraint.identifiers, List.length_map, List.length_map, hl]
    rw [Database.declaration?, if_pos lengths, map_stored_identifiers, map_stored_identifiers,
      Identifier.stored_ofStored, hk, rule?_text, rule?_text, hd, ← hn]
    rfl

/-! One constraint -/

theorem Database.names_declare : (db.declare d).names = db.names ++ [d.name] := List.map_append

theorem exec_add {definition : ConstraintDefinition} (hn : d.name ∉ db.names)
    (hd : db.declaration? u definition = some (d.declaration.renewed u))
    (fresh : d.declaration.isKey = true → db.keyOver? d.relation d.declaration.columns = none) :
    db.exec u (.addConstraint (.ofStored d.relation) (.ofStored d.name) definition) =
      some (db.declare (d.renewed u)) := by
  have single : ((d.renewed u).declaration.isKey &&
      (db.keyOver? d.relation (d.renewed u).declaration.columns).isSome) = false := by
    cases key : d.declaration.isKey with
    | true =>
      rw [Declared.renewed_of_isKey key, fresh key]
      exact Bool.and_false _
    | false =>
      rw [Declared.isKey_renewed, key]
      rfl
  rw [Database.exec, Identifier.stored_ofStored, Identifier.stored_ofStored, if_neg hn, hd]
  exact if_neg (Bool.eq_false_iff.mp single)

theorem exec_taken {relation : Identifier} {definition : ConstraintDefinition} (hn : d.name ∈ db.names) :
    db.exec u (.addConstraint relation (.ofStored d.name) definition) = none := by
  rw [Database.exec, Identifier.stored_ofStored, if_pos hn]

/-- On the way back: all that is in force was so at the start, in one spelling or the other, and all that was so then
is in force again or still to come. -/
structure Underway (u : Usage) (start : Database) (rest : List Declared) (db : Database) : Prop where
  origin : ∀ c ∈ db.declared, ∃ o ∈ start.declared, c = o ∨ c = o.renewed u
  names : db.names.Nodup
  covered : ∀ o ∈ start.declared, o.name ∈ db.names ∨ o ∈ rest
  user : ∀ d ∈ rest, d ∈ start.user
  ordered : rest.Pairwise fun a b => restoreRank a.declaration.kind ≤ restoreRank b.declaration.kind
  asides : db.asides.isSome = true
  segments : db.segments.isSome = true

namespace Underway

variable {rest : List Declared}

/-- A key that is in force is the one that was so at the start. -/
theorem mem_of_name (h : start.Sound) (hw : Underway u start rest db) (hk : k ∈ start.declared)
    (key : k.declaration.isKey = true) (hn : k.name ∈ db.names) : k ∈ db.declared := by
  obtain ⟨c, hc, name⟩ := List.mem_map.mp hn
  obtain ⟨o, ho, hco⟩ := hw.origin c hc
  have same : o = k := by
    refine List.inj_on_of_nodup_map h.names ho hk ?_
    rcases hco with rfl | rfl <;> exact name
  subst same
  rcases hco with rfl | rfl
  · exact hc
  · rwa [Declared.renewed_of_isKey key] at hc

theorem mem_start (hw : Underway u start rest db) (hk : k ∈ db.declared) (key : k.declaration.isKey = true) :
    k ∈ start.declared := by
  obtain ⟨o, ho, rfl | rfl⟩ := hw.origin k hk
  · exact ho
  · rw [Declared.isKey_renewed] at key
    rwa [Declared.renewed_of_isKey key]

theorem keyOver?_columns (h : start.Sound) (hw : Underway u start rest db) (hk : k ∈ db.declared)
    (hs : k ∈ start.declared) (key : k.declaration.isKey = true) :
    db.keyOver? k.relation k.declaration.columns = some k := by
  cases found : db.keyOver? k.relation k.declaration.columns with
  | none =>
    have none := List.find?_eq_none.mp found k hk
    exact absurd none (by simp [key])
  | some l =>
    have hl := List.find?_some found
    simp only [Bool.and_eq_true, decide_eq_true_eq] at hl
    obtain ⟨⟨keyl, relation⟩, columns⟩ := hl
    have mem := hw.mem_start (List.mem_of_find?_eq_some found) keyl
    exact congrArg some (h.keys l mem k hs keyl key relation columns)

/-- No other key is in the way of one that is gone. -/
theorem keyOver?_gone (h : start.Sound) (hw : Underway u start rest db) (hd : d ∈ start.declared)
    (hn : d.name ∉ db.names) (key : d.declaration.isKey = true) :
    db.keyOver? d.relation d.declaration.columns = none := by
  refine List.find?_eq_none.mpr fun l hl same => hn ?_
  simp only [Bool.and_eq_true, decide_eq_true_eq] at same
  obtain ⟨⟨keyl, relation⟩, columns⟩ := same
  rw [← h.keys l (hw.mem_start hl keyl) d hd keyl key relation columns]
  exact List.mem_map_of_mem hl

theorem kept (hw : Underway u start (d :: rest) db) (hn : d.name ∈ db.names) : Underway u start rest db where
  origin := hw.origin
  names := hw.names
  covered := by
    intro o ho
    rcases hw.covered o ho with hn | hm
    · exact .inl hn
    · rcases List.mem_cons.mp hm with rfl | hm
      · exact .inl hn
      · exact .inr hm
  user e he := hw.user e (List.mem_cons_of_mem d he)
  ordered := hw.ordered.of_cons
  asides := hw.asides
  segments := hw.segments

theorem declare (hw : Underway u start (d :: rest) db) (hn : d.name ∉ db.names) :
    Underway u start rest (db.declare (d.renewed u)) where
  origin := by
    intro c hc
    rcases List.mem_append.mp hc with hc | hc
    · exact hw.origin c hc
    · exact ⟨d, (Reading.mem_user.mp (hw.user d List.mem_cons_self)).1, .inr (List.mem_singleton.mp hc)⟩
  names := by
    rw [Database.names_declare]
    refine List.nodup_append.mpr ⟨hw.names, List.nodup_singleton _, fun n hm m hs => ?_⟩
    rw [List.mem_singleton.mp hs]
    rintro rfl
    exact hn hm
  covered := by
    intro o ho
    rw [Database.names_declare]
    rcases hw.covered o ho with hn | hm
    · exact .inl (List.mem_append_left _ hn)
    · rcases List.mem_cons.mp hm with rfl | hm
      · exact .inl (List.mem_append_right _ List.mem_cons_self)
      · exact .inr hm
  user e he := hw.user e (List.mem_cons_of_mem d he)
  ordered := hw.ordered.of_cons
  asides := hw.asides
  segments := hw.segments

end Underway

theorem readKey_calm (hk : k ∈ db.declared) (names : db.names.Nodup) (sound : k.Sound start)
    (hc : k.declaration.columns ≠ []) :
    Triple (Calm db) (readKey (Server.cursor u) k.name)
      (fun r s => r = some ⟨k.relation, k.declaration.columns⟩ ∧ Calm db s) (fun _ _ => False) := by
  have answer : db.answer u (.key k.name) = some (Database.keyRows k) := by
    rw [Database.answer, Reading.filter_name names hk, List.flatMap_cons, List.flatMap_nil, List.append_nil]
  refine (Server.ask_calm answer).bind fun rows => ?_
  rintro s ⟨rfl, hs⟩
  rw [Reading.ofRows_keyRows sound hc]
  exact Action.ends_ok.mpr ⟨rfl, hs⟩

theorem referencedKey_calm (c : Constraint) :
    Triple (Calm db) (referencedKey (Server.cursor u) c) (fun _ => Calm db) (fun _ => Calm db) := by
  unfold referencedKey
  split
  · refine (Server.ask_calm rfl).unfailing.bind fun rows => ?_
    exact Triple.lift.weaken (fun _ h => h.2) (fun _ _ h => h.2) fun _ _ => id
  · exact Triple.pure fun _ h => h

theorem restoreRank_of_isKey (h : d.declaration.isKey = true) : restoreRank d.declaration.kind = 0 := by
  obtain ⟨name, relation, declaration⟩ := d
  cases declaration with
  | primary | unique => rfl
  | check | foreign => cases h

/-- A key comes before the foreign keys that reference it, and is there when they do. -/
theorem referencedKey_declares (h : start.Sound) {rest : List Declared} (hw : Underway u start (d :: rest) db) :
    Triple (Calm db) (referencedKey (Server.cursor u) (d.toConstraint u)) (fun r s => Declares u db d r ∧ Calm db s)
      (fun _ _ => False) := by
  obtain ⟨hd, hu⟩ := Reading.mem_user.mp (hw.user d List.mem_cons_self)
  have sound := h.each d hd
  have first := (List.pairwise_cons.mp hw.ordered).1
  obtain ⟨name, relation, declaration⟩ := d
  cases declaration with
  | primary => exact absurd hu (by simp [Declared.isUser, Declaration.kind])
  | unique columns => exact Triple.pure fun s hs => ⟨declares_unique rfl (sound.nonempty fun hc => by cases hc), hs⟩
  | check source =>
    obtain ⟨trimmed, clause⟩ := sound.source source rfl
    exact Triple.pure fun s hs => ⟨declares_check rfl trimmed clause, hs⟩
  | foreign columns key onUpdate onDelete =>
    obtain ⟨k, hk, isKey, rfl, hl⟩ := sound.key key rfl
    have rank := restoreRank_of_isKey isKey
    have there : k.name ∈ db.names := by
      rcases hw.covered k hk with hn | hm
      · exact hn
      · rcases List.mem_cons.mp hm with same | hm
        · rw [same] at isKey
          cases isKey
        · have later : 2 ≤ restoreRank k.declaration.kind := first k hm
          omega
    have mem := hw.mem_of_name h hk isKey there
    have columns : k.declaration.columns ≠ [] := (h.each k hk).nonempty fun hc => by
      rw [hc] at rank
      exact absurd rank (by decide)
    refine (readKey_calm mem hw.names (h.each k hk) columns).weaken (fun _ => id) ?_ fun _ _ => id
    rintro _ s ⟨rfl, hs⟩
    exact ⟨declares_foreign rfl (hw.keyOver?_columns h mem hk isKey) rfl hl, hs⟩

end FirebirdSql.Shadow
