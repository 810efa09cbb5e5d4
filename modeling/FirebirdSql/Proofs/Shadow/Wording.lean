import FirebirdSql.Proofs.NameList
import FirebirdSql.Proofs.Shadow.Server
import Mathlib.Data.List.Nodup
import Mathlib.Data.List.ProdSigma

/-!
The statement that makes a key again tells the key. Its text starts with what is the same for all, and the names in it
end where their quotes do, whatever they hold; so it is read from its start, one name after the other.
-/

namespace FirebirdSql

namespace Identifier

theorem ofStored_toList (name : String) : (ofStored name).text.toList = quoted name.toList := String.toList_ofList

end Identifier

namespace Shadow

open Identifier (quoted quoted_append_inj joinWith_quoted_inj)

/-! The parts of the text -/

section Texts

variable {relation relation' name name' : String} {columns columns' targets targets' : List String}
variable {definition definition' : ConstraintDefinition} {after after' : List Char}

theorem blank_toList : " ".toList = [' '] := rfl

theorem close_toList : ")".toList = [')'] := rfl

theorem identifiers_toList (names : List String) : (Statement.identifiers (Constraint.identifiers names)).toList =
    Text.joinWith [',', ' '] ((names.map String.toList).map quoted) := by
  have spelled : ((String.toList ∘ (·.text)) ∘ Identifier.ofStored) = quoted ∘ String.toList :=
    funext Identifier.ofStored_toList
  rw [Statement.identifiers, Text.joined, String.toList_ofList, Constraint.identifiers, List.map_map, List.map_map,
    List.map_map, spelled]
  rfl

theorem identifiers_inj (same : (Statement.identifiers (Constraint.identifiers columns)).toList ++ ')' :: after =
    (Statement.identifiers (Constraint.identifiers columns')).toList ++ ')' :: after') :
    columns = columns' ∧ after = after' := by
  rw [identifiers_toList, identifiers_toList] at same
  obtain ⟨names, rest⟩ := joinWith_quoted_inj (by decide) (by decide) (by decide) same
  exact ⟨List.map_injective_iff.mpr (fun _ _ => String.toList_inj.mp) names, rest⟩

example : (Statement.identifiers (Constraint.identifiers ["A\", \"B"])) ≠
    Statement.identifiers (Constraint.identifiers ["A", "B"]) := by decide +kernel

theorem ofStored_inj (same : (Identifier.ofStored name).text.toList ++ ' ' :: after =
    (Identifier.ofStored name').text.toList ++ ' ' :: after') : name = name' ∧ after = after' := by
  rw [Identifier.ofStored_toList, Identifier.ofStored_toList] at same
  obtain ⟨names, rest⟩ := quoted_append_inj (by simp) (by simp) same
  exact ⟨String.toList_inj.mp names, (List.cons.inj rest).2⟩

theorem addConstraint_toList (relation name : Identifier) (definition : ConstraintDefinition) :
    (Statement.addConstraint relation name definition).fragment.template.toList =
      "ALTER TABLE ".toList ++ (relation.text.toList ++ ' ' :: ("ADD CONSTRAINT ".toList ++
        (name.text.toList ++ ' ' :: definition.text.toList))) := by
  change ("ALTER TABLE " ++ relation.text ++ " " ++ ("ADD CONSTRAINT " ++ name.text ++ " " ++ definition.text)).toList = _
  simp only [String.toList_append, List.append_assoc, blank_toList, List.singleton_append]

theorem addConstraint_inj
    (same : (Statement.addConstraint (.ofStored relation) (.ofStored name) definition).fragment.template =
      (Statement.addConstraint (.ofStored relation') (.ofStored name') definition').fragment.template) :
    relation = relation' ∧ name = name' ∧ definition.text = definition'.text := by
  have chars := congrArg String.toList same
  rw [addConstraint_toList, addConstraint_toList] at chars
  obtain ⟨relations, chars⟩ := ofStored_inj (List.append_cancel_left chars)
  obtain ⟨names, chars⟩ := ofStored_inj (List.append_cancel_left chars)
  exact ⟨relations, names, String.toList_inj.mp chars⟩

theorem unique_toList (columns : List Identifier) : (ConstraintDefinition.unique columns).text.toList =
    "UNIQUE (".toList ++ ((Statement.identifiers columns).toList ++ [')']) := by
  change ("UNIQUE (" ++ Statement.identifiers columns ++ ")").toList = _
  rw [String.toList_append, String.toList_append, List.append_assoc, close_toList]

theorem foreignKey_toList (columns : List Identifier) (target : Identifier) (targetColumns : List Identifier)
    (onUpdate onDelete : Option String) :
    (ConstraintDefinition.foreignKey columns target targetColumns onUpdate onDelete).text.toList =
      "FOREIGN KEY (".toList ++ ((Statement.identifiers columns).toList ++ ')' :: (" REFERENCES ".toList ++
        (target.text.toList ++ ' ' :: ("(".toList ++ ((Statement.identifiers targetColumns).toList ++ ')' ::
          (Statement.ruleText "UPDATE" onUpdate ++ Statement.ruleText "DELETE" onDelete).toList))))) := by
  change ("FOREIGN KEY (" ++ Statement.identifiers columns ++ ") REFERENCES " ++ target.text ++ " (" ++
    Statement.identifiers targetColumns ++ ")" ++ Statement.ruleText "UPDATE" onUpdate ++
    Statement.ruleText "DELETE" onDelete).toList = _
  have references : ") REFERENCES ".toList = ')' :: " REFERENCES ".toList := rfl
  have list : " (".toList = ' ' :: "(".toList := rfl
  simp only [String.toList_append, List.append_assoc, references, list, close_toList, List.cons_append, List.nil_append]

theorem unique_inj (same : (ConstraintDefinition.unique (Constraint.identifiers columns)).text =
    (ConstraintDefinition.unique (Constraint.identifiers columns')).text) : columns = columns' := by
  have chars := congrArg String.toList same
  rw [unique_toList, unique_toList] at chars
  exact (identifiers_inj (List.append_cancel_left chars)).1

end Texts

/-! Rules -/

/-- The rules that a foreign key can spell out; a key without one restricts. -/
def explicitRules : List (Option String) := [none, some "CASCADE", some "SET NULL", some "SET DEFAULT"]

theorem explicit_mem (rule? : Option Rule) : (rule?.map Rule.text).bind explicitRule? ∈ explicitRules := by
  rcases rule? with _ | _ | _ | _ | _ | _ <;> decide

theorem ruleTexts_nodup : ((explicitRules ×ˢ explicitRules).map fun (onUpdate, onDelete) =>
    Statement.ruleText "UPDATE" onUpdate ++ Statement.ruleText "DELETE" onDelete).Nodup := by decide +kernel

theorem rules_inj {onUpdate onDelete onUpdate' onDelete' : Option String} (hu : onUpdate ∈ explicitRules)
    (hd : onDelete ∈ explicitRules) (hu' : onUpdate' ∈ explicitRules) (hd' : onDelete' ∈ explicitRules)
    (same : Statement.ruleText "UPDATE" onUpdate ++ Statement.ruleText "DELETE" onDelete =
      Statement.ruleText "UPDATE" onUpdate' ++ Statement.ruleText "DELETE" onDelete') :
    onUpdate = onUpdate' ∧ onDelete = onDelete' := by
  have pair : (onUpdate, onDelete) ∈ explicitRules ×ˢ explicitRules := List.mem_product.mpr ⟨hu, hd⟩
  have pair' : (onUpdate', onDelete') ∈ explicitRules ×ˢ explicitRules := List.mem_product.mpr ⟨hu', hd'⟩
  exact Prod.mk.inj (List.inj_on_of_nodup_map ruleTexts_nodup pair pair' same)

/-! Keys -/

namespace Constraint

/-- The key that is referenced. A unique constraint references none, whatever key it is given. -/
def target (c : Constraint) (referenced : Option Key) : Option Key := if c.kind = .foreignKey then referenced else none

/-- A rule as far as it has an effect. -/
def effective (c : Constraint) (rule? : Option String) : Option String :=
  if c.kind = .foreignKey then rule?.bind explicitRule? else none

/-- Its rules are those that there are. -/
structure Ruled (c : Constraint) : Prop where
  onUpdate : ∃ rule? : Option Rule, c.updateRule = rule?.map Rule.text
  onDelete : ∃ rule? : Option Rule, c.deleteRule = rule?.map Rule.text

/-- The two declare the same. -/
structure Alike (c d : Constraint) (k l : Option Key) : Prop where
  kind : c.kind = d.kind
  columns : c.columns = d.columns
  target : c.target k = d.target l
  onUpdate : c.effective c.updateRule = d.effective d.updateRule
  onDelete : c.effective c.deleteRule = d.effective d.deleteRule

variable {c d : Constraint} {k l : Option Key} {m n : ConstraintDefinition}

theorem Ruled.mem (h : c.Ruled) :
    c.updateRule.bind explicitRule? ∈ explicitRules ∧ c.deleteRule.bind explicitRule? ∈ explicitRules := by
  obtain ⟨u, hu⟩ := h.onUpdate
  obtain ⟨v, hv⟩ := h.onDelete
  rw [hu, hv]
  exact ⟨explicit_mem u, explicit_mem v⟩

theorem definition_unique (unique : c.kind = .unique) (made : c.definition k = .ok m) :
    m = .unique (identifiers c.columns) := by
  unfold definition at made
  rw [unique] at made
  dsimp only at made
  split at made
  · cases made
  · exact (Except.ok.inj made).symm

theorem definition_foreignKey (foreign : c.kind = .foreignKey) (made : c.definition k = .ok m) :
    ∃ key, k = some key ∧ m = .foreignKey (identifiers c.columns) (.ofStored key.table) (identifiers key.columns)
      (c.updateRule.bind explicitRule?) (c.deleteRule.bind explicitRule?) := by
  unfold definition at made
  rw [foreign] at made
  cases k with
  | none => cases made
  | some key =>
    dsimp only at made
    split at made
    · exact ⟨key, rfl, (Except.ok.inj made).symm⟩
    · cases made

theorem alike_unique (unique : c.kind = .unique) (unique' : d.kind = .unique) (columns : c.columns = d.columns) :
    Alike c d k l := by
  constructor <;> simp [target, effective, unique, unique', columns]

theorem foreignKey_alike (foreign : c.kind = .foreignKey) (foreign' : d.kind = .foreignKey) (hc : c.Ruled) (hd : d.Ruled)
    (made : c.definition k = .ok m) (made' : d.definition l = .ok n) (same : m.text = n.text) : Alike c d k l := by
  obtain ⟨key, rfl, rfl⟩ := definition_foreignKey foreign made
  obtain ⟨key', rfl, rfl⟩ := definition_foreignKey foreign' made'
  have chars := congrArg String.toList same
  rw [foreignKey_toList, foreignKey_toList] at chars
  -- One part after the other is taken off the front of both texts; the rules are what is left.
  obtain ⟨columns, chars⟩ := identifiers_inj (List.append_cancel_left chars)
  obtain ⟨tables, chars⟩ := ofStored_inj (List.append_cancel_left chars)
  obtain ⟨targets, chars⟩ := identifiers_inj (List.append_cancel_left chars)
  obtain ⟨onUpdate, onDelete⟩ := rules_inj hc.mem.1 hc.mem.2 hd.mem.1 hd.mem.2 (String.toList_inj.mp chars)
  have keys : key = key' := by
    cases key
    cases key'
    exact congrArg₂ _ tables targets
  constructor <;> simp [target, effective, foreign, foreign', columns, keys, onUpdate, onDelete]

/-- The first letter of the text tells the kind. -/
theorem text_ne (unique : c.kind = .unique) (foreign : d.kind = .foreignKey) (made : c.definition k = .ok m)
    (made' : d.definition l = .ok n) : m.text ≠ n.text := by
  intro same
  obtain rfl := definition_unique unique made
  obtain ⟨key, -, rfl⟩ := definition_foreignKey foreign made'
  have chars := congrArg String.toList same
  rw [unique_toList, foreignKey_toList] at chars
  have letters : 'U' = 'F' := (List.cons.inj chars).1
  exact absurd letters (by decide)

theorem alike (hk : c.kind = .unique ∨ c.kind = .foreignKey) (hl : d.kind = .unique ∨ d.kind = .foreignKey)
    (hc : c.Ruled) (hd : d.Ruled) (made : c.definition k = .ok m) (made' : d.definition l = .ok n)
    (same : m.text = n.text) : Alike c d k l := by
  rcases hk with unique | foreign <;> rcases hl with unique' | foreign'
  · obtain rfl := definition_unique unique made
    obtain rfl := definition_unique unique' made'
    exact alike_unique unique unique' (unique_inj same)
  · exact absurd same (text_ne unique foreign' made made')
  · exact absurd same.symm (text_ne unique' foreign made' made)
  · exact foreignKey_alike foreign foreign' hc hd made made' same

theorem restoreStatement_eq_ok {s : Statement} (made : c.restoreStatement k = .ok s) :
    ∃ m, c.definition k = .ok m ∧ s = .addConstraint (.ofStored c.relationName) (.ofStored c.name) m := by
  unfold restoreStatement at made
  cases h : c.definition k with
  | error e =>
    rw [h] at made
    cases made
  | ok m =>
    rw [h] at made
    exact ⟨m, rfl, (Except.ok.inj made).symm⟩

/-- Two unique constraints or foreign keys that are made again by one text are the same, up to how it is said that a key
restricts. -/
theorem restoreStatement_text_inj {s t : Statement} (hk : c.kind = .unique ∨ c.kind = .foreignKey)
    (hl : d.kind = .unique ∨ d.kind = .foreignKey) (hc : c.Ruled) (hd : d.Ruled) (made : c.restoreStatement k = .ok s)
    (made' : d.restoreStatement l = .ok t) (same : s.fragment.template = t.fragment.template) :
    c.relationName = d.relationName ∧ c.name = d.name ∧ Alike c d k l := by
  obtain ⟨m, defined, rfl⟩ := restoreStatement_eq_ok made
  obtain ⟨n, defined', rfl⟩ := restoreStatement_eq_ok made'
  obtain ⟨relations, names, texts⟩ := addConstraint_inj same
  exact ⟨relations, names, alike hk hl hc hd defined defined' texts⟩

namespace Lending

/-- Names that hold what also stands between them in the text. -/
def key (onUpdate : Option String) : Constraint where
  name := "BOOK\", \"FK"
  kind := .foreignKey
  relationName := "LOAN (OLD)"
  indexName := none
  keyName := some "BOOK_PK"
  updateRule := onUpdate
  deleteRule := some "SET NULL"
  source := none
  columns := ["SHELF\")", "BOOK, \"NO\""]

def books : Key := ⟨"BOOK\" (", ["SHELF", "NO"]⟩

theorem ruled (rule? : Option Rule) : (key (rule?.map Rule.text)).Ruled := ⟨⟨rule?, rfl⟩, ⟨some .setNull, rfl⟩⟩

/-- That a key restricts may be said or not. -/
theorem restoreStatement_text_inj_lending :
    ∃ s t, (key none).restoreStatement (some books) = .ok s ∧ (key (some "NO ACTION")).restoreStatement (some books) = .ok t ∧
      s.fragment.template = t.fragment.template ∧ (key none).updateRule ≠ (key (some "NO ACTION")).updateRule ∧
      Alike (key none) (key (some "NO ACTION")) (some books) (some books) := by
  refine ⟨_, _, rfl, rfl, rfl, by decide, ?_⟩
  exact (restoreStatement_text_inj (.inr rfl) (.inr rfl) (ruled none) (ruled (some .noAction)) rfl rfl rfl).2.2

end Lending

end Constraint

end Shadow

end FirebirdSql
