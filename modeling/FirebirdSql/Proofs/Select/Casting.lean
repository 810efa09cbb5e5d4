import FirebirdSql.Proofs.Composed
import FirebirdSql.Select

/-!
Items of a select list that are cast. An item is written as it is, or in a cast, under its label. Whether there is a cast
and to what type can be read off what is written.
-/

namespace FirebirdSql.SelectItem

/-- `f` in a cast to the type. -/
def castTo (type : String) (f : Fragment) : Fragment :=
  Fragment.sql "CAST(" ++ f ++ Fragment.sql (" AS " ++ type ++ ")")

/-- `f` under the label, if there is one. -/
def labelled (e : Engine) (label : Option String) (f : Fragment) : Fragment :=
  match label with
  | none => f
  | some label => f ++ Fragment.sql (" AS " ++ (Identifier.quote e label).text)

/-- What is written for the item is its fragment in a cast to the type. -/
def CastTo (e : Engine) (item : SelectItem) (type : String) : Prop :=
  item.render e = labelled e item.label (castTo type item.sql)

def IsCast (e : Engine) (item : SelectItem) : Prop := ∃ type, CastTo e item type

variable {e : Engine} {item : SelectItem} {type : String}

theorem labelled_inj {label : Option String} {f g : Fragment} : labelled e label f = labelled e label g ↔ f = g := by
  cases label with
  | none => rfl
  | some label =>
    refine ⟨fun same => ?_, congrArg _⟩
    have template := congrArg (fun f : Fragment => f.template.toList) same
    have params := congrArg Fragment.params same
    simp only [labelled, Fragment.append_template, String.toList_append, List.append_cancel_right_eq] at template
    simp only [labelled, Fragment.append_params, List.append_cancel_right_eq] at params
    exact Fragment.eq_of_parts (String.ext template) params

theorem castTo_inj {type' : String} {f : Fragment} (same : castTo type f = castTo type' f) : type = type' := by
  have template := congrArg (fun f : Fragment => f.template.toList) same
  simp [castTo, Fragment.sql] at template
  exact String.ext template

/-- A cast is longer than what it is of. -/
theorem castTo_ne (type : String) (f : Fragment) : f ≠ castTo type f := by
  intro same
  have length := congrArg (fun f : Fragment => f.template.length) same
  have before : "CAST(".length = 5 := by decide
  simp only [castTo, Fragment.sql, Fragment.append_template, String.length_append] at length
  omega

theorem render_eq (e : Engine) (item : SelectItem) : item.render e = labelled e item.label (expression e item.sql) := by
  rw [render]
  cases item.label with
  | none => rfl
  | some label => exact Fragment.pushSql_eq ..

theorem castTo_iff : CastTo e item type ↔ isColumnFree item.sql = true ∧ type = castType e item.sql.params := by
  rw [CastTo, render_eq, labelled_inj, expression]
  split
  · next free =>
    refine ⟨fun same => ⟨free, (castTo_inj same).symm⟩, ?_⟩
    rintro ⟨-, rfl⟩
    rfl
  · next named => exact ⟨fun same => absurd same (castTo_ne type item.sql), fun h => absurd h.1 named⟩

theorem isCast_iff : IsCast e item ↔ isColumnFree item.sql = true := by
  refine ⟨?_, fun free => ⟨_, castTo_iff.mpr ⟨free, rfl⟩⟩⟩
  rintro ⟨type, cast⟩
  exact (castTo_iff.mp cast).1

end FirebirdSql.SelectItem
