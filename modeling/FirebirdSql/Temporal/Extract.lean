import FirebirdSql.Scalar

/-!
Extracting a part of a date or time. Week days count from one, Sunday first; the engine has no quarters.
-/

namespace FirebirdSql.DatePart

def extraction (part : DatePart) (x : α) : Scalar α :=
  match part with
  | .weekDay => .binary .add (.extract "WEEKDAY" (.operand x)) (.number 1)
  | .quarter =>
    .group (.binary .div (.group (.binary .add (.extract "MONTH" (.operand x)) (.number 2))) (.number 3))
  | part => .extract part.keyword (.operand x)

def extract (part : DatePart) (f : Fragment) : Fragment := (part.extraction f).render

/-- The part that a lookup names. -/
def ofName (name : String) : Except Error DatePart :=
  match ofName? name with
  | some part => .ok part
  | none => .error (.notSupported (.datePart name))

end FirebirdSql.DatePart
