import FirebirdSql.Cursor

/-!
Reading the value that a sequence has reached.
-/

namespace FirebirdSql.Sequence

/-- The last key that was drawn for a table. -/
def lastKey (c : Cursor σ) (e : Engine) (table : String) : Action σ Int := do
  let sequence := (ofTable e table).sequence
  c.execute (.readSequence sequence)
  match ← c.fetchOne with
  | some row => Action.lift (row.get Value.toInt64 0)
  | none => Action.fail (.catalogInconsistency (.silentSequence sequence.text))

end FirebirdSql.Sequence
