import FirebirdSql.Cursor

/-!
Scripted connections: they answer and fail as they were told beforehand, and note every call. A rehearsal on one shows
what an operation sends.
-/

namespace FirebirdSql

/-- A call that is noted. -/
inductive Call where
  | execute (s : Statement)
  | start (o : Transaction.Options)
  | commit
  | rollback
  | serverVersion
  deriving DecidableEq

/-- The text by which a script speaks of a call. -/
def Call.text : Call → String
  | .execute s => s.fragment.template
  | .start o => o.sql
  | .commit => "COMMIT"
  | .rollback => "ROLLBACK"
  | .serverVersion => "SERVER_VERSION"

namespace Script

/-- The rows for statements that contain a text and whose first value is the given one. -/
structure Reply where
  contains : String
  param : Option Value
  rows : List Row

/-- A failure of calls that contain a text, after some that pass. -/
structure Failure where
  contains : String
  skip : Nat
  /-- Without a bound the calls fail forever. -/
  times : Option Nat
  report : EngineReport

end Script

/-- What a connection will answer, and what it was asked. -/
structure Script where
  banner : String
  replies : List Script.Reply
  failures : List Script.Failure
  pending : List Row
  /-- The last call comes first. -/
  calls : List Call

namespace Script

def Failure.concerns (f : Failure) (text : String) : Bool :=
  f.times != some 0 && Text.occurs f.contains.toList text.toList

/-- The failure that a call meets, and the failures that are left. -/
def meet (text : String) : List Failure → Option EngineReport × List Failure
  | [] => (none, [])
  | f :: rest =>
    if f.concerns text && f.skip == 0 then
      (some f.report, { f with times := f.times.map (· - 1) } :: rest)
    else
      let (met, rest) := meet text rest
      (met, { f with skip := if f.concerns text then f.skip - 1 else f.skip } :: rest)

/-- Fails if the script says so. -/
def pass (text : String) : Action Script Unit := fun s =>
  let (met, failures) := meet text s.failures
  ((met.map fun report => .error (.database report)).getD (.ok ()), { s with failures := failures })

def note (c : Call) : Action Script Unit := Action.modify fun s => { s with calls := c :: s.calls }

def call (c : Call) : Action Script Unit := do
  note c
  pass c.text

def Reply.answers (r : Reply) (f : Fragment) : Bool :=
  Text.occurs r.contains.toList f.template.toList && r.param.all fun v => f.params.head?.any v.same

/-- The rows that a statement fetches. -/
def rowsOf (s : Script) (f : Fragment) : List Row := ((s.replies.find? (·.answers f)).map (·.rows)).getD []

def cursor : Cursor Script where
  execute s := do
    Action.modify fun t => { t with pending := [] }
    call (.execute s)
    Action.modify fun t => { t with pending := t.rowsOf s.fragment }
  fetchOne := do
    pass "FETCHONE"
    let row := (← Action.get).pending.head?
    Action.modify fun t => { t with pending := t.pending.tail }
    return row
  fetchAll := do
    pass "FETCHALL"
    let rows := (← Action.get).pending
    Action.modify fun t => { t with pending := [] }
    return rows
  start o := call (.start o)
  commit := call .commit
  rollback := call .rollback
  serverVersion := do
    call .serverVersion
    return (← Action.get).banner

end Script

end FirebirdSql
