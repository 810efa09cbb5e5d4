import FirebirdSql.Text.Numeral

/-!
How a transaction isolates, waits and writes.
-/

namespace FirebirdSql.Transaction

inductive Isolation where
  /-- With record versions, a read takes the latest committed version instead of waiting. -/
  | readCommitted (recordVersion : Bool)
  | snapshot
  | tableStability
  deriving DecidableEq, Repr

inductive LockWait where
  | wait
  | noWait
  /-- Waits so many seconds. -/
  | timeout (seconds : Nat)
  deriving DecidableEq, Repr

structure Options where
  isolation : Isolation
  lockWait : LockWait
  readOnly : Bool
  deriving DecidableEq, Repr

namespace Options

def standard : Options := ⟨.readCommitted true, .wait, false⟩

/-- The catalog does not move under several reads. -/
def snapshot : Options := { standard with isolation := .snapshot }

def tableStability : Options := { standard with isolation := .tableStability }

end Options

def Isolation.keyword : Isolation → String
  | .readCommitted true => "READ COMMITTED RECORD_VERSION"
  | .readCommitted false => "READ COMMITTED NO RECORD_VERSION"
  | .snapshot => "SNAPSHOT"
  | .tableStability => "SNAPSHOT TABLE STABILITY"

def LockWait.keyword : LockWait → String
  | .wait => "WAIT"
  | .noWait => "NO WAIT"
  | .timeout seconds => "WAIT LOCK TIMEOUT " ++ Text.natText seconds

/-- The statement that starts the transaction. -/
def Options.sql (o : Options) : String :=
  "SET TRANSACTION " ++ (if o.readOnly then "READ ONLY" else "READ WRITE") ++ " " ++ o.lockWait.keyword ++
    " ISOLATION LEVEL " ++ o.isolation.keyword

end FirebirdSql.Transaction
